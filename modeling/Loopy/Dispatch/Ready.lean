import Loopy.Dispatch.Batch

/-!
# Ready descriptors are served

A descriptor reported by `epoll_wait` should get a callback, unless it was unregistered after
the poll. The adapter turns `EPOLLERR` and `EPOLLHUP` into a write event, so a descriptor
registered for reading only that hangs up without `EPOLLIN` gets none
(`ready_skipped`); as long as no poll reports such a descriptor, and nested polls leave the
batches of enclosing dispatch loops alone, every reported descriptor is served
(`ready_served`).
-/

namespace Loopy.EventLoop

open Loopy.Lib Loopy.Epoll

/-! ## Being served -/

/-- An event that unregisters a descriptor: a call that unregisters it, or the teardown of
the loop. -/
def Event.Drops (fd : ℕ) : Event → Prop
  | .called (.table c) _ => ∃ mask, c.unregistration = some ((fd : ℤ), mask)
  | .deinit _ => True
  | _ => False

/-- The descriptor was unregistered between two points of the history. -/
def Dropped (events : List Event) (since time fd : ℕ) : Prop :=
  ∃ k e, since ≤ k ∧ k < time ∧ events.reverse[k]? = some e ∧ e.Drops fd

/-- Entry `i` of a batch was served: in one of its turns a callback of its descriptor was
invoked, or the descriptor had been unregistered since the poll. -/
def Dispatch.Serves (events : List Event) (d : Dispatch) (i : ℕ) (ev : LoopyFiredEvent) : Prop :=
  ∃ t ∈ d.turns, t.j = i ∧
    ((t.fd = ev.fd ∧ t.invoked = true) ∨ Dropped events d.since t.time ev.fd)

variable {events events' : List Event} {ev : LoopyFiredEvent} {l l' : LoopyLoop EpollState}
  {m : Machine EpollState}

variable {since fd i : ℕ} {e : Event} {d : Dispatch} {s : EpollState} {ready : List EpollEvent}
  {g : Frame} {fs : List Frame} {p : Process}

theorem Dropped.mono {time time' : ℕ} (h : Dropped events since time fd)
    (hsuf : events <:+ events') (htime : time ≤ time') : Dropped events' since time' fd := by
  obtain ⟨k, e, hk, hlt, hget, hdrops⟩ := h
  obtain ⟨new, rfl⟩ := hsuf
  refine ⟨k, e, hk, by omega, ?_, hdrops⟩
  have hlen : k < events.reverse.length := (List.getElem?_eq_some_iff.mp hget).1
  rw [List.reverse_append, List.getElem?_append_left hlen]
  exact hget

/-- What has just happened counts as happened since the poll. -/
theorem Dropped.head (hsince : since ≤ events.length) (he : e.Drops fd) :
    Dropped (e :: events) since (events.length + 1) fd := by
  refine ⟨events.length, e, hsince, by omega, ?_, he⟩
  rw [List.reverse_cons, List.getElem?_append_right (by simp)]
  simp

theorem Dispatch.Serves.mono (h : d.Serves events i ev) (hsuf : events <:+ events')
    (turns : List Turn) : Dispatch.Serves events' { d with turns := d.turns ++ turns } i ev := by
  obtain ⟨t, ht, hj, hserved⟩ := h
  refine ⟨t, List.mem_append_left _ ht, hj, ?_⟩
  rcases hserved with hinv | hdrop
  · exact Or.inl hinv
  · exact Or.inr (hdrop.mono hsuf le_rfl)

theorem Dispatch.Serves.later (h : d.Serves events i ev) (hsuf : events <:+ events') :
    d.Serves events' i ev := by
  have happ := h.mono hsuf []
  rwa [List.append_nil] at happ

/-! ## What a table call leaves registered -/

section

variable {σ ε : Type} {A : Adapter σ ε} {env : Env ε} {l l' : LoopyLoop σ} {c : TableCall}
  {b : Bool}

variable {addr fd i : ℕ} {dir : Dir}

theorem Grown.has_mask (hg : Grown A addr l l')
    (hbeyond : ∀ i, l.setSize ≤ i → (l.events i).mask = .NONE)
    (h : (l.events fd).mask.has dir = true) : (l'.events fd).mask.has dir = true := by
  rcases hg.events_eq fd with heq | ⟨hge, -⟩
  · rw [heq]; exact h
  · exact absurd (hbeyond fd hge) (ne_none_of_has dir h)

/-- A registered direction stays registered, unless the call unregisters the descriptor. -/
theorem TableEffect.has_mask (he : TableEffect A env l c b l')
    (hbeyond : ∀ i, l.setSize ≤ i → (l.events i).mask = .NONE)
    (h : (l.events fd).mask.has dir = true) :
    (l'.events fd).mask.has dir = true ∨ (Event.called (.table c) b).Drops fd := by
  cases he with
  | @register _ r l₁ s i hc hr hg hsame hi hs hfree hok =>
    left
    have h₁ := hg.has_mask hbeyond h
    rw [registered_events]
    by_cases hfd : fd = i
    · subst hfd
      rw [Function.update_self]
      show ((l₁.events fd).mask.union r.mask).has dir = true
      rw [has_union, h₁]
      rfl
    · rw [Function.update_of_ne hfd]; exact h₁
  | refuse hc hr hg hi hs hok => exact Or.inl (hg.has_mask hbeyond h)
  | taken hc hg => exact Or.inl (hg.has_mask hbeyond h)
  | @unregister _ s i mask hc hi hmask hs =>
    by_cases hfd : fd = i
    · subst hfd
      exact Or.inr ⟨mask, hc⟩
    · left
      rw [unregistered_events, Function.update_of_ne hfd]
      exact h
  | absent hc hmask => exact Or.inl h
  | resize hg => exact Or.inl (hg.has_mask hbeyond h)

theorem Grown.fired_eq (hg : Grown A addr l l') (hi : i < l.setSize) :
    i < l'.setSize ∧ l'.fired i = l.fired i := by
  refine ⟨hi.trans_le hg.setSize_le, ?_⟩
  rcases hg with rfl | ⟨n, -, -, rfl⟩
  · rfl
  · exact if_neg (by omega)

theorem TableEffect.fired_eq (he : TableEffect A env l c b l') (hi : i < l.setSize) :
    i < l'.setSize ∧ l'.fired i = l.fired i := by
  cases he with
  | register hc hr hg hsame hi₁ hs hfree hok => exact hg.fired_eq hi
  | refuse hc hr hg hi₁ hs hok => exact hg.fired_eq hi
  | taken hc hg => exact hg.fired_eq hi
  | unregister hc hi₁ hmask hs => rw [unregistered_frame]; exact ⟨hi, rfl⟩
  | absent hc hmask => exact ⟨hi, rfl⟩
  | resize hg => exact hg.fired_eq hi

end

/-! ## Live and torn-down loops -/

/-- A live loop has its registrations in order, a torn-down one has none. -/
structure TablesOk (l : LoopyLoop EpollState) : Prop where
  live : ∀ s, l.state = some s → RegistrationInv l
  dead : l.state = none → ∀ i, (l.events i).mask = .NONE

theorem TablesOk.beyond (h : TablesOk l) (i : ℕ) (hi : l.setSize ≤ i) :
    (l.events i).mask = .NONE := by
  cases hs : l.state with
  | none => exact h.dead hs i
  | some s => rw [(h.live s hs).table.beyond i hi]; rfl

theorem TablesOk.zero : TablesOk (LoopyLoop.zero : LoopyLoop EpollState) :=
  ⟨fun _ hs => (nomatch hs), fun _ _ => rfl⟩

theorem TablesOk.congr (h : TablesOk l)
    (heq : l' = { l with
      before := l'.before, after := l'.after, timer := l'.timer, stop := l'.stop,
      processingDepth := l'.processingDepth, deleting := l'.deleting,
      pendingDelete := l'.pendingDelete, allocated := l'.allocated }) :
    TablesOk l' := by
  have hstate : l'.state = l.state := by rw [heq]
  have hevents : l'.events = l.events := by rw [heq]
  refine ⟨fun s hs => (h.live s (hstate ▸ hs)).congr heq, fun hs i => ?_⟩
  rw [hevents]
  exact h.dead (hstate ▸ hs) i

theorem TablesOk.effect {env : Env Bool} {c : TableCall} {b : Bool} (h : TablesOk l)
    (he : TableEffect epollAdapter env l c b l') : TablesOk l' := by
  cases hs : l.state with
  | some s =>
    have hinv := (h.live s hs).effect he
    obtain ⟨s', hs', -⟩ := hinv.kernel
    refine ⟨fun _ _ => hinv, fun hnone => ?_⟩
    rw [hs'] at hnone
    cases hnone
  | none =>
    -- without adapter state only the tables can grow
    have hgrown : ∀ l₁, Grown epollAdapter env.addr l l₁ →
        l₁.state = none ∧ ∀ i, (l₁.events i).mask = .NONE := by
      intro l₁ hg
      refine ⟨?_, fun i => ?_⟩
      · rcases hg with rfl | ⟨n, -, -, rfl⟩
        · exact hs
        · show l.state.map _ = none
          rw [hs]
          rfl
      · rcases hg.events_eq i with heq | ⟨-, heq⟩
        · rw [heq]; exact h.dead hs i
        · rw [heq]; rfl
    have hdead : l'.state = none ∧ ∀ i, (l'.events i).mask = .NONE := by
      cases he with
      | register hc hr hg hsame hi hs₁ hfree hok => rw [(hgrown _ hg).1] at hs₁; cases hs₁
      | refuse hc hr hg hi hs₁ hok => rw [(hgrown _ hg).1] at hs₁; cases hs₁
      | taken hc hg => exact hgrown _ hg
      | unregister hc hi hmask hs₁ => rw [hs] at hs₁; cases hs₁
      | absent hc hmask => exact ⟨hs, h.dead hs⟩
      | resize hg => exact hgrown _ hg
    refine ⟨fun s' hs' => ?_, fun _ => hdead.2⟩
    rw [hdead.1] at hs'
    cases hs'

/-! ## The invariant of one activation -/

section

variable {σ : Type}

/-- A direction that was reported and is registered. -/
def Armed (l : LoopyLoop σ) (ev : LoopyFiredEvent) (dir : Dir) : Prop :=
  (l.events ev.fd).mask.has dir = true ∧ ev.mask.has dir = true

/-- An entry whose turn has not come: it is in its slot and has a registered direction, or
its descriptor was unregistered. -/
def Pending (l : LoopyLoop σ) (events : List Event) (d : Dispatch) (i : ℕ)
    (ev : LoopyFiredEvent) : Prop :=
  Dropped events d.since events.length ev.fd ∨
    (i < l.setSize ∧ l.fired i = ev ∧ ∃ dir, Armed l ev dir)

/-- The entries before `j` are served and those from `k` on are pending. -/
def Split (l : LoopyLoop σ) (events : List Event) (d : Dispatch) (j k : ℕ) : Prop :=
  ∀ i ev, d.batch[i]? = some ev →
    (i < j → d.Serves events i ev) ∧ (k ≤ i → Pending l events d i ev)

/-- What holds of the batch at each point of `loopyProcessEvents`: the entry at hand has a
registered direction before its read turn, and is served or has the write direction left
after it. -/
def ProcessPc.Ready (l : LoopyLoop σ) (events : List Event) (d : Dispatch) : ProcessPc → Prop
  | .start | .polling => d.batch = []
  | .entry j => Split l events d j j
  | .testRead e => Split l events d e.j (e.j + 1) ∧ ∀ ev, d.batch[e.j]? = some ev →
      Dropped events d.since events.length ev.fd ∨ (⟨e.fd, e.mask⟩ = ev ∧ ∃ dir, Armed l ev dir)
  | .readReturned e _ => Split l events d e.j (e.j + 1) ∧ ∀ ev, d.batch[e.j]? = some ev →
      d.Serves events e.j ev
  | .testWrite e => Split l events d e.j (e.j + 1) ∧ ∀ ev, d.batch[e.j]? = some ev →
      d.Serves events e.j ev ∨ (⟨e.fd, e.mask⟩ = ev ∧ Armed l ev .write)
  | .timers | .wheel | .finish => True

/-- The invariant of an activation of `loopyProcessEvents`. -/
structure ReadyOk (l : LoopyLoop σ) (events : List Event) (p : Process) : Prop where
  numevents : p.numevents = p.dispatch.batch.length
  since_le : p.dispatch.since ≤ events.length
  holds : p.pc.Ready l events p.dispatch

theorem ReadyOk.new (l : LoopyLoop σ) (events : List Event) (flags : LoopyEvents) :
    (Machine.newProcess flags).Sat (ReadyOk l events) :=
  ⟨rfl, Nat.zero_le _, rfl⟩

variable {l l' : LoopyLoop σ} {events events' : List Event} {d : Dispatch} {j i : ℕ} {p : Process}
  {ev : LoopyFiredEvent} {e : Entry}

theorem Split.mono {k : ℕ} (h : Split l events d j k) (hsuf : events <:+ events')
    (hpend : ∀ i ev, k ≤ i → d.batch[i]? = some ev → Pending l events d i ev →
      Pending l' events' d i ev) :
    Split l' events' d j k := by
  intro i ev hev
  obtain ⟨hserved, hpending⟩ := h i ev hev
  exact ⟨fun hi => (hserved hi).later hsuf, fun hi => hpend i ev hi hev (hpending hi)⟩

/-- A waiting activation is not disturbed by what keeps its pending entries pending. -/
theorem ReadyOk.frame (h : ReadyOk l events p) (hsusp : p.pc.Suspended)
    (hsuf : events <:+ events')
    (hpend : ∀ j ∈ p.pc.nextSlot, ∀ i ev, j ≤ i → p.dispatch.batch[i]? = some ev →
      Pending l events p.dispatch i ev → Pending l' events' p.dispatch i ev) :
    ReadyOk l' events' p := by
  refine ⟨h.numevents, h.since_le.trans hsuf.length_le, ?_⟩
  have hholds := h.holds
  generalize p.pc = pc at hsusp hholds hpend ⊢
  cases pc with
  | entry j => exact Split.mono hholds hsuf (hpend j rfl)
  | readReturned e eventsBefore =>
    obtain ⟨hsplit, hserved⟩ := hholds
    exact ⟨hsplit.mono hsuf (hpend _ rfl), fun ev hev => (hserved ev hev).later hsuf⟩
  | wheel => trivial
  | start | polling | testRead e | testWrite e | timers | finish => exact hsusp.elim

/-- Entries stay pending when the tables stay and other things happen. -/
theorem Pending.same (h : Pending l events d i ev) (hsuf : events <:+ events')
    (hev : l'.events = l.events) (hsize : l'.setSize = l.setSize)
    (hfired : l'.fired i = l.fired i) : Pending l' events' d i ev := by
  rcases h with hdrop | ⟨hi, hslot, dir, harmed⟩
  · exact Or.inl (hdrop.mono hsuf hsuf.length_le)
  · refine Or.inr ⟨hsize ▸ hi, hfired.trans hslot, dir, ?_⟩
    unfold Armed
    rw [hev]
    exact harmed

/-- Everything pending counts as unregistered after a teardown. -/
theorem Pending.deinit (hsince : d.since ≤ events.length) (n : ℕ) :
    Pending l (.deinit n :: events) d i ev :=
  Or.inl (Dropped.head hsince trivial)

theorem Pending.effect {ε : Type} {A : Adapter σ ε} {env : Env ε} {c : TableCall} {b : Bool}
    (h : Pending l events d i ev) (hsince : d.since ≤ events.length)
    (hbeyond : ∀ i, l.setSize ≤ i → (l.events i).mask = .NONE) (he : TableEffect A env l c b l') :
    Pending l' (.called (.table c) b :: events) d i ev := by
  rcases h with hdrop | ⟨hi, hslot, dir, hmask, hrep⟩
  · exact Or.inl (hdrop.mono (List.suffix_cons _ _) (by simp))
  · obtain ⟨hi', hfired⟩ := he.fired_eq hi
    rcases he.has_mask hbeyond hmask with hmask' | hdrops
    · exact Or.inr ⟨hi', hfired.trans hslot, dir, hmask', hrep⟩
    · exact Or.inl (Dropped.head hsince hdrops)

/-! ## The steps of one activation -/

theorem ReadyOk.started (h : ReadyOk l events p) (hp : p.pc = .start) (hasTimers : Bool)
    {pc : ProcessPc} (hpc : pc = .polling ∨ pc = .timers) :
    ReadyOk l' events { p with hasTimers := hasTimers, pc := pc } := by
  have hbatch := h.holds
  rw [hp] at hbatch
  rcases hpc with rfl | rfl
  · exact ⟨h.numevents, h.since_le, hbatch⟩
  · exact ⟨h.numevents, h.since_le, trivial⟩

theorem ReadyOk.fetched (h : ReadyOk l events p) (hp : p.pc = .entry j) :
    ReadyOk l events
      { p with pc := .testRead ⟨j, (l.fired j).fd, (l.fired j).mask, l.eventsPtr⟩ } := by
  have hholds := h.holds
  rw [hp] at hholds
  have hsplit : Split l events p.dispatch j j := hholds
  refine ⟨h.numevents, h.since_le, fun i ev hev => ?_, fun ev hev => ?_⟩
  · obtain ⟨hserved, hpending⟩ := hsplit i ev hev
    exact ⟨hserved, fun hi => hpending (by simp at hi; omega)⟩
  · rcases (hsplit j ev hev).2 le_rfl with hdrop | ⟨-, hslot, harmed⟩
    · exact Or.inl hdrop
    · exact Or.inr ⟨hslot, harmed⟩

theorem ReadyOk.readReturned {eventsBefore : Option ℕ} (h : ReadyOk l events p)
    (hp : p.pc = .readReturned e eventsBefore) :
    ReadyOk l events
      { p with
        pc := .testWrite (if l.eventsPtr ≠ eventsBefore then { e with fe := l.eventsPtr } else e) }
          := by
  have hholds := h.holds
  rw [hp] at hholds
  obtain ⟨hsplit, hserved⟩ := hholds
  refine ⟨h.numevents, h.since_le, ?_⟩
  split
  · exact ⟨hsplit, fun ev hev => Or.inl (hserved ev hev)⟩
  · exact ⟨hsplit, fun ev hev => Or.inl (hserved ev hev)⟩

/-- All entries of a batch are served at its end. -/
theorem ReadyOk.served (h : ReadyOk l events p) (hp : p.pc = .entry j) (hj : p.numevents ≤ j)
    (hev : p.dispatch.batch[i]? = some ev) : p.dispatch.Serves events i ev := by
  have hholds := h.holds
  rw [hp] at hholds
  have hlt : i < p.dispatch.batch.length := (List.getElem?_eq_some_iff.mp hev).1
  have hnum := h.numevents
  exact (hholds i ev hev).1 (by omega)

variable {dir : Dir}

/-- The turn of a direction serves the entry when its callback was invoked or the descriptor
was unregistered before. -/
theorem serves_turn {m : Machine σ} (hsuf : m.events <:+ events')
    (h : (e.fd = ev.fd ∧ (Machine.turnOf m e dir).invoked = true) ∨
      Dropped m.events p.dispatch.since m.events.length ev.fd)
    (pc : ProcessPc) : (p.turned pc (Machine.turnOf m e dir)).dispatch.Serves events' e.j ev := by
  refine ⟨Machine.turnOf m e dir, List.mem_append_right _ List.mem_cons_self, rfl, ?_⟩
  rcases h with hinv | hdrop
  · exact Or.inl hinv
  · exact Or.inr (hdrop.mono hsuf le_rfl)

/-- One direction has had its turn; a skipped one leaves the table and the history alone. -/
theorem ReadyOk.turned {m : Machine σ} {returned skipped : ProcessPc}
    (h : ReadyOk m.loop m.events p) (hp : Machine.DirPc m.loop e p.pc dir returned skipped)
    (hsuf : m.events <:+ events') :
    ((Machine.turnOf m e dir).invoked = true →
      ReadyOk m.loop events' (p.turned returned (Machine.turnOf m e dir))) ∧
    (¬ (Machine.turnOf m e dir).invoked = true →
      ReadyOk m.loop events' (p.turned skipped (Machine.turnOf m e dir))) ∧
    returned.Suspended := by
  have hholds := h.holds
  have hsince : p.dispatch.since ≤ events'.length := h.since_le.trans hsuf.length_le
  -- the other entries, with the turn added
  have hothers : ∀ pc, Split m.loop m.events p.dispatch e.j (e.j + 1) →
      Split m.loop events' (p.turned pc (Machine.turnOf m e dir)).dispatch e.j (e.j + 1) := by
    intro pc hsplit i ev hev
    obtain ⟨hserved, hpending⟩ := hsplit i ev hev
    exact ⟨fun hi => (hserved hi).mono hsuf _, fun hi => (hpending hi).same hsuf rfl rfl rfl⟩
  generalize p.pc = pc at hp hholds
  cases hp with
  | read =>
    obtain ⟨hsplit, hhand⟩ := hholds
    refine ⟨fun hinv => ?_, fun hskip => ?_, trivial⟩
    · refine ⟨h.numevents, hsince, hothers _ hsplit, fun ev hev => serves_turn hsuf ?_ _⟩
      rcases hhand ev hev with hdrop | ⟨rfl, -⟩
      · exact Or.inr hdrop
      · exact Or.inl ⟨rfl, hinv⟩
    · refine ⟨h.numevents, hsince, hothers _ hsplit, fun ev hev => ?_⟩
      rcases hhand ev hev with hdrop | ⟨rfl, armed, harmed⟩
      · exact Or.inl (serves_turn hsuf (Or.inr hdrop) _)
      · -- the read direction was skipped, so it is the write direction that is left
        cases armed with
        | read => exact absurd (Bool.and_eq_true_iff.mpr harmed) hskip
        | write => exact Or.inr ⟨rfl, harmed⟩
  | write =>
    obtain ⟨hsplit, hhand⟩ := hholds
    -- the entry is served now, and the loop goes on with the next one
    have hnext : (∀ ev, p.dispatch.batch[e.j]? = some ev →
        (p.turned (.entry (e.j + 1)) (Machine.turnOf m e .write)).dispatch.Serves events' e.j ev) →
        ReadyOk m.loop events' (p.turned (.entry (e.j + 1)) (Machine.turnOf m e .write)) := by
      intro hcur
      refine ⟨h.numevents, hsince, fun i ev hev => ?_⟩
      obtain ⟨hserved, hpending⟩ := hothers (.entry (e.j + 1)) hsplit i ev hev
      refine ⟨fun hi => ?_, hpending⟩
      by_cases hij : i = e.j
      · subst hij; exact hcur ev hev
      · exact hserved (by omega)
    refine ⟨fun hinv => hnext fun ev hev => ?_, fun hskip => hnext fun ev hev => ?_, trivial⟩
    · rcases hhand ev hev with hserved | ⟨rfl, -⟩
      · exact hserved.mono hsuf _
      · exact serves_turn hsuf (Or.inl ⟨rfl, hinv⟩) _
    · rcases hhand ev hev with hserved | ⟨rfl, harmed⟩
      · exact hserved.mono hsuf _
      · exact absurd (Bool.and_eq_true_iff.mpr harmed) hskip

end

/-! ## The machine -/

/-- Every descriptor a poll reports is readable or registered for writing. -/
def Deliverable (m : Machine EpollState) (ready : List EpollEvent) : Prop :=
  ∀ s ∈ m.loop.state, ∀ e ∈ epollWait s m.loop.setSize ready,
    hasBit e.2 EPOLLIN = true ∨ (m.loop.events e.1).mask.write = true

instance (m : Machine EpollState) (ready : List EpollEvent) : Decidable (Deliverable m ready) :=
  inferInstanceAs (Decidable (∀ s ∈ m.loop.state, ∀ e ∈ epollWait s m.loop.setSize ready, _))

/-- Every poll reports only what can be delivered, and leaves the slots that enclosing
dispatch loops have yet to read as they are. -/
def ReadySafe (m : Machine EpollState) : EpollInput → Prop
  | .poll _ ready => Deliverable m ready ∧ KeepsBatches m ready
  | _ => True

instance (m : Machine EpollState) : (i : EpollInput) → Decidable (ReadySafe m i)
  | .poll _ _ => inferInstanceAs (Decidable (_ ∧ _))
  | .call _ _ | .go | .ret | .clock _ | .fire | .wheelDone => isTrue trivial

/-- The invariant; it says nothing about the activations of a program that is over. -/
structure AllReady (m : Machine EpollState) : Prop where
  tables : TablesOk m.loop
  stack : m.crashed = false → StackSat (ReadyOk m.loop m.events) m.frames
  served : ∀ d, .dispatched d ∈ m.events → ∀ i ev, d.batch[i]? = some ev → d.Serves m.events i ev

theorem AllReady.served_later (h : AllReady m) (hsuf : m.events <:+ events')
    (hnew : ∀ d, .dispatched d ∈ events' → .dispatched d ∉ m.events →
      ∀ i ev, d.batch[i]? = some ev → d.Serves m.events i ev) :
    ∀ d, .dispatched d ∈ events' → ∀ i ev, d.batch[i]? = some ev → d.Serves events' i ev := by
  intro d hd i ev hev
  by_cases hold : .dispatched d ∈ m.events
  · exact (h.served d hold i ev hev).later hsuf
  · exact (hnew d hd hold i ev hev).later hsuf

/-- A reported descriptor has a registered direction in its mask. -/
theorem armed_polled (h : InterestOk l.events s) {setSize : ℕ}
    (hdel : ∀ e ∈ epollWait s setSize ready, hasBit e.2 EPOLLIN = true ∨
      (l.events e.1).mask.write = true)
    (hev : ev ∈ (loopyInternalPoll ready setSize s).1) : ∃ dir, Armed l ev dir := by
  obtain ⟨e, he, rfl⟩ := List.mem_map.mp hev
  obtain ⟨interest, hint, hne, hsub⟩ := mem_epollWait he
  have hinterest : interest = epollEvents (l.events e.1).mask := by
    rw [h.interest, interestOf] at hint
    split at hint
    · cases hint
    · exact (Option.some.inj hint).symm
  rw [hinterest] at hsub
  cases hin : hasBit e.2 EPOLLIN with
  | true => exact ⟨.read, read_of_reported hsub hin, (firedMask_read e.2).trans hin⟩
  | false =>
    rcases hdel e he with habs | hwrite
    · rw [hin] at habs; cases habs
    · exact ⟨.write, hwrite, write_of_reported hsub hne hin⟩

/-- The batch of a poll is pending as a whole. -/
theorem ReadyOk.polled (h : RegistrationInv m.loop) (hs : m.loop.state = some s)
    (hdel : Deliverable m ready) (p : Process) (shortest : ℕ) (events : List Event)
    (hevents : events.length = m.events.length + 1) :
    ReadyOk
      { m.loop with
        state := some (loopyInternalPoll ready m.loop.setSize s).2
        fired := Machine.writeFired m.loop.fired (loopyInternalPoll ready m.loop.setSize s).1 }
      events
      (p.polled shortest (m.events.length + 1) (loopyInternalPoll ready m.loop.setSize s).1) where
  numevents := rfl
  since_le := hevents.ge
  holds := fun i ev hev => by
    refine ⟨fun hi => absurd hi (Nat.not_lt_zero i), fun _ => Or.inr ⟨?_, ?_, ?_⟩⟩
    · have hlt : i < (loopyInternalPoll ready m.loop.setSize s).1.length :=
        (List.getElem?_eq_some_iff.mp hev).1
      have hle := epollWait_length s m.loop.setSize ready
      simp only [loopyInternalPoll, List.length_map] at hlt
      exact hlt.trans_le hle
    · show ((loopyInternalPoll ready m.loop.setSize s).1[i]?).getD (m.loop.fired i) = ev
      have hev' : (loopyInternalPoll ready m.loop.setSize s).1[i]? = some ev := hev
      rw [hev']
      rfl
    · obtain ⟨s', hs', hint⟩ := h.kernel
      obtain rfl := Option.some.inj (hs.symm.trans hs')
      exact armed_polled hint (hdel s hs) (List.mem_of_getElem? hev)

/-- A teardown while every activation waits. -/
theorem AllReady.deinit (h : AllReady m)
    (hwaits : m.crashed = false → ∀ g ∈ m.frames, g.Waits (ReadyOk m.loop m.events)) :
    AllReady m.loopyDeinit where
  tables := .zero
  stack := fun hc => by
    apply StackSat.of_waits
    intro g hg
    apply (hwaits hc g hg).mono
    intro p _ hp hsusp
    exact hp.frame hsusp (List.suffix_cons _ _) fun _ _ _ _ _ _ _ => .deinit hp.since_le _
  served := h.served_later (List.suffix_cons _ _) fun d hd hnew => by
    rcases List.mem_cons.mp hd with hd | hd
    · cases hd
    · exact absurd hd hnew

/-- An event that is no `dispatched` changes nothing about the past. -/
theorem AllReady.served_emit (h : AllReady m) (he : ∀ d, e ≠ .dispatched d) :
    ∀ d, .dispatched d ∈ e :: m.events →
      ∀ i ev, d.batch[i]? = some ev → d.Serves (e :: m.events) i ev := by
  refine h.served_later (List.suffix_cons _ _) fun d hd hnew => ?_
  rcases List.mem_cons.mp hd with hd | hd
  · exact absurd hd.symm (he d)
  · exact absurd hd hnew

/-- Waiting activations under an unchanged table. -/
theorem ReadyOk.waits_same (hev : l'.events = l.events) (hsize : l'.setSize = l.setSize)
    (hfired : l'.fired = l.fired) (hsuf : events <:+ events') (hg : g.Waits (ReadyOk l events)) :
    g.Waits (ReadyOk l' events') := by
  apply hg.mono
  intro p _ hp hsusp
  exact hp.frame hsusp hsuf fun _ _ i _ _ _ hpend => hpend.same hsuf hev hsize (by rw [hfired])

theorem ReadyOk.waits_emit (e : Event) (hg : g.Waits (ReadyOk l events)) :
    g.Waits (ReadyOk l (e :: events)) :=
  waits_same rfl rfl rfl (List.suffix_cons e events) hg

/-- A call of user code that leaves the loop. -/
theorem AllReady.emit (h : AllReady m) (hu : m.UserRuns) (he : ∀ d, e ≠ .dispatched d) :
    AllReady (m.emit e) :=
  ⟨h.tables, fun hc => .of_waits fun g hg => ReadyOk.waits_emit _ ((h.stack hc).waits hu g hg),
    h.served_emit he⟩

/-- `loopyDelete` outside every activation. -/
theorem AllReady.deleteNow (h : AllReady m) (hu : m.UserRuns) :
    AllReady (m.emit (.called .delete true)).loopyDeinit := by
  have hcalled : AllReady (m.emit (.called .delete true)) := h.emit hu nofun
  exact hcalled.deinit fun hc g hg => ReadyOk.waits_emit _ ((h.stack hc).waits hu g hg)

/-- What is known of the activations, the innermost first. -/
theorem AllReady.top {f : Frame} (h : AllReady m) (hc : m.crashed = false)
    (hf : m.frames = f :: fs) : StackSat (ReadyOk m.loop m.events) (f :: fs) := by
  rw [← hf]
  exact h.stack hc

/-- A poll; the pending slots of the enclosing dispatch loops are kept. -/
theorem AllReady.polled {shortest : ℕ} (h : AllReady m) (hdel : Deliverable m ready)
    (hkeeps : KeepsBatches m ready) (hf : m.frames = .process p :: fs)
    (hs : m.loop.state = some s) :
    AllReady { m.emit (.polled (loopyInternalPoll ready m.loop.setSize s).1) with
      loop :=
        { m.loop with
          state := some (loopyInternalPoll ready m.loop.setSize s).2
          fired := Machine.writeFired m.loop.fired (loopyInternalPoll ready m.loop.setSize s).1 }
      frames := .process (p.polled shortest (m.events.length + 1)
        (loopyInternalPoll ready m.loop.setSize s).1) :: fs } := by
  have hreg := h.tables.live s hs
  have hreg' := hreg.polled hs ready
  refine ⟨⟨fun _ _ => hreg', nofun⟩, fun hc => ⟨?_, fun g hg => ?_⟩, h.served_emit nofun⟩
  · exact ReadyOk.polled hreg hs hdel p shortest _ rfl
  · apply ((h.top hc hf).2 g hg).mono
    rintro q rfl hq hsusp
    have hkeep := hkeeps s hs (.process q) (by rw [hf]; exact hg)
    refine hq.frame hsusp (List.suffix_cons _ _) fun j hj i ev hi hev hpend => ?_
    have hlt : i < q.dispatch.batch.length := (List.getElem?_eq_some_iff.mp hev).1
    exact hpend.same (List.suffix_cons _ _) rfl rfl
      (hkeep j hj i (by rw [hq.numevents]; exact hlt) hi)

/-- The end of a dispatch loop: everything of its batch has been served. -/
theorem AllReady.dispatched {j : ℕ} (h : AllReady m) (hc : m.crashed = false)
    (hf : m.frames = .process p :: fs) (hp : p.pc = .entry j) (hj : p.numevents ≤ j) :
    AllReady (({ m with frames := .process { p with pc := .timers } :: fs } :
      Machine EpollState).emit (.dispatched p.dispatch)) := by
  obtain ⟨hprocess, hrest⟩ := h.top hc hf
  refine ⟨h.tables, fun _ => ⟨⟨hprocess.numevents, ?_, trivial⟩, ?_⟩, ?_⟩
  · exact Nat.le_succ_of_le hprocess.since_le
  · exact fun g hg => ReadyOk.waits_emit _ (hrest g hg)
  · refine h.served_later (List.suffix_cons _ _) fun d hd hnew i ev hev => ?_
    rcases List.mem_cons.mp hd with hd | hd
    · cases hd
      exact ReadyOk.served hprocess hp hj hev
    · exact absurd hd hnew

open Machine in
/-- Every step keeps what is known of the activations and of what was served. -/
theorem AllReady.step {m' : Machine EpollState} {i : EpollInput} (h : AllReady m)
    (hok : ReadySafe m i) (hstep : epollStep m i = some m') : AllReady m' := by
  cases step_inv hstep with
  | table hu heff =>
    refine ⟨h.tables.effect heff, fun hc => ?_, h.served_emit nofun⟩
    apply (h.stack hc).userMono hu
    intro p hp hsusp
    exact hp.frame hsusp (List.suffix_cons _ _) fun _ _ _ _ _ _ hpend =>
      hpend.effect hp.since_le h.tables.beyond heff
  | control hu hc _ hl =>
    obtain ⟨stop, before, after, timer, -, rfl⟩ := hl
    refine ⟨h.tables.congr rfl, fun hc => .of_waits fun g hg => ?_, h.served_emit nofun⟩
    refine ReadyOk.waits_same ?_ ?_ ?_ (List.suffix_cons _ _) ((h.stack hc).waits hu g hg) <;> rfl
  | deleteNone hu hnull => exact h.emit hu nofun
  | deletePending hu hd =>
    refine ⟨h.tables.congr rfl, fun hc => .of_waits fun g hg => ?_, h.served_emit nofun⟩
    refine ReadyOk.waits_same ?_ ?_ ?_ (List.suffix_cons _ _) ((h.stack hc).waits hu g hg) <;> rfl
  | deleteNow hu hlive hd => exact h.deleteNow hu
  | main hu =>
    exact ⟨h.tables, fun hc => ⟨trivial, fun g hg => ReadyOk.waits_emit _ ((h.stack hc).waits hu g hg)⟩,
      h.served_emit nofun⟩
  | ret hf => exact ⟨h.tables, fun hc => (h.top hc hf).tail, h.served⟩
  | enter hf =>
    refine ⟨h.tables.congr rfl, fun hc => ⟨trivial, fun g hg => ?_⟩, h.served⟩
    refine ReadyOk.waits_same ?_ ?_ ?_ (List.suffix_refl _) ((h.top hc hf).2 g hg) <;> rfl
  | jump hf hj => exact ⟨h.tables, fun hc => ⟨trivial, (h.top hc hf).2⟩, h.served⟩
  | beforeSleep hf hs | afterSleep hf hs =>
    exact ⟨h.tables, fun hc => ⟨trivial, List.forall_mem_cons.mpr
      ⟨trivial, fun g hg => ReadyOk.waits_emit _ ((h.top hc hf).2 g hg)⟩⟩, h.served_emit nofun⟩
  | process hf hpc hs =>
    exact ⟨h.tables, fun hc => ⟨.new _ _ _, List.forall_mem_cons.mpr
      ⟨trivial, (h.top hc hf).2⟩⟩, h.served⟩
  | exit hf hp => exact ⟨h.tables, fun hc => (h.top hc hf).tail, h.served⟩
  | @exitDelete flags fs hf hp =>
    have hpopped : AllReady { m with frames := fs } :=
      ⟨h.tables, fun hc => (h.top hc hf).tail, h.served⟩
    exact hpopped.deinit fun hc => (h.top hc hf).2
  | started hf hp hpc =>
    refine ⟨h.tables.congr rfl,
      fun hc => ⟨ReadyOk.started (h.top hc hf).1 hp _ hpc, fun g hg => ?_⟩, h.served⟩
    refine ReadyOk.waits_same ?_ ?_ ?_ (List.suffix_refl _) ((h.top hc hf).2 g hg) <;> rfl
  | polled hf hp hs => exact h.polled hok.1 hok.2 hf hs
  | pollFault hf hp hs =>
    have hpolled := h.served_emit (e := .polled []) nofun
    refine ⟨h.tables, nofun, fun d hd i ev hev => ?_⟩
    rcases List.mem_cons.mp hd with hd | hd
    · cases hd
    · exact (hpolled d hd i ev hev).later (List.suffix_cons _ _)
  | fetch hf hp hj hptr =>
    exact ⟨h.tables, fun hc => ⟨ReadyOk.fetched (h.top hc hf).1 hp, (h.top hc hf).2⟩, h.served⟩
  | dispatched hf hp hj => exact h.dispatched (not_crashed hstep) hf hp hj
  | dirInvoked hf hp hr hi =>
    refine ⟨h.tables, fun hc => ?_, h.served_emit nofun⟩
    obtain ⟨hinv, -, hsusp⟩ :=
      ReadyOk.turned (h.top hc hf).1 hp (List.suffix_cons (.invoked _ _ _) m.events)
    exact ⟨trivial, List.forall_mem_cons.mpr
      ⟨⟨hinv hi, hsusp⟩, fun g hg => ReadyOk.waits_emit _ ((h.top hc hf).2 g hg)⟩⟩
  | dirSkipped hf hp hr hi =>
    refine ⟨h.tables, fun hc => ?_, h.served⟩
    obtain ⟨-, hskip, -⟩ := ReadyOk.turned (h.top hc hf).1 hp (List.suffix_refl m.events)
    exact ⟨hskip hi, (h.top hc hf).2⟩
  | readReturned hf hp =>
    exact ⟨h.tables, fun hc => ⟨ReadyOk.readReturned (h.top hc hf).1 hp, (h.top hc hf).2⟩,
      h.served⟩
  | @timers p fs pc i hf hp hpc =>
    refine ⟨h.tables, fun hc => ⟨⟨(h.top hc hf).1.numevents, (h.top hc hf).1.since_le, ?_⟩,
      (h.top hc hf).2⟩, h.served⟩
    rcases hpc with rfl | rfl <;> trivial
  | @fire p fs hf hp =>
    refine ⟨h.tables, fun hc => ⟨trivial, fun g hg => ?_⟩, h.served_emit nofun⟩
    apply ReadyOk.waits_emit
    rcases List.mem_cons.mp hg with rfl | hg
    · refine ⟨(h.top hc hf).1, ?_⟩
      rw [hp]
      trivial
    · exact (h.top hc hf).2 g hg
  | leave hf hp =>
    refine ⟨h.tables.congr rfl, fun hc => .of_waits fun g hg => ?_, h.served⟩
    refine ReadyOk.waits_same ?_ ?_ ?_ (List.suffix_refl _) ((h.top hc hf).2 g hg) <;> rfl
  | fetchFault | dirFault | freed => exact ⟨h.tables, nofun, h.served_emit nofun⟩

theorem AllReady.start {n : ℕ} (hn : 1 ≤ n) (hn31 : n < 2 ^ 31) (addr : ℕ) (allocated : Bool) :
    AllReady (epollStart n addr allocated) where
  tables := ⟨fun _ _ => (RegistrationInv.fresh hn hn31 addr).congr rfl, nofun⟩
  stack := fun _ => trivial
  served := fun _ hd => absurd hd List.not_mem_nil

/-- **No ready descriptor is skipped.** In every run in which each poll reports only
descriptors that are readable or registered for writing, and leaves the slots of enclosing
dispatch loops alone, every entry of every dispatched batch got a callback of its
descriptor, unless the descriptor had been unregistered since the poll. -/
theorem ready_served (n : ℕ) (hn : 1 ≤ n) (hn31 : n < 2 ^ 31) (addr : ℕ) (allocated : Bool)
    (is : List EpollInput) (m : Machine EpollState)
    (hrun : Run epollStep ReadySafe (epollStart n addr allocated) is m) :
    ∀ d, .dispatched d ∈ m.events → ∀ i ev, d.batch[i]? = some ev → d.Serves m.events i ev := by
  have hinv : AllReady m := hrun.invariant (fun m i m' h hok hstep => h.step hok hstep)
    (.start hn hn31 addr allocated)
  exact hinv.served

/-- Descriptor 3, registered for reading, is reported with the given bits and its callback,
if it is invoked, returns. -/
def readOnly (bits : BitVec 32) (callback : List EpollInput) : List EpollInput :=
  [.call (.table (.registerRead 3 5 9)) ⟨2, true⟩, .call (.main .ALL) ⟨2, true⟩, .go, .go, .go,
    .poll 0 [(3, bits)], .go, .go] ++ callback ++ [.go, .go]

theorem ready_served_hangup :
    ∃ m d, Run epollStep ReadySafe (epollStart 16 1 false)
      (readOnly (EPOLLIN ||| EPOLLHUP) [.ret, .go]) m ∧ .dispatched d ∈ m.events ∧
      d.batch[0]? = some ⟨3, .ALL⟩ ∧ d.Serves m.events 0 ⟨3, .ALL⟩ := by
  have hexec : ∃ d : Dispatch, d.batch[0]? = some ⟨3, .ALL⟩ ∧
      (exec epollStep ReadySafe (epollStart 16 1 false)
        (readOnly (EPOLLIN ||| EPOLLHUP) [.ret, .go])).map (fun m => m.events.head?) =
        some (some (.dispatched d)) :=
    ⟨⟨[⟨3, .ALL⟩], 3, [⟨0, .read, 3, .ALL, 3, true, true⟩,
      ⟨0, .write, 3, .ALL, 4, false, false⟩]⟩, rfl, by decide +kernel⟩
  obtain ⟨d, hbatch, hexec⟩ := hexec
  obtain ⟨m, hrun, hhead⟩ := Run.of_exec_map hexec
  have hin := List.mem_of_head? hhead
  exact ⟨m, d, hrun, hin, hbatch,
    ready_served 16 (by decide) (by decide) 1 false _ _ hrun d hin 0 _ hbatch⟩

/-- A read-only descriptor that hangs up gets no callback, although nothing was called after
the poll. -/
theorem ready_skipped :
    ¬ ∀ is m, Run epollStep (fun _ _ => True) (epollStart 16 1 false) is m →
      ∀ d, .dispatched d ∈ m.events → ∀ i ev, d.batch[i]? = some ev → d.Serves m.events i ev := by
  intro hall
  have hexec : (exec epollStep (fun _ _ => True) (epollStart 16 1 false)
      (readOnly EPOLLHUP [])).map (fun m => m.events) =
        some [.dispatched ⟨[⟨3, .WRITE⟩], 3, [⟨0, .read, 3, .WRITE, 3, true, false⟩,
            ⟨0, .write, 3, .WRITE, 3, false, false⟩]⟩,
          .polled [⟨3, .WRITE⟩], .called (.main .ALL) true,
          .called (.table (.registerRead 3 5 9)) true] := by decide +kernel
  obtain ⟨m, hm, hevents⟩ := Run.of_exec_map hexec
  have hserves := hall _ _ hm _ (by rw [hevents]; exact List.mem_cons_self) 0
    ⟨3, .WRITE⟩ rfl
  obtain ⟨t, ht, -, hinv | hdrop⟩ := hserves
  · -- neither turn invoked a callback
    have hnone : t.invoked = false := by
      simp only [List.mem_cons, List.not_mem_nil, or_false] at ht
      rcases ht with rfl | rfl <;> rfl
    rw [hnone] at hinv
    exact Bool.false_ne_true hinv.2
  · -- and nothing happened between the poll and the turns
    obtain ⟨k, e, hk, hlt, -, -⟩ := hdrop
    have htime : t.time = 3 := by
      simp only [List.mem_cons, List.not_mem_nil, or_false] at ht
      rcases ht with rfl | rfl <;> rfl
    have hsince : 3 ≤ k := hk
    omega

end Loopy.EventLoop
