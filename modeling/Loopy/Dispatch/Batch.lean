import Loopy.Epoll.Poll

/-!
# A poll batch under re-entrancy

The dispatch loop reads its batch from `l->fired`, one entry at a time, while the callbacks
of earlier entries may grow the tables and run the loop again. A nested poll writes its own
batch over the same slots; as long as it leaves the slots that enclosing dispatch loops have
yet to read as they are (`KeepsBatches`), every dispatch loop handles its own batch, in
order and without a stale read.

The invariant is one statement for each point of `loopyProcessEvents` (`ProcessOk`), held by
the activations on the stack.
-/

namespace Loopy.EventLoop

open Loopy.Lib Loopy.Epoll

/-! ## Slots that are yet to be read -/

/-- The first slot of `l->fired` a dispatch loop at this point has yet to read. -/
def ProcessPc.nextSlot : ProcessPc → Option ℕ
  | .entry j => some j
  | .testRead e | .readReturned e _ | .testWrite e => some (e.j + 1)
  | .start | .polling | .timers | .wheel | .finish => none

/-- A change of `l->fired` that keeps the slots an activation has yet to read. -/
def Frame.KeepsSlots (fired fired' : ℕ → LoopyFiredEvent) : Frame → Prop
  | .process p => ∀ j ∈ p.pc.nextSlot, ∀ i < p.numevents, j ≤ i → fired' i = fired i
  | _ => True

instance (fired fired' : ℕ → LoopyFiredEvent) : (f : Frame) → Decidable (f.KeepsSlots fired fired')
  | .process p => inferInstanceAs
      (Decidable (∀ j ∈ p.pc.nextSlot, ∀ i < p.numevents, j ≤ i → fired' i = fired i))
  | .user _ | .loopyDo _ _ => isTrue trivial

/-- A poll leaves the slots enclosing dispatch loops have yet to read as they are. -/
def KeepsBatches (m : Machine EpollState) (ready : List EpollEvent) : Prop :=
  ∀ s ∈ m.loop.state, ∀ f ∈ m.frames.tail,
    f.KeepsSlots m.loop.fired
      (Machine.writeFired m.loop.fired (loopyInternalPoll ready m.loop.setSize s).1)

instance (m : Machine EpollState) (ready : List EpollEvent) : Decidable (KeepsBatches m ready) :=
  inferInstanceAs (Decidable (∀ s ∈ m.loop.state, ∀ f ∈ m.frames.tail, _))

/-! ## Handling a batch -/

/-- Which direction of which entry a turn was about. -/
def Turn.key (t : Turn) : ℕ × Dir × LoopyFiredEvent := (t.j, t.dir, ⟨t.fd, t.mask⟩)

/-- The turns a batch asks for: each entry in order, its read direction and then its write
direction. -/
def turnKeys (batch : List LoopyFiredEvent) : List (ℕ × Dir × LoopyFiredEvent) :=
  batch.zipIdx.flatMap fun e => [(e.2, .read, e.1), (e.2, .write, e.1)]

/-- A callback was invoked exactly if the direction was reported, and registered when its
turn came. -/
def Turn.Fair (t : Turn) : Prop := t.invoked = (t.registered && t.mask.has t.dir)

/-- The batch was handled as a whole and in order. -/
def Dispatch.Faithful (d : Dispatch) : Prop :=
  d.turns.map Turn.key = turnKeys d.batch ∧ ∀ t ∈ d.turns, t.Fair

/-- The batch was handled in order so far. -/
def Dispatch.InOrder (d : Dispatch) : Prop :=
  d.turns.map Turn.key <+: turnKeys d.batch ∧ ∀ t ∈ d.turns, t.Fair

theorem turnKeys_take_succ {batch : List LoopyFiredEvent} {j : ℕ} {ev : LoopyFiredEvent}
    (hj : batch[j]? = some ev) :
    turnKeys (batch.take (j + 1)) =
      turnKeys (batch.take j) ++ [(j, .read, ev), (j, .write, ev)] := by
  have hlt : j < batch.length := (List.getElem?_eq_some_iff.mp hj).1
  have htake : batch.take (j + 1) = batch.take j ++ [ev] := by
    rw [List.take_add_one, hj]
    rfl
  have hlen : (batch.take j).length = j := by rw [List.length_take]; omega
  simp [turnKeys, htake, List.zipIdx_append, hlen]

theorem turnKeys_prefix_take (batch : List LoopyFiredEvent) (j : ℕ) :
    turnKeys (batch.take j) <+: turnKeys batch := by
  refine ⟨(batch.drop j).zipIdx (batch.take j).length |>.flatMap
    fun e => [(e.2, .read, e.1), (e.2, .write, e.1)], ?_⟩
  have happ : batch.zipIdx = (batch.take j).zipIdx ++
      (batch.drop j).zipIdx (batch.take j).length := by
    conv_lhs => rw [← List.take_append_drop j batch, List.zipIdx_append]
    simp
  rw [turnKeys, turnKeys, happ, List.flatMap_append]

/-! ## The invariant of one activation -/

section

variable {σ : Type}

/-- The entries of a batch from `j` on are in their slots, and all its descriptors in the
tables. -/
structure SlotsOk (l : LoopyLoop σ) (p : Process) (j : ℕ) : Prop where
  numevents : p.numevents = p.dispatch.batch.length
  size : p.dispatch.batch.length ≤ l.setSize
  fds : ∀ ev ∈ p.dispatch.batch, ev.fd < l.setSize
  fired : ∀ i, j ≤ i → i < p.dispatch.batch.length → p.dispatch.batch[i]? = some (l.fired i)

/-- The entry a dispatch loop works on is of its batch. -/
structure EntryOk (l : LoopyLoop σ) (p : Process) (e : Entry) : Prop where
  slots : SlotsOk l p (e.j + 1)
  entry : p.dispatch.batch[e.j]? = some ⟨e.fd, e.mask⟩

/-- The turns dispatched so far, at each point. -/
def Process.handled (p : Process) : List (ℕ × Dir × LoopyFiredEvent) :=
  match p.pc with
  | .start | .polling => []
  | .entry j => turnKeys (p.dispatch.batch.take j)
  | .testRead e => turnKeys (p.dispatch.batch.take e.j)
  | .readReturned e _ | .testWrite e =>
    turnKeys (p.dispatch.batch.take e.j) ++ [(e.j, .read, ⟨e.fd, e.mask⟩)]
  | .timers | .wheel | .finish => turnKeys p.dispatch.batch

/-- What holds at each point of `loopyProcessEvents`; the table pointer of the entry is the
live one, or the one saved in `eventsBefore` while the read callback runs. -/
def ProcessPc.Holds (l : LoopyLoop σ) (p : Process) : ProcessPc → Prop
  | .start | .polling => p.dispatch.batch = []
  | .entry j => SlotsOk l p j
  | .testRead e | .testWrite e => EntryOk l p e ∧ e.fe = l.eventsPtr
  | .readReturned e eventsBefore => EntryOk l p e ∧ e.fe = eventsBefore
  | .timers | .wheel | .finish => True

/-- The invariant of an activation of `loopyProcessEvents`. -/
structure ProcessOk (l : LoopyLoop σ) (p : Process) : Prop where
  turns : p.dispatch.turns.map Turn.key = p.handled
  fair : ∀ t ∈ p.dispatch.turns, t.Fair
  holds : p.pc.Holds l p

variable {l l' : LoopyLoop σ} {p : Process} {j : ℕ} {e : Entry}

theorem SlotsOk.frame (h : SlotsOk l p j) (hsize : l.setSize ≤ l'.setSize)
    (hfired : ∀ i < p.numevents, j ≤ i → l'.fired i = l.fired i) : SlotsOk l' p j where
  numevents := h.numevents
  size := h.size.trans hsize
  fds := fun ev hev => (h.fds ev hev).trans_le hsize
  fired := fun i hi hlt => by
    rw [hfired i (by rw [h.numevents]; exact hlt) hi]
    exact h.fired i hi hlt

/-- An activation is not disturbed by a change of the loop that keeps its slots, and that
moves the tables only while it waits for a callback. -/
theorem ProcessOk.frame (h : ProcessOk l p) (hsize : l.setSize ≤ l'.setSize)
    (hfired : (Frame.process p).KeepsSlots l.fired l'.fired)
    (hptr : p.pc.Suspended ∨ l'.eventsPtr = l.eventsPtr) : ProcessOk l' p := by
  refine ⟨h.turns, h.fair, ?_⟩
  have hholds := h.holds
  have hkeep : ∀ j ∈ p.pc.nextSlot, ∀ i < p.numevents, j ≤ i → l'.fired i = l.fired i := hfired
  generalize p.pc = pc at hholds hkeep hptr ⊢
  cases pc with
  | start | polling | timers | wheel | finish => exact hholds
  | entry j => exact SlotsOk.frame hholds hsize (hkeep j rfl)
  | testRead e | testWrite e =>
    obtain ⟨⟨hslots, hentry⟩, hfe⟩ := hholds
    rcases hptr with hsusp | hptr
    · exact hsusp.elim
    · exact ⟨⟨hslots.frame hsize (hkeep _ rfl), hentry⟩, hfe.trans hptr.symm⟩
  | readReturned e eventsBefore =>
    obtain ⟨⟨hslots, hentry⟩, hfe⟩ := hholds
    exact ⟨⟨hslots.frame hsize (hkeep _ rfl), hentry⟩, hfe⟩

/-- What is dispatched so far is in order. -/
theorem ProcessOk.inOrder (h : ProcessOk l p) : p.dispatch.InOrder := by
  refine ⟨?_, h.fair⟩
  rw [h.turns]
  have hholds := h.holds
  unfold Process.handled
  generalize p.pc = pc at hholds ⊢
  cases pc with
  | start | polling => exact List.nil_prefix
  | entry j => exact turnKeys_prefix_take _ _
  | testRead e => exact turnKeys_prefix_take _ _
  | timers | wheel | finish => exact List.prefix_rfl
  | readReturned e eventsBefore | testWrite e =>
    -- the read turn of the entry is the first of its two turns
    have hsucc := turnKeys_take_succ hholds.1.entry
    refine List.IsPrefix.trans ?_ (turnKeys_prefix_take p.dispatch.batch (e.j + 1))
    rw [hsucc]
    exact ⟨[(e.j, .write, ⟨e.fd, e.mask⟩)], by simp⟩

/-! ## Changes of the loop under the stack -/

theorem keepsSlots_self (f : Frame) (fired : ℕ → LoopyFiredEvent) : f.KeepsSlots fired fired := by
  cases f with
  | process p => exact fun _ _ _ _ _ => rfl
  | _ => trivial

/-- A change of the loop that moves no table. -/
theorem StackSat.frame {fs : List Frame} (h : StackSat (ProcessOk l) fs)
    (hsize : l.setSize = l'.setSize) (hfired : l'.fired = l.fired)
    (hptr : l'.eventsPtr = l.eventsPtr) : StackSat (ProcessOk l') fs := by
  apply h.mono
  intro p hp
  refine hp.frame hsize.le ?_ (Or.inr hptr)
  rw [hfired]
  exact keepsSlots_self _ _

/-- A change of the loop made by user code: the tables may move. -/
theorem StackSat.userFrame {m : Machine σ} (h : StackSat (ProcessOk m.loop) m.frames)
    (hu : m.UserRuns) (hsize : m.loop.setSize ≤ l'.setSize) (hfired : l'.fired = m.loop.fired) :
    StackSat (ProcessOk l') m.frames := by
  apply h.userMono hu
  intro p hp hsusp
  refine hp.frame hsize ?_ (Or.inl hsusp)
  rw [hfired]
  exact keepsSlots_self _ _

/-! ## The steps of one activation -/

namespace ProcessOk

/-- The activation that has begun. -/
theorem new (l : LoopyLoop σ) (flags : LoopyEvents) :
    (Machine.newProcess flags).Sat (ProcessOk l) :=
  ⟨rfl, fun _ ht => absurd ht List.not_mem_nil, rfl⟩

variable {pc returned skipped : ProcessPc} {dir : Dir}

theorem started (h : ProcessOk l p) (hp : p.pc = .start) (hasTimers : Bool)
    (hpc : pc = .polling ∨ pc = .timers) :
    ProcessOk l { p with hasTimers := hasTimers, pc := pc } := by
  have hturns := h.turns
  have hbatch := h.holds
  rw [hp] at hbatch
  have hbatch' : p.dispatch.batch = [] := hbatch
  simp only [Process.handled, hp] at hturns
  rcases hpc with rfl | rfl
  · exact ⟨hturns, h.fair, hbatch'⟩
  · refine ⟨?_, h.fair, trivial⟩
    rw [hturns]
    simp [Process.handled, turnKeys, hbatch']

/-- Fetching the next entry. -/
theorem fetched (h : ProcessOk l p) (hp : p.pc = .entry j) (hj : j < p.numevents) :
    ProcessOk l
      { p with pc := .testRead ⟨j, (l.fired j).fd, (l.fired j).mask, l.eventsPtr⟩ } := by
  have hturns := h.turns
  have hslots := h.holds
  rw [hp] at hslots
  obtain ⟨h1, h2, h3, h4⟩ : SlotsOk l p j := hslots
  simp only [Process.handled, hp] at hturns
  refine ⟨hturns, h.fair, ⟨⟨h1, h2, h3, fun i hi hlt => h4 i (by simp at hi; omega) hlt⟩, ?_⟩, rfl⟩
  exact h4 j le_rfl (by omega)

theorem readReturned {eventsBefore : Option ℕ} (h : ProcessOk l p)
    (hp : p.pc = .readReturned e eventsBefore) :
    ProcessOk l
      { p with
        pc := .testWrite (if l.eventsPtr ≠ eventsBefore then { e with fe := l.eventsPtr } else e) }
          := by
  have hturns := h.turns
  have hholds := h.holds
  rw [hp] at hholds
  obtain ⟨hentry, hfe⟩ : EntryOk l p e ∧ e.fe = eventsBefore := hholds
  simp only [Process.handled, hp] at hturns
  by_cases hmoved : l.eventsPtr = eventsBefore
  · rw [if_neg (not_not.mpr hmoved)]
    exact ⟨hturns, h.fair, ⟨⟨hentry.slots.numevents, hentry.slots.size, hentry.slots.fds,
      hentry.slots.fired⟩, hentry.entry⟩, hfe.trans hmoved.symm⟩
  · rw [if_pos hmoved]
    exact ⟨hturns, h.fair, ⟨⟨hentry.slots.numevents, hentry.slots.size, hentry.slots.fds,
      hentry.slots.fired⟩, hentry.entry⟩, rfl⟩

/-- One direction has had its turn. -/
theorem turned {m : Machine σ} (h : ProcessOk m.loop p)
    (hp : Machine.DirPc m.loop e p.pc dir returned skipped) :
    ProcessOk m.loop (p.turned returned (Machine.turnOf m e dir)) ∧
      ProcessOk m.loop (p.turned skipped (Machine.turnOf m e dir)) ∧ returned.Suspended := by
  have hturns := h.turns
  have hholds := h.holds
  have hfair : ∀ t ∈ p.dispatch.turns ++ [Machine.turnOf m e dir], t.Fair := by
    intro t ht
    rcases List.mem_append.mp ht with ht | ht
    · exact h.fair t ht
    · rw [List.mem_singleton.mp ht]; rfl
  have hkeys : (p.dispatch.turns ++ [Machine.turnOf m e dir]).map Turn.key =
      p.handled ++ [(e.j, dir, ⟨e.fd, e.mask⟩)] := by
    rw [List.map_append, hturns]; rfl
  generalize hpc : p.pc = pc at hp hholds
  unfold Process.handled at hkeys
  cases hp with
  | read =>
    obtain ⟨⟨⟨h1, h2, h3, h4⟩, hentry⟩, hfe⟩ := hholds
    rw [hpc] at hkeys
    exact ⟨⟨hkeys, hfair, ⟨⟨h1, h2, h3, h4⟩, hentry⟩, hfe⟩,
      ⟨hkeys, hfair, ⟨⟨h1, h2, h3, h4⟩, hentry⟩, hfe⟩, trivial⟩
  | write =>
    obtain ⟨⟨⟨h1, h2, h3, h4⟩, hentry⟩, -⟩ := hholds
    rw [hpc] at hkeys
    have hdone : (p.dispatch.turns ++ [Machine.turnOf m e .write]).map Turn.key =
        turnKeys (p.dispatch.batch.take (e.j + 1)) := by
      rw [hkeys, turnKeys_take_succ hentry, List.append_assoc]
      rfl
    exact ⟨⟨hdone, hfair, h1, h2, h3, h4⟩, ⟨hdone, hfair, h1, h2, h3, h4⟩, trivial⟩

/-- The table pointer of the entry at hand is good. -/
theorem readable (h : ProcessOk l p) (hptr : l.eventsPtr.isSome)
    (hp : Machine.DirPc l e p.pc dir returned skipped) : Machine.readable l e := by
  have hholds := h.holds
  generalize p.pc = pc at hp hholds
  have hentry : EntryOk l p e ∧ e.fe = l.eventsPtr := by
    cases hp with
    | read => exact hholds
    | write => exact hholds
  obtain ⟨⟨hslots, hev⟩, hfe⟩ := hentry
  exact ⟨hfe, hptr, hslots.fds _ (List.mem_of_getElem? hev)⟩

theorem faithful (h : ProcessOk l p) (hp : p.pc = .entry j) (hj : p.numevents ≤ j) :
    p.dispatch.Faithful := by
  have hturns := h.turns
  have hslots := h.holds
  rw [hp] at hslots
  obtain ⟨hnum, -, -, -⟩ : SlotsOk l p j := hslots
  simp only [Process.handled, hp] at hturns
  rw [List.take_of_length_le (by omega)] at hturns
  exact ⟨hturns, h.fair⟩

theorem timers (h : ProcessOk l p)
    (hp : (∃ j, p.pc = .entry j ∧ p.numevents ≤ j) ∨ p.pc = .timers ∨ p.pc = .wheel)
    (hpc : pc = .timers ∨ pc = .wheel ∨ pc = .finish) : ProcessOk l { p with pc := pc } := by
  have hturns : p.dispatch.turns.map Turn.key = turnKeys p.dispatch.batch := by
    rcases hp with ⟨j, hp, hj⟩ | hp | hp
    · exact (h.faithful hp hj).1
    · rw [h.turns, Process.handled, hp]
    · rw [h.turns, Process.handled, hp]
  rcases hpc with rfl | rfl | rfl
  · exact ⟨hturns, h.fair, trivial⟩
  · exact ⟨hturns, h.fair, trivial⟩
  · exact ⟨hturns, h.fair, trivial⟩

end ProcessOk

end

/-! ## The machine -/

/-- The invariant: registrations are in order, no dispatch loop has been misled, and nothing
is torn down. -/
structure BatchOk (m : Machine EpollState) : Prop where
  registration : RegistrationInv m.loop
  live : m.loop.eventsPtr.isSome ∧ m.loop.pendingDelete = false ∧ m.freed = false
  stack : StackSat (ProcessOk m.loop) m.frames
  faithful : ∀ d, .dispatched d ∈ m.events → d.Faithful
  noFault : .fault ∉ m.events

/-- The loop is not deleted, and a nested poll leaves the slots that enclosing dispatch loops
have yet to read as they are. -/
def BatchSafe (m : Machine EpollState) : EpollInput → Prop
  | .call .delete _ => False
  | .poll _ ready => KeepsBatches m ready
  | _ => True

instance (m : Machine EpollState) : (i : EpollInput) → Decidable (BatchSafe m i)
  | .call .delete _ => isFalse id
  | .poll _ ready => inferInstanceAs (Decidable (KeepsBatches m ready))
  | .call (.table _) _ | .call .stop _ | .call (.main _) _ | .call (.setBeforeSleepCallback _ _) _
  | .call (.setAfterSleepCallback _ _) _ | .call .registerTimer _
  | .go | .ret | .clock _ | .fire | .wheelDone => isTrue trivial

variable {l : LoopyLoop EpollState}

/-- The activation that polled starts on a batch that is in its slots. -/
theorem ProcessOk.polled (h : RegistrationInv l) {s : EpollState} (hs : l.state = some s)
    (ready : List EpollEvent) (p : Process) (shortest since : ℕ) :
    ProcessOk
      { l with
        state := some (loopyInternalPoll ready l.setSize s).2
        fired := Machine.writeFired l.fired (loopyInternalPoll ready l.setSize s).1 }
      (p.polled shortest since (loopyInternalPoll ready l.setSize s).1) where
  turns := by simp [Process.polled, Process.handled, turnKeys]
  fair := fun t ht => absurd ht List.not_mem_nil
  holds := by
    refine ⟨rfl, ?_, fun ev hev => ?_, fun i _ hi => ?_⟩
    · show (loopyInternalPoll ready l.setSize s).1.length ≤ l.setSize
      simp only [loopyInternalPoll, List.length_map]
      exact epollWait_length s l.setSize ready
    · obtain ⟨s', hs', hint⟩ := h.kernel
      obtain rfl := Option.some.inj (hs.symm.trans hs')
      exact h.table.lt_setSize (poll_registered hint hev)
    · show _ = some ((loopyInternalPoll ready l.setSize s).1[i]?.getD (l.fired i))
      have hi' : i < (loopyInternalPoll ready l.setSize s).1.length := hi
      rw [List.getElem?_eq_getElem hi']
      exact List.getElem?_eq_getElem hi'

/-- A table call keeps the fired slots, and grows the tables at most. -/
theorem effect_frame {env : Env Bool} {l' : LoopyLoop EpollState} {c : TableCall} {b : Bool}
    (h : TableInv l) (he : TableEffect epollAdapter env l c b l') :
    l.setSize ≤ l'.setSize ∧ l'.fired = l.fired ∧ (l.eventsPtr.isSome → l'.eventsPtr.isSome) ∧
      l'.pendingDelete = l.pendingDelete := by
  have hgrown : ∀ l₁, Grown epollAdapter env.addr l l₁ → l.setSize ≤ l₁.setSize ∧
      l₁.fired = l.fired ∧ (l.eventsPtr.isSome → l₁.eventsPtr.isSome) ∧
      l₁.pendingDelete = l.pendingDelete := by
    intro l₁ hg
    refine ⟨hg.setSize_le, ?_⟩
    rcases hg with rfl | ⟨n, -, -, rfl⟩
    · exact ⟨rfl, id, rfl⟩
    · rw [h.growTo_eq]
      exact ⟨rfl, fun _ => rfl, rfl⟩
  cases he with
  | register hc hr hg _ hi hs _ hok =>
    obtain ⟨h1, h2, h3, h4⟩ := hgrown _ hg
    exact ⟨h1, h2, h3, h4⟩
  | refuse hc hr hg hi hs hok =>
    obtain ⟨h1, h2, h3, h4⟩ := hgrown _ hg
    exact ⟨h1, h2, h3, h4⟩
  | taken hc hg => exact hgrown _ hg
  | unregister hc hi hmask hs => rw [unregistered_frame]; exact ⟨le_rfl, rfl, id, rfl⟩
  | absent hc hmask => exact ⟨le_rfl, rfl, id, rfl⟩
  | resize hg => exact hgrown _ hg

variable {m m' : Machine EpollState}

/-- The events of a step are harmless when it adds none, or one that is no fault and reports
no unfaithful dispatch. -/
theorem BatchOk.next (h : BatchOk m) (hreg : RegistrationInv m'.loop)
    (hlive : m'.loop.eventsPtr.isSome ∧ m'.loop.pendingDelete = false ∧ m'.freed = false)
    (hstack : StackSat (ProcessOk m'.loop) m'.frames)
    (hnew : m'.events = m.events ∨ ∃ e, m'.events = e :: m.events ∧ e ≠ .fault ∧
      ∀ d, e = .dispatched d → d.Faithful) :
    BatchOk m' := by
  rcases hnew with heq | ⟨e, heq, hne, hd⟩
  · exact ⟨hreg, hlive, hstack, heq ▸ h.faithful, heq ▸ h.noFault⟩
  · refine ⟨hreg, hlive, hstack, fun d hin => ?_, fun hin => ?_⟩
    · rw [heq] at hin
      rcases List.mem_cons.mp hin with he | hin
      · exact hd d he.symm
      · exact h.faithful d hin
    · rw [heq] at hin
      rcases List.mem_cons.mp hin with he | hin
      · exact hne he.symm
      · exact h.noFault hin

/-- A step that changes the stack only. -/
theorem BatchOk.stackStep (h : BatchOk m) (hloop : m'.loop = m.loop) (hfreed : m'.freed = m.freed)
    (hstack : StackSat (ProcessOk m.loop) m'.frames)
    (hnew : m'.events = m.events ∨ ∃ e, m'.events = e :: m.events ∧ e ≠ .fault ∧
      ∀ d, e = .dispatched d → d.Faithful) :
    BatchOk m' := by
  refine h.next ?_ ?_ ?_ hnew
  · rw [hloop]; exact h.registration
  · rw [hloop, hfreed]; exact h.live
  · rw [hloop]; exact hstack

open Machine in
theorem BatchOk.step {i : EpollInput} (h : BatchOk m) (hok : BatchSafe m i)
    (hstep : epollStep m i = some m') : BatchOk m' := by
  have hptr := h.live.1
  -- the stack of a machine whose innermost activation is known
  have hstack : ∀ {f fs}, m.frames = f :: fs → StackSat (ProcessOk m.loop) (f :: fs) := by
    intro f fs hf
    rw [← hf]
    exact h.stack
  cases step_inv hstep with
  | table hu heff =>
    obtain ⟨hsize, hfired, hptr', hpend⟩ := effect_frame h.registration.table heff
    refine h.next (h.registration.effect heff) ⟨hptr' hptr, hpend.trans h.live.2.1, h.live.2.2⟩
      (h.stack.userFrame hu hsize hfired) (Or.inr ⟨_, rfl, nofun, nofun⟩)
  | control hu hc _ hl =>
    obtain ⟨stop, before, after, timer, -, rfl⟩ := hl
    exact h.next (h.registration.congr rfl) h.live (h.stack.frame rfl rfl rfl)
      (Or.inr ⟨_, rfl, nofun, nofun⟩)
  | deleteNone | deletePending | deleteNow => exact absurd hok id
  | main hu =>
    exact h.stackStep rfl rfl ⟨trivial, h.stack.waits hu⟩ (Or.inr ⟨_, rfl, nofun, nofun⟩)
  | ret hf =>
    exact h.stackStep rfl rfl (hstack hf).tail (Or.inl rfl)
  | @enter flags fs hf =>
    have hs : StackSat (ProcessOk m.loop) (.loopyDo flags .top :: fs) := ⟨trivial, (hstack hf).2⟩
    exact h.next (h.registration.congr rfl) h.live (hs.frame rfl rfl rfl) (Or.inl rfl)
  | jump hf hj => exact h.stackStep rfl rfl ⟨trivial, (hstack hf).2⟩ (Or.inl rfl)
  | beforeSleep hf hs | afterSleep hf hs =>
    exact h.stackStep rfl rfl
      ⟨trivial, List.forall_mem_cons.mpr ⟨trivial, (hstack hf).2⟩⟩ (Or.inr ⟨_, rfl, nofun, nofun⟩)
  | process hf hpc hs =>
    exact h.stackStep rfl rfl
      ⟨.new _ _, List.forall_mem_cons.mpr ⟨trivial, (hstack hf).2⟩⟩ (Or.inl rfl)
  | exit hf hp =>
    exact h.stackStep rfl rfl (hstack hf).tail (Or.inl rfl)
  | exitDelete hf hp =>
    rw [h.live.2.1] at hp
    cases hp
  | @started p fs hasTimers pc hf hp hpc =>
    obtain ⟨hproc, hwait⟩ := hstack hf
    have hs : StackSat (ProcessOk m.loop)
        (.process { p with hasTimers := hasTimers, pc := pc } :: fs) :=
      ⟨ProcessOk.started hproc hp hasTimers hpc, hwait⟩
    exact h.next (h.registration.congr rfl) h.live (hs.frame rfl rfl rfl) (Or.inl rfl)
  | @polled p fs shortest shortest' answer s hf hp hs =>
    refine h.next (h.registration.polled hs answer) h.live ?_ (Or.inr ⟨_, rfl, nofun, nofun⟩)
    refine ⟨ProcessOk.polled h.registration hs answer p shortest' _, fun g hg => ?_⟩
    apply ((hstack hf).2 g hg).mono
    rintro q rfl hq hsusp
    exact hq.frame le_rfl (hok s hs (.process q) (by rw [hf]; exact hg)) (Or.inl hsusp)
  | pollFault hf hp hs =>
    obtain ⟨s, hs', -⟩ := h.registration.kernel
    rw [hs] at hs'
    cases hs'
  | fetch hf hp hj hptr =>
    exact h.stackStep rfl rfl ⟨ProcessOk.fetched (hstack hf).1 hp hj, (hstack hf).2⟩ (Or.inl rfl)
  | @fetchFault p fs j hf hp hj hbad =>
    obtain ⟨hproc, -⟩ := hstack hf
    have hslots := ProcessOk.holds hproc
    rw [hp] at hslots
    obtain ⟨hnum, hsize, -, -⟩ : SlotsOk m.loop p j := hslots
    rcases hbad with hnone | hge
    · rw [hnone] at hptr; cases hptr
    · omega
  | dispatched hf hp hj =>
    obtain ⟨hproc, hwait⟩ := hstack hf
    refine h.stackStep rfl rfl
      ⟨ProcessOk.timers hproc (Or.inl ⟨_, hp, hj⟩) (Or.inl rfl), hwait⟩
      (Or.inr ⟨_, rfl, nofun, ?_⟩)
    rintro d ⟨⟩
    exact ProcessOk.faithful hproc hp hj
  | dirFault hf hp hbad => exact absurd (ProcessOk.readable (hstack hf).1 hptr hp) hbad
  | dirInvoked hf hp hr hi =>
    obtain ⟨hproc, hwait⟩ := hstack hf
    obtain ⟨hreturned, -, hsusp⟩ := ProcessOk.turned hproc hp
    exact h.stackStep rfl rfl ⟨trivial, List.forall_mem_cons.mpr ⟨⟨hreturned, hsusp⟩, hwait⟩⟩
      (Or.inr ⟨_, rfl, nofun, nofun⟩)
  | dirSkipped hf hp hr hi =>
    obtain ⟨hproc, hwait⟩ := hstack hf
    exact h.stackStep rfl rfl ⟨(ProcessOk.turned hproc hp).2.1, hwait⟩ (Or.inl rfl)
  | readReturned hf hp =>
    exact h.stackStep rfl rfl ⟨ProcessOk.readReturned (hstack hf).1 hp, (hstack hf).2⟩ (Or.inl rfl)
  | timers hf hp hpc =>
    exact h.stackStep rfl rfl
      ⟨ProcessOk.timers (hstack hf).1 (Or.inr hp) (Or.inr hpc), (hstack hf).2⟩ (Or.inl rfl)
  | fire hf hp =>
    refine h.stackStep rfl rfl
      ⟨trivial, List.forall_mem_cons.mpr ⟨⟨(hstack hf).1, ?_⟩, (hstack hf).2⟩⟩
      (Or.inr ⟨_, rfl, nofun, nofun⟩)
    rw [hp]
    trivial
  | leave hf hp =>
    exact h.next (h.registration.congr rfl) h.live ((hstack hf).tail.frame rfl rfl rfl)
      (Or.inl rfl)
  | freed hfreed =>
    rw [h.live.2.2] at hfreed
    cases hfreed

theorem BatchOk.start {n : ℕ} (hn : 1 ≤ n) (hn31 : n < 2 ^ 31) (addr : ℕ) (allocated : Bool) :
    BatchOk (epollStart n addr allocated) where
  registration := (RegistrationInv.fresh hn hn31 addr).congr rfl
  live := ⟨rfl, rfl, rfl⟩
  stack := trivial
  faithful := fun _ hd => absurd hd List.not_mem_nil
  noFault := List.not_mem_nil

/-- **A poll batch survives re-entrancy.** In every run without deletion in which nested
polls leave the slots of enclosing dispatch loops alone, every dispatch loop that has ended
handled its own batch as a whole and in order, those still running have handled theirs in
order so far, and nothing was read through a stale or missing table. -/
theorem batch_survives_reentrancy (n : ℕ) (hn : 1 ≤ n) (hn31 : n < 2 ^ 31) (addr : ℕ)
    (allocated : Bool) (is : List EpollInput) (m : Machine EpollState)
    (hrun : Run epollStep BatchSafe (epollStart n addr allocated) is m) :
    (∀ d, .dispatched d ∈ m.events → d.Faithful) ∧
      (∀ p, .process p ∈ m.frames → p.dispatch.InOrder) ∧ .fault ∉ m.events := by
  have hinv : BatchOk m := hrun.invariant (fun m i m' h hok hstep => h.step hok hstep)
    (.start hn hn31 addr allocated)
  exact ⟨hinv.faithful, fun p hp => ProcessOk.inOrder (hinv.stack.sat hp), hinv.noFault⟩

/-- Descriptors 3 and 4 are readable; the callback of the first runs the loop again, in which
`nested` is reported and handled by `inner`, and returns. -/
def nestedRun (nested : List EpollEvent) (inner : List EpollInput) : List EpollInput :=
  [.call (.table (.registerRead 3 5 9)) ⟨2, true⟩, .call (.table (.registerRead 4 6 8)) ⟨2, true⟩,
    .call (.main .ALL) ⟨2, true⟩, .go, .go, .go,
    .poll 0 [(3, EPOLLIN), (4, EPOLLIN)], .go, .go,
    -- inside the callback of descriptor 3
    .call (.main .ALL) ⟨2, true⟩, .go, .go, .go, .poll 0 nested] ++ inner ++
  [.go, .clock 0, .go, .go, .go, .go, .ret,
    -- back in the outer dispatch loop
    .go, .go, .go, .go, .ret, .go, .go, .go]

/-- The nested poll reports one descriptor, whose callback stops the nested loop: the second
slot is left alone. -/
def oneNested : List EpollInput :=
  nestedRun [(4, EPOLLIN)] [.go, .go, .call .stop ⟨2, true⟩, .ret, .go, .go]

theorem batch_survives_one_nested :
    ∃ m d, Run epollStep BatchSafe (epollStart 16 1 false) oneNested m ∧
      .dispatched d ∈ m.events ∧ d.batch = [⟨3, .READ⟩, ⟨4, .READ⟩] ∧ d.Faithful := by
  have hexec : ∃ d : Dispatch, d.batch = [⟨3, .READ⟩, ⟨4, .READ⟩] ∧
      (exec epollStep BatchSafe (epollStart 16 1 false) oneNested).map (fun m => m.events.head?) =
        some (some (.dispatched d)) :=
    ⟨⟨[⟨3, .READ⟩, ⟨4, .READ⟩], 4, [⟨0, .read, 3, .READ, 4, true, true⟩,
      ⟨0, .write, 3, .READ, 10, false, false⟩, ⟨1, .read, 4, .READ, 10, true, true⟩,
      ⟨1, .write, 4, .READ, 11, false, false⟩]⟩, rfl, by decide +kernel⟩
  obtain ⟨d, hbatch, hexec⟩ := hexec
  obtain ⟨m, hrun, hhead⟩ := Run.of_exec_map hexec
  have hin := List.mem_of_head? hhead
  exact ⟨m, d, hrun, hin, hbatch,
    (batch_survives_reentrancy 16 (by decide) (by decide) 1 false _ _ hrun).1 d hin⟩

/-- The nested poll reports both descriptors, in the other order: the second slot, which held
descriptor 4, holds descriptor 3 when the outer loop reads it. -/
def twoNested : List EpollInput :=
  nestedRun [(4, EPOLLIN), (3, EPOLLIN)]
    [.go, .go, .call .stop ⟨2, true⟩, .ret, .go, .go, .go, .go, .ret, .go, .go]

/-- The outer dispatch loop takes an entry of the nested batch for one of its own. -/
theorem batch_overwritten :
    ¬ ∀ is m, (∀ c env, .call c env ∈ is → c ≠ .delete) →
      Run epollStep (fun _ _ => True) (epollStart 16 1 false) is m →
      ∀ d, .dispatched d ∈ m.events → d.Faithful := by
  intro hall
  have hnodelete : ∀ c env, .call c env ∈ twoNested → c ≠ .delete := by
    rintro c env hin rfl
    simp [twoNested, nestedRun] at hin
  have hexec : (exec epollStep (fun _ _ => True) (epollStart 16 1 false) twoNested).map
      (fun m => m.events.head?) = some (some (.dispatched
        ⟨[⟨3, .READ⟩, ⟨4, .READ⟩], 4, [⟨0, .read, 3, .READ, 4, true, true⟩,
          ⟨0, .write, 3, .READ, 11, false, false⟩, ⟨1, .read, 3, .READ, 11, true, true⟩,
          ⟨1, .write, 3, .READ, 12, false, false⟩]⟩)) := by decide +kernel
  obtain ⟨m, hm, hhead⟩ := Run.of_exec_map hexec
  have hfaithful := hall _ _ hnodelete hm _ (List.mem_of_head? hhead)
  exact absurd hfaithful.1 (by decide)

end Loopy.EventLoop
