import Loopy.EventLoop.Descriptors
import Loopy.Select.Adapter

/-!
# The bounds of the select adapter

No registration is refused, so whether the sets stay sets is up to the caller: every index is below
`FD_SETSIZE`, and the sets hold the registered directions, exactly if every call that registers names
a descriptor below `FD_SETSIZE`.
-/

namespace Loopy.Select

open Loopy.EventLoop Loopy.Lib

variable {FD_SETSIZE : ℕ}

/-! ## The law -/

/-- The set of a direction. -/
def FdSet.of : Dir → FdSet
  | .read => .rfds
  | .write => .wfds

variable (FD_SETSIZE) in
/-- Indices are below `FD_SETSIZE`; a registration beyond it was refused and left the tables alone;
the bits of the sets are the registered directions. -/
structure SelectLaw (m : System) : Prop where
  indices : ∀ s, m.loop.state = some s → ∀ fd ∈ s.indices, fd < FD_SETSIZE
  refused : ∀ c ∈ m.calls, ∀ r, c.call.registration = some r → FD_SETSIZE ≤ r.fd →
    c.result = false ∧ c.after.events = c.before.events ∧ c.after.fdHeap = c.before.fdHeap ∧
      c.after.maxfd = c.before.maxfd
  bits : ∀ s, m.loop.state = some s → ∀ dir fd,
    (m.loop.events fd).mask.has dir = (decide (fd < FD_SETSIZE) && s.bit FD_SETSIZE (.of dir) fd)

variable (FD_SETSIZE) in
/-- A call registers no descriptor beyond `FD_SETSIZE`. -/
def Fits (c : TableCall) : Prop := ∀ r, c.registration = some r → r.fd < FD_SETSIZE

/-! ## The sets -/

variable {fd fd' : ℕ}

/-- Sets do not overlap. -/
theorem offset_inj {set set' : FdSet} (hfd : fd < FD_SETSIZE) (hfd' : fd' < FD_SETSIZE) :
    set.offset FD_SETSIZE + fd = set'.offset FD_SETSIZE + fd' ↔ set = set' ∧ fd = fd' := by
  cases set <;> cases set' <;> simp only [FdSet.offset, true_and, reduceCtorEq, false_and,
    iff_false] <;> omega

@[simp] theorem write_indices (s : SelectState) (fd : ℕ) (set : FdSet) (on : Bool) :
    (s.write FD_SETSIZE fd set on).indices = fd :: s.indices := rfl

theorem write_bit (s : SelectState) (hfd : fd < FD_SETSIZE) (hfd' : fd' < FD_SETSIZE)
    (set set' : FdSet) (on : Bool) :
    (s.write FD_SETSIZE fd set on).bit FD_SETSIZE set' fd' =
      if set' = set ∧ fd' = fd then on else s.bit FD_SETSIZE set' fd' := by
  simp only [SelectState.bit, SelectState.write, Function.update_apply, offset_inj hfd' hfd]

/-- A write under a condition. -/
theorem write_if_bit (s : SelectState) (cond : Bool) (hfd : fd < FD_SETSIZE)
    (hfd' : fd' < FD_SETSIZE) (set set' : FdSet) (on : Bool) :
    (if cond then s.write FD_SETSIZE fd set on else s).bit FD_SETSIZE set' fd' =
      if cond ∧ set' = set ∧ fd' = fd then on else s.bit FD_SETSIZE set' fd' := by
  cases cond
  · simp
  · simp only [if_true, true_and]
    exact write_bit s hfd hfd' set set' on

/-- Registering sets the bits of the registered directions. -/
theorem addEvent_bit (s : SelectState) (hfd : fd < FD_SETSIZE) (hfd' : fd' < FD_SETSIZE)
    (mask : LoopyAction) (dir : Dir) :
    (loopyInternalAddEvent FD_SETSIZE s fd mask).2.bit FD_SETSIZE (.of dir) fd' =
      (s.bit FD_SETSIZE (.of dir) fd' || (decide (fd' = fd) && mask.has dir)) := by
  simp only [loopyInternalAddEvent, FD_SET, write_if_bit _ _ hfd hfd']
  obtain ⟨read, write⟩ := mask
  by_cases heq : fd' = fd
  · cases dir <;> cases read <;> cases write <;> simp [heq, FdSet.of, LoopyAction.has]
  · simp [heq]

/-- Unregistering clears the bits of the unregistered directions. -/
theorem delEvent_bit (s : SelectState) (hfd : fd < FD_SETSIZE) (hfd' : fd' < FD_SETSIZE)
    (mask : LoopyAction) (dir : Dir) :
    (loopyInternalDelEvent FD_SETSIZE s fd mask).bit FD_SETSIZE (.of dir) fd' =
      (s.bit FD_SETSIZE (.of dir) fd' && !(decide (fd' = fd) && mask.has dir)) := by
  simp only [loopyInternalDelEvent, FD_CLR, write_if_bit _ _ hfd hfd']
  obtain ⟨read, write⟩ := mask
  by_cases heq : fd' = fd
  · cases dir <;> cases read <;> cases write <;> simp [heq, FdSet.of, LoopyAction.has]
  · simp [heq]

variable (FD_SETSIZE) in
theorem addEvent_indices (s : SelectState) (fd : ℕ) {mask : LoopyAction} (hmask : mask ≠ .NONE) :
    (loopyInternalAddEvent FD_SETSIZE s fd mask).2.indices ⊆ fd :: s.indices ∧
      fd :: s.indices ⊆ (loopyInternalAddEvent FD_SETSIZE s fd mask).2.indices := by
  obtain ⟨read, write⟩ := mask
  cases read <;> cases write
  · exact absurd rfl hmask
  all_goals simp [loopyInternalAddEvent, FD_SET]

variable (FD_SETSIZE) in
theorem delEvent_indices (s : SelectState) (fd : ℕ) (mask : LoopyAction) :
    (loopyInternalDelEvent FD_SETSIZE s fd mask).indices ⊆ fd :: s.indices ∧
      s.indices ⊆ (loopyInternalDelEvent FD_SETSIZE s fd mask).indices := by
  obtain ⟨read, write⟩ := mask
  cases read <;> cases write <;> simp [loopyInternalDelEvent, FD_CLR]

/-! ## The poll -/

variable (FD_SETSIZE) in
/-- What a poll leaves: the sets as they were, and as new indices those of registered descriptors. -/
structure Polled (events : ℕ → LoopyFileEvent) (s s' : SelectState) : Prop where
  bits : ∀ dir, ∀ fd < FD_SETSIZE, s'.bit FD_SETSIZE (.of dir) fd = s.bit FD_SETSIZE (.of dir) fd
  kept : s.indices ⊆ s'.indices
  fresh : ∀ fd ∈ s'.indices, fd ∈ s.indices ∨ (events fd).mask ≠ .NONE

section

variable {events : ℕ → LoopyFileEvent} {s s' s'' : SelectState}

theorem Polled.refl (events : ℕ → LoopyFileEvent) (s : SelectState) : Polled FD_SETSIZE events s s :=
  ⟨fun _ _ _ => rfl, fun _ h => h, fun _ => .inl⟩

theorem Polled.trans (h : Polled FD_SETSIZE events s s') (h' : Polled FD_SETSIZE events s' s'') :
    Polled FD_SETSIZE events s s'' where
  bits dir fd hfd := (h'.bits dir fd hfd).trans (h.bits dir fd hfd)
  kept := fun _ hfd => h'.kept (h.kept hfd)
  fresh fd hfd := by
    rcases h'.fresh fd hfd with hold | hmask
    · exact h.fresh fd hold
    · exact .inr hmask

/-- Memory behind the first two sets is not theirs. -/
theorem Polled.memory {memory : ℕ → Bool} (h : ∀ a < 2 * FD_SETSIZE, memory a = s.memory a) :
    Polled FD_SETSIZE events s { s with memory := memory } := by
  refine ⟨fun dir fd hfd => h _ ?_, fun _ h => h, fun _ => .inl⟩
  cases dir <;> simp only [FdSet.of, FdSet.offset] <;> omega

theorem Polled.memcpy {dst src : FdSet} (hdst : dst = .rfdsCopy ∨ dst = .wfdsCopy) :
    Polled FD_SETSIZE events s (Select.memcpy FD_SETSIZE dst src s) := by
  have hstart : 2 * FD_SETSIZE ≤ dst.offset FD_SETSIZE := by
    rcases hdst with rfl | rfl <;> simp only [FdSet.offset] <;> omega
  exact .memory fun a ha => if_neg (by omega)

theorem Polled.select (nfds : ℕ) (ready : ℕ → LoopyAction) :
    Polled FD_SETSIZE events s (Select.select FD_SETSIZE nfds ready s) := by
  refine .memory fun a ha => (if_neg ?_).trans (if_neg ?_)
  · simp only [FdSet.offset]
    omega
  · simp only [FdSet.offset]
    omega

/-- `FD_ISSET` of a registered descriptor, where its direction is registered. -/
theorem Polled.isset {fd : ℕ} (hmask : (events fd).mask ≠ .NONE) (cond : Bool) (set : FdSet) :
    Polled FD_SETSIZE events s
      (if cond then FD_ISSET FD_SETSIZE fd set s else (false, s)).2 := by
  cases cond
  · exact .refl events s
  · refine ⟨fun _ _ _ => rfl, List.subset_cons_self fd s.indices, fun fd' hfd' => ?_⟩
    rcases List.mem_cons.mp hfd' with rfl | hold
    · exact .inr hmask
    · exact .inl hold

theorem Polled.collect (js : List ℕ) :
    Polled FD_SETSIZE events s (Select.collect FD_SETSIZE events js s).2 := by
  induction js generalizing s with
  | nil => exact .refl events s
  | cons j js ih =>
    rw [Select.collect]
    dsimp only
    split
    case isTrue => exact ih
    case isFalse hmask => exact ((Polled.isset hmask _ _).trans (.isset hmask _ _)).trans ih

variable (FD_SETSIZE events s) in
theorem Polled.poll (answer : Option (ℕ → LoopyAction)) (maxfd : ℤ) :
    Polled FD_SETSIZE events s (loopyInternalPoll FD_SETSIZE answer events maxfd s).2 := by
  have hcopied : Polled FD_SETSIZE events s
      (Select.memcpy FD_SETSIZE .wfdsCopy .wfds (Select.memcpy FD_SETSIZE .rfdsCopy .rfds s)) :=
    (Polled.memcpy (.inl rfl)).trans (.memcpy (.inr rfl))
  cases answer with
  | none => exact hcopied
  | some ready => exact (hcopied.trans (.select _ ready)).trans (.collect _)

end

/-! ## The calls -/

variable (FD_SETSIZE) in
/-- Everything a table call on the select adapter does to its state and to the table. -/
inductive CallEffect (l : LoopyLoop SelectState) (s : SelectState) :
    TableCall → Bool → LoopyLoop SelectState → Prop
  | registered {c : TableCall} {r : Registration} {l' : LoopyLoop SelectState} {i : ℕ}
      (hc : c.registration = some r) (hr : r.fd = i)
      (hs : l'.state = some (loopyInternalAddEvent FD_SETSIZE s i r.mask).2)
      (hevents : l'.events =
        Function.update l.events i ((l.events i).register r.mask r.cb r.clientData)) :
      CallEffect l s c true l'
  | taken {c : TableCall} {r : Registration} {l' : LoopyLoop SelectState} {i : ℕ}
      (hc : c.registration = some r) (hr : r.fd = i) (hmask : (l.events i).mask ≠ .NONE)
      (hs : l'.state = some s) (hevents : l'.events = l.events) : CallEffect l s c false l'
  | unregistered {c : TableCall} {l' : LoopyLoop SelectState} {i : ℕ} {mask : LoopyAction}
      (hc : c.registration = none) (hmask : (l.events i).mask ≠ .NONE)
      (hs : l'.state = some (loopyInternalDelEvent FD_SETSIZE s i mask))
      (hevents : l'.events =
        Function.update l.events i { l.events i with mask := (l.events i).mask.diff mask }) :
      CallEffect l s c true l'
  | none {c : TableCall} {l' : LoopyLoop SelectState} (hc : c.registration = none)
      (hs : l'.state = some s) (hevents : l'.events = l.events) : CallEffect l s c true l'

section

variable {l l' : LoopyLoop SelectState} {s : SelectState} {env : Env Unit} {c : TableCall} {b : Bool}

/-- Growing keeps table and state. -/
theorem grown_same (hl : Live l) {addr : ℕ} (hg : Grown (selectAdapter FD_SETSIZE) addr l l') :
    l'.events = l.events ∧ l'.state = l.state := by
  rcases hg with rfl | ⟨n, hn, hn31, rfl⟩
  · exact ⟨rfl, rfl⟩
  · refine ⟨?_, ?_⟩
    · funext i
      simp only [LoopyLoop.growTo]
      split
      case isTrue hi => exact (hl.tables.beyond i hi.1).symm
      case isFalse => rfl
    · have hresize : ∀ s, (loopyInternalResize FD_SETSIZE s n).2 = s := fun s => by
        unfold loopyInternalResize
        split <;> rfl
      cases hs : l.state <;> simp [LoopyLoop.growTo, hs, selectAdapter, hresize]

/-- A registering call that returned false found its descriptor registered. -/
theorem taken_mask {r : Registration} (hl : Live l) (hc : c.registration = some r)
    (h : c.perform (selectAdapter FD_SETSIZE) env l = some (false, l')) :
    ∃ i : ℕ, r.fd = i ∧ (l.events i).mask ≠ .NONE := by
  have haccepts : ∀ l₀ fd mask cb clientData,
      loopyNewFileEvent (selectAdapter FD_SETSIZE) env l₀ fd mask cb clientData ≠ some (false, l') := by
    intro l₀ fd mask cb clientData h
    obtain ⟨l₁, -, h⟩ := Option.bind_eq_some_iff.mp h
    obtain ⟨i, -, h⟩ := Option.bind_eq_some_iff.mp h
    obtain ⟨s, -, h⟩ := Option.bind_eq_some_iff.mp h
    cases h
  cases c with
  | registerRead fd cb clientData => exact absurd h (haccepts _ _ _ _ _)
  | registerWrite fd cb clientData => exact absurd h (haccepts _ _ _ _ _)
  | registerWriteIfNoneExists fd cb clientData =>
    cases hc
    obtain ⟨l₁, hconf, h⟩ := Option.bind_eq_some_iff.mp h
    obtain ⟨i, hidx, h⟩ := Option.bind_eq_some_iff.mp h
    by_cases hwrite : (l₁.events i).mask.write = true
    · refine ⟨i, (tableIndex_inv hidx).1, ?_⟩
      rw [← (grown_same hl (fdConformStorageBounds_inv hconf).1).1]
      exact ne_none_of_has .write hwrite
    · rw [if_neg hwrite] at h
      exact absurd h (haccepts _ _ _ _ _)
  | _ => cases hc

theorem call_effect (hl : Live l) (hs : l.state = some s)
    (h : c.perform (selectAdapter FD_SETSIZE) env l = some (b, l')) :
    CallEffect FD_SETSIZE l s c b l' := by
  cases perform_inv h with
  | @register _ r l₁ s₁ i hc hr hg _ _ hs₁ _ _ =>
    obtain ⟨hevents, hstate⟩ := grown_same hl hg
    obtain rfl := Option.some.inj (hs₁.symm.trans (hstate.trans hs))
    refine .registered hc hr rfl ?_
    rw [registered_events, hevents]
  | refuse _ _ _ _ _ hok => cases hok
  | @taken _ r _ hc hg =>
    obtain ⟨hevents, hstate⟩ := grown_same hl hg
    obtain ⟨i, hi, hmask⟩ := taken_mask hl hc h
    exact .taken hc hi hmask (hstate.trans hs) hevents
  | @unregister _ s₁ i mask hc _ hmask hs₁ =>
    obtain rfl := Option.some.inj (hs.symm.trans hs₁)
    refine .unregistered ?_ hmask (unregistered_state _ _ _ _)
      (unregistered_events _ _ _ _)
    cases c <;> first | rfl | cases hc
  | absent hc =>
    refine .none ?_ hs rfl
    cases c <;> first | rfl | cases hc
  | resize hg =>
    obtain ⟨hevents, hstate⟩ := grown_same hl hg
    exact .none rfl (hstate.trans hs) hevents

end

/-! ## What every operation keeps -/

/-- Every descriptor that is registered, or was in a registering call, is among the indices. -/
structure Logged (events : ℕ → LoopyFileEvent) (calls : List Made) (s : SelectState) : Prop where
  masks : ∀ fd, (events fd).mask ≠ .NONE → fd ∈ s.indices
  calls : ∀ c ∈ calls, ∀ r, c.call.registration = some r → ∃ i : ℕ, r.fd = i ∧ i ∈ s.indices

variable (FD_SETSIZE) in
/-- The indices are in bounds and the bits are the registered directions. -/
structure Kept (events : ℕ → LoopyFileEvent) (s : SelectState) : Prop where
  indices : ∀ fd ∈ s.indices, fd < FD_SETSIZE
  bits : ∀ dir fd,
    (events fd).mask.has dir = (decide (fd < FD_SETSIZE) && s.bit FD_SETSIZE (.of dir) fd)

variable (FD_SETSIZE) in
/-- What holds between operations. -/
structure SelectInv (m : System) (s : SelectState) : Prop where
  live : Live m.loop
  state : m.loop.state = some s
  logged : Logged m.loop.events m.calls s
  kept : (∀ c ∈ m.calls, Fits FD_SETSIZE c.call) → Kept FD_SETSIZE m.loop.events s

section

variable {events : ℕ → LoopyFileEvent} {calls : List Made} {s s' : SelectState} {m m' : System}

theorem Logged.mono (h : Logged events calls s) (hindices : s.indices ⊆ s'.indices) (fd : ℕ)
    {events' : ℕ → LoopyFileEvent} {fe : LoopyFileEvent}
    (hevents : events' = Function.update events fd fe) (hfd : fe.mask ≠ .NONE → fd ∈ s'.indices)
    {made : Made} (hmade : ∀ r, made.call.registration = some r → ∃ i : ℕ, r.fd = i ∧ i ∈ s'.indices) :
    Logged events' (made :: calls) s' := by
  subst hevents
  refine ⟨fun fd' hmask => ?_, fun c hc r hr => ?_⟩
  · by_cases heq : fd' = fd
    · subst heq
      rw [Function.update_self] at hmask
      exact hfd hmask
    · rw [Function.update_of_ne heq] at hmask
      exact hindices (h.masks fd' hmask)
  · rcases List.mem_cons.mp hc with rfl | hold
    · exact hmade r hr
    · obtain ⟨i, hi, hin⟩ := h.calls c hold r hr
      exact ⟨i, hi, hindices hin⟩

variable {fd : ℕ}

/-- A registered descriptor is in bounds. -/
theorem Kept.lt (h : Kept FD_SETSIZE events s) (hmask : (events fd).mask ≠ .NONE) :
    fd < FD_SETSIZE := by
  by_contra hge
  have hnone : ∀ dir, (events fd).mask.has dir = false := fun dir => by
    rw [h.bits dir fd, decide_eq_false hge, Bool.false_and]
  exact hmask (LoopyAction.eq_none_iff.mpr ⟨hnone .read, hnone .write⟩)

/-- The change of one descriptor below `FD_SETSIZE`. -/
theorem Kept.update (h : Kept FD_SETSIZE events s) (hfd : fd < FD_SETSIZE) {fe : LoopyFileEvent}
    (hindices : s'.indices ⊆ fd :: s.indices)
    (hself : ∀ dir, s'.bit FD_SETSIZE (.of dir) fd = fe.mask.has dir)
    (hother : ∀ dir, ∀ fd' < FD_SETSIZE, fd' ≠ fd →
      s'.bit FD_SETSIZE (.of dir) fd' = s.bit FD_SETSIZE (.of dir) fd') :
    Kept FD_SETSIZE (Function.update events fd fe) s' := by
  refine ⟨fun fd' hin => ?_, fun dir fd' => ?_⟩
  · rcases List.mem_cons.mp (hindices hin) with rfl | hold
    · exact hfd
    · exact h.indices fd' hold
  · by_cases heq : fd' = fd
    · rw [heq, Function.update_self, hself, decide_eq_true hfd, Bool.true_and]
    · rw [Function.update_of_ne heq, h.bits]
      by_cases hlt : fd' < FD_SETSIZE
      · rw [hother dir fd' hlt heq]
      · simp [hlt]

theorem Kept.registered (h : Kept FD_SETSIZE events s) (hfd : fd < FD_SETSIZE)
    {mask : LoopyAction} (hmask : mask ≠ .NONE) (cb clientData : ℕ) :
    Kept FD_SETSIZE (Function.update events fd ((events fd).register mask cb clientData))
      (loopyInternalAddEvent FD_SETSIZE s fd mask).2 := by
  refine h.update hfd (addEvent_indices FD_SETSIZE s fd hmask).1
    (fun dir => ?_) fun dir fd' hfd' hne => ?_
  · have hbits := h.bits dir fd
    rw [decide_eq_true hfd, Bool.true_and] at hbits
    rw [addEvent_bit s hfd hfd, decide_eq_true rfl, Bool.true_and, ← hbits]
    exact (has_union _ _ _).symm
  · rw [addEvent_bit s hfd hfd', decide_eq_false hne, Bool.false_and, Bool.or_false]

theorem Kept.unregistered (h : Kept FD_SETSIZE events s) (hmask : (events fd).mask ≠ .NONE)
    (mask : LoopyAction) :
    Kept FD_SETSIZE
      (Function.update events fd { events fd with mask := (events fd).mask.diff mask })
      (loopyInternalDelEvent FD_SETSIZE s fd mask) := by
  have hfd := h.lt hmask
  refine h.update hfd (delEvent_indices FD_SETSIZE s fd mask).1
    (fun dir => ?_) fun dir fd' hfd' hne => ?_
  · have hbits := h.bits dir fd
    rw [decide_eq_true hfd, Bool.true_and] at hbits
    rw [delEvent_bit s hfd hfd, decide_eq_true rfl, Bool.true_and, ← hbits]
    exact (has_diff _ _ _).symm
  · rw [delEvent_bit s hfd hfd', decide_eq_false hne, Bool.false_and, Bool.not_false, Bool.and_true]

theorem Kept.polled (h : Kept FD_SETSIZE events s) (hp : Polled FD_SETSIZE events s s') :
    Kept FD_SETSIZE events s' := by
  refine ⟨fun fd hin => ?_, fun dir fd => ?_⟩
  · rcases hp.fresh fd hin with hold | hmask
    · exact h.indices fd hold
    · exact h.lt hmask
  · rw [h.bits]
    by_cases hlt : fd < FD_SETSIZE
    · rw [hp.bits dir fd hlt]
    · simp [hlt]

theorem SelectInv.call (h : SelectInv FD_SETSIZE m s) {c : TableCall} {addr : ℕ}
    (hstep : step FD_SETSIZE m (.call c addr) = some m') : ∃ s', SelectInv FD_SETSIZE m' s' := by
  obtain ⟨⟨b, l⟩, hperf, hm'⟩ := Option.bind_eq_some_iff.mp hstep
  cases hm'
  have hlive : Live l := h.live.effect (perform_inv hperf)
  have hold : (∀ made ∈ (⟨m.loop, c, b, l⟩ : Made) :: m.calls, Fits FD_SETSIZE made.call) →
      Fits FD_SETSIZE c ∧ Kept FD_SETSIZE m.loop.events s := fun hfits =>
    ⟨hfits _ List.mem_cons_self, h.kept fun made hmade => hfits made (List.mem_cons_of_mem _ hmade)⟩
  cases call_effect h.live h.state hperf with
  | @registered r _ i hc hr hs hevents =>
    have hmask := TableCall.registration_mask hc
    obtain ⟨-, hlog⟩ := addEvent_indices FD_SETSIZE s i hmask
    have hi := hlog List.mem_cons_self
    refine ⟨_, hlive, hs, ?_, fun hfits => ?_⟩
    · refine h.logged.mono (fun _ hin => hlog (List.mem_cons_of_mem _ hin)) i hevents
        (fun _ => hi) ?_
      intro r' hr'
      obtain rfl := Option.some.inj (hc.symm.trans hr')
      exact ⟨i, hr, hi⟩
    · obtain ⟨hfit, hkept⟩ := hold hfits
      have hlt := hfit r hc
      simp only [hevents]
      exact hkept.registered (by omega) hmask r.cb r.clientData
  | @taken r _ i hc hr hmask hs hevents =>
    have hi := h.logged.masks i hmask
    refine ⟨s, hlive, hs, ?_, fun hfits => ?_⟩
    · refine h.logged.mono (fun _ hin => hin) i
        (hevents.trans (Function.update_eq_self _ _).symm) (fun _ => hi) fun r' hr' => ?_
      obtain rfl := Option.some.inj (hc.symm.trans hr')
      exact ⟨i, hr, hi⟩
    · simp only [hevents]
      exact (hold hfits).2
  | @unregistered _ i mask hc hmask hs hevents =>
    obtain ⟨-, hlog⟩ := delEvent_indices FD_SETSIZE s i mask
    refine ⟨_, hlive, hs, ?_, fun hfits => ?_⟩
    · refine h.logged.mono hlog i hevents (fun _ => hlog (h.logged.masks i hmask)) fun r hr => ?_
      cases hc.symm.trans hr
    · simp only [hevents]
      exact (hold hfits).2.unregistered hmask mask
  | none hc hs hevents =>
    refine ⟨s, hlive, hs, ?_, fun hfits => ?_⟩
    · refine h.logged.mono (fun _ hin => hin) 0
        (hevents.trans (Function.update_eq_self _ _).symm) (h.logged.masks 0) fun r hr => ?_
      cases hc.symm.trans hr
    · simp only [hevents]
      exact (hold hfits).2

theorem SelectInv.poll (h : SelectInv FD_SETSIZE m s) {answer : Option (ℕ → LoopyAction)}
    (hstep : step FD_SETSIZE m (.poll answer) = some m') : ∃ s', SelectInv FD_SETSIZE m' s' := by
  obtain ⟨s₁, hs₁, hm'⟩ := Option.bind_eq_some_iff.mp hstep
  obtain rfl := Option.some.inj (h.state.symm.trans hs₁)
  have hp := Polled.poll FD_SETSIZE m.loop.events s answer m.loop.maxfd
  cases hm'
  refine ⟨_, h.live.same ⟨rfl, rfl, rfl, rfl, by rw [h.state]; rfl⟩, rfl, ?_, fun hfits => ?_⟩
  · refine ⟨fun fd hmask => hp.kept (h.logged.masks fd hmask), fun c hc r hr => ?_⟩
    obtain ⟨i, hi, hin⟩ := h.logged.calls c hc r hr
    exact ⟨i, hi, hp.kept hin⟩
  · exact (h.kept hfits).polled hp

theorem SelectInv.start {n : ℕ} (hn : 1 ≤ n) (hn31 : n < 2 ^ 31) (addr : ℕ) :
    SelectInv FD_SETSIZE (start FD_SETSIZE n addr) (loopyInternalNew n) := by
  refine ⟨.fresh hn hn31 addr false, rfl, ⟨fun fd hmask => absurd rfl hmask, fun c hc => ?_⟩,
    fun _ => ⟨fun fd hin => ?_, fun dir fd => ?_⟩⟩
  · cases hc
  · cases hin
  · cases dir <;> exact (Bool.and_false _).symm

end

/-- After every sequence of table calls and polls on the select adapter, the indices are below
`FD_SETSIZE`, registrations beyond were refused and the sets are the registered directions, exactly
if no call registered a descriptor beyond `FD_SETSIZE`. -/
theorem select_bounds (FD_SETSIZE n : ℕ) (hn : 1 ≤ n) (hn31 : n < 2 ^ 31) (addr : ℕ)
    (is : List Operation) (m : System)
    (hrun : Run (step FD_SETSIZE) (fun _ _ => True) (start FD_SETSIZE n addr) is m) :
    SelectLaw FD_SETSIZE m ↔ ∀ c ∈ m.calls, Fits FD_SETSIZE c.call := by
  have hinv : ∃ s, SelectInv FD_SETSIZE m s := by
    refine hrun.invariant (P := fun m => ∃ s, SelectInv FD_SETSIZE m s) (fun m i m' h _ hstep => ?_)
      ⟨_, .start hn hn31 addr⟩
    obtain ⟨s, h⟩ := h
    cases i with
    | call c addr => exact h.call hstep
    | poll answer => exact h.poll hstep
  obtain ⟨s, h⟩ := hinv
  constructor
  · intro hlaw c hc r hr
    obtain ⟨i, hi, hin⟩ := h.logged.calls c hc r hr
    have hlt := hlaw.indices s h.state i hin
    omega
  · intro hfits
    have hkept := h.kept hfits
    refine ⟨fun s' hs' => ?_, fun c hc r hr hge => ?_, fun s' hs' => ?_⟩
    · obtain rfl := Option.some.inj (h.state.symm.trans hs')
      exact hkept.indices
    · have hlt := hfits c hc r hr
      omega
    · obtain rfl := Option.some.inj (h.state.symm.trans hs')
      exact hkept.bits

/-- Two descriptors of 1024 are registered, one is ready, the other is unregistered. -/
def twoDescriptors : List Operation :=
  [.call (.registerRead 1023 5 9) 2, .call (.registerWrite 3 5 9) 2, .poll (some fun _ => .READ),
    .call (.unregisterWrite 3) 2]

theorem select_bounds_two :
    ∃ m, Run (step 1024) (fun _ _ => True) (start 1024 16 1) twoDescriptors m ∧
      m.loop.state.map (·.indices) = some [3, 1023, 3, 3, 1023] ∧ SelectLaw 1024 m := by
  have hexec : (exec (step 1024) (fun _ _ => True) (start 1024 16 1) twoDescriptors).map
      (fun m => (m.calls.map (·.call), m.loop.state.map (·.indices))) =
      some ([.unregisterWrite 3, .registerWrite 3 5 9, .registerRead 1023 5 9],
        some [3, 1023, 3, 3, 1023]) := by decide +kernel
  obtain ⟨m, hrun, hend⟩ := Run.of_exec_map hexec
  obtain ⟨hcalls, hindices⟩ := Prod.mk.inj hend
  refine ⟨m, hrun, hindices, ?_⟩
  refine (select_bounds 1024 16 (by decide) (by decide) 1 _ m hrun).mpr fun c hc => ?_
  have hin : c.call ∈ m.calls.map (·.call) := List.mem_map_of_mem hc
  rw [hcalls] at hin
  intro r hr
  simp only [List.mem_cons, List.not_mem_nil, or_false] at hin
  rcases hin with heq | heq | heq <;> rw [heq] at hr <;> cases hr <;> decide

/-- Descriptor 1030 is registered for reading although the sets hold 1024 bits: the bit set is that
of descriptor 6 in the set of the writers. -/
theorem select_unbounded :
    ¬ ∀ is m, Run (step 1024) (fun _ _ => True) (start 1024 16 1) is m → SelectLaw 1024 m := by
  intro hall
  have hexec : (exec (step 1024) (fun _ _ => True) (start 1024 16 1)
      [.call (.registerRead 1030 5 9) 2]).map
      (fun m => ((m.loop.events 6).mask.write, m.loop.state.map fun s => s.bit 1024 .wfds 6)) =
      some (false, some true) := by decide +kernel
  obtain ⟨m, hm, hend⟩ := Run.of_exec_map hexec
  obtain ⟨hmask, hbit⟩ := Prod.mk.inj hend
  obtain ⟨s, hs, hbit⟩ := Option.map_eq_some_iff.mp hbit
  have hbits := (hall _ m hm).bits s hs .write 6
  rw [LoopyAction.has, hmask, FdSet.of, hbit] at hbits
  cases hbits

end Loopy.Select
