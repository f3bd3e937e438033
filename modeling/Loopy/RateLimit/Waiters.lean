import Loopy.Lib.Sleepers
import Loopy.RateLimit.Concurrency

/-!
# The waiters of the concurrency limiter

`loopyConcurrencyAcquire` sleeps on a condition variable that `loopyConcurrencyRelease` signals.
Over the machine of `Loopy.RateLimit.Concurrency`, whose waits return at any moment, `asleep` says
which threads a signal can still wake: a wait returns when its thread was signalled, by itself, or
at its deadline.

A release subtracts first and signals later, and the fast path takes slots without the mutex. Still
no waiter is forgotten, as long as callers release only slots that they were granted: each free slot
is `Covered` by a thread that is about to look or by a release that is about to signal.
-/

namespace Loopy.RateLimit

open Loopy.Lib
open Function (update update_eq_self update_of_ne update_self)

variable {T : Type}

/-! ## The machine -/

/-- The limiter, with the threads that sleep in `pthread_cond_wait`. -/
structure WaitingLimiter (T : Type) where
  limiter : LoopyConcurrencyLimiter T
  asleep : T → Bool

/-- A new limiter. -/
def WaitingLimiter.fresh (T : Type) (maxConcurrent : ℕ) : WaitingLimiter T :=
  { limiter := .fresh T maxConcurrent, asleep := fun _ => false }

/-- The steps; `act` is any step of the limiter that has nothing to do with the condition variable.
`wake` is the return of a wait whose thread is awake, `spurious` a wait that ends by itself. -/
inductive WaitingAction (T : Type)
  | act (a : Action T)
  | wait (t : T)
  | spurious (t : T)
  | wake (t : T)
  | timedOut (t : T)
  | signal (t : T) (woken : Option T)
deriving DecidableEq, Repr

/-- An action that the condition variable has no part in. -/
def Action.plain : Action T → Bool
  | .wait _ | .wake .. | .signal _ => false
  | _ => true

variable [DecidableEq T] [Fintype T]

/-- One step. -/
def waitingStep (s : WaitingLimiter T) : WaitingAction T → Option (WaitingLimiter T)
  | .act a =>
    if a.plain then (step s.limiter a).map fun limiter => { s with limiter } else none
  | .wait t =>
    (step s.limiter (.wait t)).map fun limiter =>
      { limiter, asleep := update s.asleep t true }
  | .spurious t =>
    if s.asleep t then some { s with asleep := update s.asleep t false } else none
  | .wake t =>
    if s.asleep t = false then
      (step s.limiter (.wake t false)).map fun limiter => { s with limiter }
    else none
  | .timedOut t =>
    if s.asleep t then
      (step s.limiter (.wake t true)).map fun limiter =>
        { limiter, asleep := update s.asleep t false }
    else none
  | .signal t woken =>
    (step s.limiter (.signal t)).bind fun limiter =>
      (signal s.asleep woken).map fun asleep => { limiter, asleep }

/-- Callers release only what they were granted. -/
def Matched (s : WaitingLimiter T) : WaitingAction T → Prop
  | .act (.release _) => 0 < s.limiter.granted
  | _ => True

instance (s : WaitingLimiter T) : ∀ a, Decidable (Matched s a)
  | .act (.release _) => inferInstanceAs (Decidable (0 < s.limiter.granted))
  | .wait _ | .spurious _ | .wake _ | .timedOut _ | .signal .. => isTrue trivial
  | .act (.load ..) | .act (.compareExchange _) | .act (.compareExchangeSpurious _)
  | .act (.fail _) | .act (.lock _) | .act (.check _) | .act (.timeout _) | .act (.wait _)
  | .act (.wake ..) | .act (.add _) | .act (.unlock _) | .act (.restore _) | .act (.signal _)
  | .act (.signalUnlock _) => isTrue trivial

/-! ## Who looks after the free slots -/

/-- A thread that will look at `current`, or wake one that will. -/
def Pc.ready (pc : Pc) (asleep : Bool) : Bool :=
  match pc with
  | .check | .add | .signal => true
  | .waiting => !asleep
  | _ => false

/-- A thread that sleeps, or has found no slot and is about to. -/
def Pc.watching (pc : Pc) (asleep : Bool) : Bool := asleep || pc = .full

/-- The places in the mutex. -/
def Pc.holds : Pc → Bool
  | .check | .full | .add | .leaving | .signalled => true
  | _ => false

def WaitingLimiter.Ready (s : WaitingLimiter T) (t : T) : Prop :=
  (s.limiter.thread t).ready (s.asleep t) = true

instance (s : WaitingLimiter T) : DecidablePred s.Ready :=
  fun _ => inferInstanceAs (Decidable (_ = true))

def WaitingLimiter.watching (s : WaitingLimiter T) (t : T) : Bool :=
  (s.limiter.thread t).watching (s.asleep t)

/-- The slots that nobody has. -/
def WaitingLimiter.free (s : WaitingLimiter T) : ℕ := s.limiter.maxConcurrent - s.limiter.current

/-- The invariant. Only the thread in the mutex can be about to add, so the limit is passed by one
slot at most. -/
structure WaitInv (s : WaitingLimiter T) : Prop where
  size : s.limiter.maxConcurrent + 1 < 2 ^ 64
  current : s.limiter.current = s.limiter.granted
  underflow : NoneAt s.limiter.thread .underflow
  holder : ∀ t, (s.limiter.thread t).holds ↔ s.limiter.mutex = some t
  bound : s.limiter.current ≤ s.limiter.maxConcurrent + 1
  add : ∀ t, s.limiter.thread t = .add → s.limiter.current ≤ s.limiter.maxConcurrent
  asleep : ∀ t, s.asleep t → s.limiter.thread t = .waiting
  covered : Covered s.watching s.Ready s.free

variable {s s' : WaitingLimiter T} {t : T}

omit [DecidableEq T] in
theorem WaitInv.fresh {maxConcurrent : ℕ} (hsize : maxConcurrent + 1 < 2 ^ 64) :
    WaitInv (.fresh T maxConcurrent) where
  size := hsize
  current := rfl
  underflow _ := Pc.noConfusion
  holder _ := ⟨nofun, nofun⟩
  bound := Nat.zero_le _
  add := nofun
  asleep := nofun
  covered := .awake fun _ => rfl

/-! ## One thread moves -/

omit [Fintype T] in
@[simp]
theorem move_self (limiter : LoopyConcurrencyLimiter T) (t : T) (pc : Pc) :
    (limiter.move t pc).thread t = pc := update_self ..

/-- Nobody but `t` moves. -/
structure Alone (s s' : WaitingLimiter T) (t : T) : Prop where
  thread : ∀ u, u ≠ t → s'.limiter.thread u = s.limiter.thread u
  asleep : ∀ u, u ≠ t → s'.asleep u = s.asleep u

section Alone

omit [DecidableEq T] [Fintype T]

theorem Alone.watching (h : Alone s s' t) (ht : s'.watching t → s.watching t) (u : T)
    (hu : s'.watching u) : s.watching u := by
  by_cases hut : u = t
  · subst hut
    exact ht hu
  · simp only [WaitingLimiter.watching, h.thread u hut, h.asleep u hut] at hu
    exact hu

theorem Alone.ready (h : Alone s s' t) {u : T} (hut : u ≠ t) : s.Ready u ↔ s'.Ready u := by
  simp only [WaitingLimiter.Ready, h.thread u hut, h.asleep u hut]

end Alone

omit [DecidableEq T] in
/-- The thread leaves no free slot alone. -/
theorem Alone.covered (h : Alone s s' t) (hs : Covered s.watching s.Ready s.free)
    (hwatch : s'.watching t → s.watching t) (hready : s.Ready t → s'.Ready t)
    (hfree : s'.free ≤ s.free) : Covered s'.watching s'.Ready s'.free := by
  apply hs.mono (h.watching hwatch) _ hfree
  intro u hu
  by_cases hut : u = t
  · subst hut
    exact hready hu
  · exact (h.ready hut).mp hu

/-- The thread takes a free slot. -/
theorem Alone.covered_take (h : Alone s s' t) (hs : Covered s.watching s.Ready s.free)
    (hwatch : s'.watching t → s.watching t) (hfree : s'.free ≤ s.free - 1) :
    Covered s'.watching s'.Ready s'.free := by
  rcases Nat.eq_zero_or_pos s.free with hzero | hpos
  · have hnone : s'.free = 0 := by omega
    rw [hnone]
    exact .zero
  · have hone : s.free = s.free - 1 + 1 := by omega
    rw [hone] at hs
    have htaken := hs.take (t := t) (h.watching hwatch) fun u hut hu => (h.ready hut).mp hu
    exact htaken.mono (fun _ hu => hu) (fun _ hu => hu) hfree

omit [DecidableEq T] in
/-- The thread gives a slot back, and is about to signal. -/
theorem Alone.covered_enlist (h : Alone s s' t) (hs : Covered s.watching s.Ready s.free)
    (hwatch : s'.watching t → s.watching t) (ht : ¬ s.Ready t) (ht' : s'.Ready t)
    (hfree : s'.free ≤ s.free + 1) : Covered s'.watching s'.Ready s'.free := by
  have hmore := hs.enlist (t := t) (h.watching hwatch) (fun u hu => ?_) ht ht'
  · exact hmore.mono (fun _ hu => hu) (fun _ hu => hu) hfree
  · by_cases hut : u = t
    · subst hut
      exact ht'
    · exact (h.ready hut).mp hu

omit [DecidableEq T] in
/-- The thread may take the mutex, give it back or leave it. -/
theorem WaitInv.move (h : WaitInv s) (halone : Alone s s' t)
    (hmax : s'.limiter.maxConcurrent = s.limiter.maxConcurrent)
    (hcurrent : s'.limiter.current = s'.limiter.granted)
    (hpc : s'.limiter.thread t ≠ .underflow)
    (hmutex : s'.limiter.mutex = s.limiter.mutex ∨
      (s.limiter.mutex = none ∨ s.limiter.mutex = some t) ∧
        (s'.limiter.mutex = none ∨ s'.limiter.mutex = some t))
    (hholds : (s'.limiter.thread t).holds ↔ s'.limiter.mutex = some t)
    (hover : s'.limiter.current ≤ s.limiter.maxConcurrent + 1)
    (hadd : ∀ u, s'.limiter.thread u = .add → s'.limiter.current ≤ s.limiter.maxConcurrent)
    (hasleep : s'.asleep t → s'.limiter.thread t = .waiting)
    (hcovered : Covered s'.watching s'.Ready s'.free) : WaitInv s' := by
  refine ⟨by rw [hmax]; exact h.size, hcurrent, fun u => ?_, fun u => ?_, by rwa [hmax],
    by rwa [hmax], fun u hu => ?_, hcovered⟩
  · by_cases hut : u = t
    · rw [hut]
      exact hpc
    · rw [halone.thread u hut]
      exact h.underflow u
  · by_cases hut : u = t
    · subst hut
      exact hholds
    · rw [halone.thread u hut, h.holder u]
      rcases hmutex with hsame | ⟨hbefore, hafter⟩
      · rw [hsame]
      · -- the mutex is not with `u`, neither before nor after
        have hnot : ∀ {mutex : Option T}, mutex = none ∨ mutex = some t → mutex ≠ some u := by
          rintro mutex (rfl | rfl)
          · exact nofun
          · intro he
            cases he
            exact hut rfl
        exact ⟨fun hu => absurd hu (hnot hbefore), fun hu => absurd hu (hnot hafter)⟩
  · by_cases hut : u = t
    · subst hut
      exact hasleep hu
    · rw [halone.thread u hut]
      exact h.asleep u (by rw [← halone.asleep u hut]; exact hu)

omit [DecidableEq T] in
/-- Only a thread in a wait sleeps. -/
theorem WaitInv.awake (h : WaitInv s) (ht : s.limiter.thread t ≠ .waiting) :
    s.asleep t = false := by
  by_contra hasleep
  exact ht (h.asleep t (by simpa using hasleep))

omit [DecidableEq T] in
/-- The mutex has one holder. -/
theorem WaitInv.unique (h : WaitInv s) {u : T} (ht : (s.limiter.thread t).holds)
    (hu : (s.limiter.thread u).holds) : u = t := by
  have htmutex := (h.holder t).mp ht
  rw [(h.holder u).mp hu] at htmutex
  injection htmutex

omit [DecidableEq T] in
/-- A thread outside the mutex moves outside. -/
theorem WaitInv.outside (h : WaitInv s) {pc : Pc} (ht : ¬ (s.limiter.thread t).holds)
    (hpc : ¬ pc.holds) : pc.holds ↔ s.limiter.mutex = some t :=
  ⟨fun hin => absurd hin hpc, fun hmutex => absurd ((h.holder t).mpr hmutex) ht⟩

omit [DecidableEq T] in
/-- A thread in the mutex moves inside. -/
theorem WaitInv.inside (h : WaitInv s) {pc : Pc} (ht : (s.limiter.thread t).holds)
    (hpc : pc.holds) : pc.holds ↔ s.limiter.mutex = some t :=
  ⟨fun _ => (h.holder t).mp ht, fun _ => hpc⟩

/-- A step that grants no slot, gives none back, and leaves the sleepers alone. -/
theorem WaitInv.go (h : WaitInv s) {pc : Pc} {mutex : Option T}
    (ht : s.limiter.thread t ≠ .waiting) (hpc : pc ≠ .underflow)
    (hmutex : mutex = s.limiter.mutex ∨
      (s.limiter.mutex = none ∨ s.limiter.mutex = some t) ∧ (mutex = none ∨ mutex = some t))
    (hholds : pc.holds ↔ mutex = some t)
    (hadd : pc = .add → s.limiter.current ≤ s.limiter.maxConcurrent)
    (hcovered : (s.free = 0) ∨ (pc ≠ .full ∧ (s.Ready t → pc.ready false = true))) :
    WaitInv { s with limiter := { s.limiter.move t pc with mutex } } := by
  have hawake := h.awake ht
  have halone : Alone s { s with limiter := { s.limiter.move t pc with mutex } } t :=
    ⟨fun u hu => update_of_ne hu _ _, fun _ _ => rfl⟩
  have hself := move_self s.limiter t pc
  refine h.move halone rfl h.current (by rw [hself]; exact hpc) hmutex (by rw [hself]; exact hholds)
    h.bound (fun u hu => ?_) (fun hu => ?_) ?_
  · by_cases hut : u = t
    · subst hut
      exact hadd (hself.symm.trans hu)
    · exact h.add u (by rw [← halone.thread u hut]; exact hu)
  · rw [hawake] at hu
    cases hu
  · rcases hcovered with hzero | ⟨hfull, hready⟩
    · show Covered _ _ s.free
      rw [hzero]
      exact .zero
    · refine halone.covered h.covered (fun hw => ?_) (fun hr => ?_) le_rfl
      · simp only [WaitingLimiter.watching, move_self, hawake, Pc.watching, Bool.false_or,
          decide_eq_true_eq] at hw
        exact absurd hw hfull
      · simp only [WaitingLimiter.Ready, move_self, hawake]
        exact hready hr

omit [Fintype T] [DecidableEq T] in
theorem not_ready {pc : Pc} (ht : s.limiter.thread t = pc) (hpc : pc.ready (s.asleep t) = false) :
    ¬ s.Ready t := by
  rw [WaitingLimiter.Ready, ht, hpc]
  exact Bool.false_ne_true

namespace WaitInv

/-- A thread that looks after no slot goes on outside the mutex. -/
theorem goOutside (h : WaitInv s) {pc pc' : Pc} (ht : s.limiter.thread t = pc)
    (hwaiting : pc ≠ .waiting) (hpc : pc.holds = false) (hready : pc.ready false = false)
    (hunderflow : pc' ≠ .underflow) (hpc' : pc'.holds = false) :
    WaitInv { s with limiter := s.limiter.move t pc' } := by
  have hawake := h.awake (t := t) (by rwa [ht])
  refine h.go (by rwa [ht]) hunderflow (.inl rfl) (h.outside (by simp [ht, hpc]) (by simp [hpc']))
    (fun hadd => ?_) (.inr ⟨fun hfull => ?_, fun hr => absurd hr (not_ready ht (by rwa [hawake]))⟩)
  · rw [hadd] at hpc'
    cases hpc'
  · rw [hfull] at hpc'
    cases hpc'

/-! ## Every step keeps the invariant -/

/-- The fast path takes a slot. -/
theorem grant (h : WaitInv s) {blocking : Bool}
    (ht : s.limiter.thread t = .fast blocking s.limiter.current)
    (hlt : s.limiter.current < s.limiter.maxConcurrent) :
    WaitInv { s with limiter := { s.limiter.move t .idle with
      current := fetchAdd s.limiter.current
      granted := s.limiter.granted + 1 } } := by
  have hsize := h.size
  have hcurrent := h.current
  have hadd : fetchAdd s.limiter.current = s.limiter.current + 1 := by
    rw [fetchAdd]
    omega
  have hawake := h.awake (t := t) (by simp [ht])
  rw [hadd]
  have halone : Alone s { s with limiter := { s.limiter.move t .idle with
      current := s.limiter.current + 1
      granted := s.limiter.granted + 1 } } t :=
    ⟨fun u hu => update_of_ne hu _ _, fun _ _ => rfl⟩
  have hholds : Pc.idle.holds ↔ s.limiter.mutex = some t :=
    h.outside (by simp [ht, Pc.holds]) nofun
  refine h.move halone rfl ?_ (by simp) (.inl rfl)
    (by simpa [LoopyConcurrencyLimiter.move] using hholds) ?_ (fun u _ => ?_) (by simp [hawake])
    (halone.covered h.covered ?_ ?_ ?_)
  · show s.limiter.current + 1 = s.limiter.granted + 1
    rw [hcurrent]
  · show s.limiter.current + 1 ≤ s.limiter.maxConcurrent + 1
    omega
  · show s.limiter.current + 1 ≤ s.limiter.maxConcurrent
    omega
  · simp [WaitingLimiter.watching, hawake, Pc.watching]
  · exact fun hr => absurd hr (not_ready ht rfl)
  · show s.limiter.maxConcurrent - (s.limiter.current + 1) ≤ s.free
    rw [WaitingLimiter.free]
    omega

/-- The slow path takes a slot. -/
theorem slowAdd (h : WaitInv s) (ht : s.limiter.thread t = .add) :
    WaitInv { s with limiter := { s.limiter.move t .leaving with
      current := fetchAdd s.limiter.current
      granted := s.limiter.granted + 1 } } := by
  have hsize := h.size
  have hcurrent := h.current
  have hle := h.add t ht
  have hadd : fetchAdd s.limiter.current = s.limiter.current + 1 := by
    rw [fetchAdd]
    omega
  have hawake := h.awake (t := t) (by simp [ht])
  rw [hadd]
  have halone : Alone s { s with limiter := { s.limiter.move t .leaving with
      current := s.limiter.current + 1
      granted := s.limiter.granted + 1 } } t :=
    ⟨fun u hu => update_of_ne hu _ _, fun _ _ => rfl⟩
  have hin : (s.limiter.thread t).holds := by simp [ht, Pc.holds]
  have hholds : Pc.leaving.holds ↔ s.limiter.mutex = some t := h.inside hin rfl
  refine h.move halone rfl ?_ (by simp) (.inl rfl)
    (by simpa [LoopyConcurrencyLimiter.move] using hholds) ?_ (fun u hu => ?_) (by simp [hawake])
    (halone.covered_take h.covered ?_ ?_)
  · show s.limiter.current + 1 = s.limiter.granted + 1
    rw [hcurrent]
  · show s.limiter.current + 1 ≤ s.limiter.maxConcurrent + 1
    omega
  · -- nobody else is about to add, since this thread has the mutex
    exfalso
    by_cases hut : u = t
    · subst hut
      simp at hu
    · have hu' : s.limiter.thread u = .add := by rw [← halone.thread u hut]; exact hu
      exact hut (h.unique hin (by simp [hu', Pc.holds]))
  · simp [WaitingLimiter.watching, hawake, Pc.watching]
  · show s.limiter.maxConcurrent - (s.limiter.current + 1) ≤ s.free - 1
    rw [WaitingLimiter.free]
    omega

/-- A caller gives a slot back that it was granted. -/
theorem release (h : WaitInv s) (ht : s.limiter.thread t = .idle)
    (hgranted : 0 < s.limiter.granted) :
    WaitInv { s with limiter :=
      { s.limiter.move t (if s.limiter.current = 0 then .underflow else .signal) with
        current := fetchSub s.limiter.current
        granted := s.limiter.granted - 1 } } := by
  have hsize := h.size
  have hcurrent := h.current
  have hover := h.bound
  have hsub : fetchSub s.limiter.current = s.limiter.current - 1 := by
    rw [fetchSub]
    omega
  have hawake := h.awake (t := t) (by simp [ht])
  -- a granted slot is counted, so nothing underflows here
  have hpos : s.limiter.current ≠ 0 := by omega
  rw [hsub, if_neg hpos]
  have halone : Alone s { s with limiter := { s.limiter.move t .signal with
      current := s.limiter.current - 1
      granted := s.limiter.granted - 1 } } t :=
    ⟨fun u hu => update_of_ne hu _ _, fun _ _ => rfl⟩
  have hholds : Pc.signal.holds ↔ s.limiter.mutex = some t :=
    h.outside (by simp [ht, Pc.holds]) nofun
  refine h.move halone rfl ?_ (by simp) (.inl rfl)
    (by simpa [LoopyConcurrencyLimiter.move] using hholds) ?_ (fun u hu => ?_) (by simp [hawake])
    (halone.covered_enlist h.covered ?_ (not_ready ht rfl) ?_ ?_)
  · show s.limiter.current - 1 = s.limiter.granted - 1
    rw [hcurrent]
  · show s.limiter.current - 1 ≤ s.limiter.maxConcurrent + 1
    omega
  · show s.limiter.current - 1 ≤ s.limiter.maxConcurrent
    omega
  · simp [WaitingLimiter.watching, hawake, Pc.watching]
  · simp [WaitingLimiter.Ready, Pc.ready]
  · show s.limiter.maxConcurrent - (s.limiter.current - 1) ≤ s.free + 1
    rw [WaitingLimiter.free]
    omega

/-- A step that the condition variable has no part in. -/
theorem act (h : WaitInv s) {a : Action T} (ha : a.plain)
    (hok : Matched s (.act a)) {limiter : LoopyConcurrencyLimiter T}
    (hstep : step s.limiter a = some limiter) : WaitInv { s with limiter } := by
  cases a with
  | wait | wake | signal => cases ha
  | load t blocking =>
    obtain ⟨ht, rfl⟩ := of_guard hstep
    exact h.goOutside ht (by simp) rfl rfl (by simp) rfl
  | compareExchange t =>
    rw [step] at hstep
    split at hstep
    · next blocking current ht =>
      obtain ⟨hlt, hstep⟩ := Option.ite_none_right_eq_some.mp hstep
      split at hstep
      · next heq =>
        cases hstep
        subst heq
        exact h.grant ht hlt
      · cases hstep
        exact h.goOutside ht (by simp) rfl rfl (by simp) rfl
    · cases hstep
  | compareExchangeSpurious t =>
    rw [step] at hstep
    split at hstep
    · next blocking current ht =>
      obtain ⟨_, rfl⟩ := of_guard hstep
      exact h.goOutside ht (by simp) rfl rfl (by simp) rfl
    · cases hstep
  | fail t =>
    rw [step] at hstep
    split at hstep
    · next current ht =>
      obtain ⟨_, rfl⟩ := of_guard hstep
      exact h.goOutside ht (by simp) rfl rfl (by simp) rfl
    · cases hstep
  | lock t =>
    rw [step] at hstep
    split at hstep
    · next current ht =>
      obtain ⟨⟨_, hmutex⟩, rfl⟩ := of_guard hstep
      exact h.go (by simp [ht]) (by simp) (.inr ⟨.inl hmutex, .inr rfl⟩)
        ⟨fun _ => rfl, fun _ => rfl⟩ (by simp) (.inr ⟨by simp, fun _ => rfl⟩)
    · cases hstep
  | check t =>
    obtain ⟨ht, hstep⟩ := Option.ite_none_right_eq_some.mp hstep
    have hin : (s.limiter.thread t).holds := by simp [ht, Pc.holds]
    cases hstep
    split
    · next hfull =>
      -- no slot is free, so nobody has to be ready for the thread that begins to watch
      refine h.go (by simp [ht]) (by simp) (.inl rfl) (h.inside hin rfl) (by simp) (.inl ?_)
      rw [WaitingLimiter.free]
      omega
    · next hroom =>
      exact h.go (by simp [ht]) (by simp) (.inl rfl) (h.inside hin rfl) (fun _ => by omega)
        (.inr ⟨by simp, fun _ => rfl⟩)
  | timeout t =>
    obtain ⟨ht, hstep⟩ := Option.ite_none_right_eq_some.mp hstep
    have hin : (s.limiter.thread t).holds := by simp [ht, Pc.holds]
    cases hstep
    exact h.go (by simp [ht]) (by simp) (.inl rfl) (h.inside hin rfl) (by simp)
      (.inr ⟨by simp, fun hr => absurd hr (not_ready ht rfl)⟩)
  | add t =>
    obtain ⟨ht, rfl⟩ := of_guard hstep
    exact h.slowAdd ht
  | unlock t | signalUnlock t =>
    obtain ⟨ht, hstep⟩ := Option.ite_none_right_eq_some.mp hstep
    have hin : (s.limiter.thread t).holds := by simp [ht, Pc.holds]
    cases hstep
    exact h.go (by simp [ht]) (by simp) (.inr ⟨.inr ((h.holder t).mp hin), .inl rfl⟩)
      (by simp [Pc.holds]) (by simp) (.inr ⟨by simp, fun hr => absurd hr (not_ready ht rfl)⟩)
  | release t =>
    obtain ⟨ht, rfl⟩ := of_guard hstep
    exact h.release ht hok
  | restore t =>
    obtain ⟨ht, _⟩ := Option.ite_none_right_eq_some.mp hstep
    exact absurd ht (h.underflow t)

/-- A thread that found no slot goes to sleep. -/
theorem wait (h : WaitInv s) (ht : s.limiter.thread t = .full) :
    WaitInv { limiter := { s.limiter.move t .waiting with mutex := none }
              asleep := update s.asleep t true } := by
  have hmutex := (h.holder t).mp (by simp [ht, Pc.holds])
  have halone : Alone s { limiter := { s.limiter.move t .waiting with mutex := none }
                          asleep := update s.asleep t true } t :=
    ⟨fun u hu => update_of_ne hu _ _, fun u hu => update_of_ne hu _ _⟩
  refine h.move halone rfl h.current (by simp) (.inr ⟨.inr hmutex, .inl rfl⟩)
    (by simp [Pc.holds]) h.bound (fun u hu => ?_) (fun _ => move_self ..)
    (halone.covered h.covered ?_ ?_ le_rfl)
  · by_cases hut : u = t
    · subst hut
      simp at hu
    · exact h.add u (by rw [← halone.thread u hut]; exact hu)
  · simp [WaitingLimiter.watching, ht, Pc.watching]
  · exact fun hr => absurd hr (not_ready ht rfl)

/-- A wait ends by itself. -/
theorem spurious (h : WaitInv s) (ht : s.asleep t) :
    WaitInv { s with asleep := update s.asleep t false } := by
  have hwaiting := h.asleep t ht
  have halone : Alone s { s with asleep := update s.asleep t false } t :=
    ⟨fun _ _ => rfl, fun u hu => update_of_ne hu _ _⟩
  refine h.move halone rfl h.current (h.underflow t) (.inl rfl) (h.holder t) h.bound h.add
    (by simp) (halone.covered h.covered ?_ ?_ le_rfl)
  · simp [WaitingLimiter.watching, hwaiting, Pc.watching, ht]
  · simp [WaitingLimiter.Ready, hwaiting, Pc.ready]

/-- A wait returns, and the thread has the mutex. -/
theorem wake (h : WaitInv s) (ht : s.limiter.thread t = .waiting)
    (hmutex : s.limiter.mutex = none) {timedOut : Bool} (hasleep : s.asleep t = timedOut) :
    WaitInv { limiter := { s.limiter.move t (if timedOut then .leaving else .check) with
                mutex := some t }
              asleep := update s.asleep t false } := by
  have halone : Alone s { limiter := { s.limiter.move t (if timedOut then .leaving else .check) with
                            mutex := some t }
                          asleep := update s.asleep t false } t :=
    ⟨fun u hu => update_of_ne hu _ _, fun u hu => update_of_ne hu _ _⟩
  refine h.move halone rfl h.current ?_ (.inr ⟨.inl hmutex, .inr rfl⟩) ?_ h.bound (fun u hu => ?_)
    (by simp) (halone.covered h.covered ?_ ?_ le_rfl)
  · cases timedOut <;> simp
  · cases timedOut <;> simp [Pc.holds]
  · by_cases hut : u = t
    · subst hut
      cases timedOut <;> simp at hu
    · exact h.add u (by rw [← halone.thread u hut]; exact hu)
  · cases timedOut <;> simp [WaitingLimiter.watching, Pc.watching]
  · cases timedOut <;> simp [WaitingLimiter.Ready, ht, hasleep, Pc.ready]

/-- A release signals: the free slot that it stands for goes over to the thread that it wakes. -/
theorem signal (h : WaitInv s) (ht : s.limiter.thread t = .signal)
    (hmutex : s.limiter.mutex = none) {woken : Option T} {asleep : T → Bool}
    (hsignal : Lib.signal s.asleep woken = some asleep) :
    WaitInv { limiter := { s.limiter.move t .signalled with mutex := some t }, asleep } := by
  have hfewer := asleep_of_signal hsignal
  -- the mutex is free, so nobody stands between its check and its wait
  have hnobody : ∀ u, s.limiter.thread u ≠ .full := by
    intro u hu
    have hin := (h.holder u).mp (by simp [hu, Pc.holds])
    rw [hmutex] at hin
    cases hin
  have hother : ∀ u, u ≠ t → (s.limiter.move t .signalled).thread u = s.limiter.thread u :=
    fun u hu => update_of_ne hu _ _
  have hwatching : s.watching = s.asleep := by
    funext u
    simp [WaitingLimiter.watching, Pc.watching, hnobody u]
  have hcovered := h.covered
  rw [hwatching] at hcovered
  have hmore : Covered asleep (WaitingLimiter.Ready { s with asleep }) (s.free + 1) := by
    refine hcovered.signal hsignal (fun u hu => ?_) (fun u hu => ?_) (fun u hu hu' => ?_)
    · rw [WaitingLimiter.Ready, h.asleep u hu, hu]
      exact Bool.false_ne_true
    · cases hasleep : s.asleep u with
      | true =>
        rw [WaitingLimiter.Ready, h.asleep u hasleep, hasleep] at hu
        exact absurd hu Bool.false_ne_true
      | false =>
        rw [WaitingLimiter.Ready, hasleep] at hu
        simp only [WaitingLimiter.Ready, awake_of_fewer hfewer hasleep]
        exact hu
    · simp only [WaitingLimiter.Ready, h.asleep u hu, hu']
      rfl
  refine ⟨h.size, h.current, fun u => ?_, fun u => ?_, h.bound, fun u hu => ?_, fun u hu => ?_, ?_⟩
  · by_cases hut : u = t
    · rw [hut]
      simp
    · simp only [hother u hut]
      exact h.underflow u
  · by_cases hut : u = t
    · rw [hut]
      simp [Pc.holds]
    · simp only [hother u hut]
      constructor
      · intro hin
        rw [(h.holder u).mp hin] at hmutex
        cases hmutex
      · intro he
        injection he with he
        exact absurd he.symm hut
  · by_cases hut : u = t
    · rw [hut] at hu
      simp at hu
    · simp only [hother u hut] at hu
      exact h.add u hu
  · have hwaiting := h.asleep u (hfewer u hu)
    have hut : u ≠ t := by
      rintro rfl
      rw [ht] at hwaiting
      cases hwaiting
    simp only [hother u hut]
    exact hwaiting
  · refine hmore.take (t := t) (fun u hu => ?_) fun u hut hu => ?_
    · by_cases hut : u = t
      · subst hut
        simpa [WaitingLimiter.watching, Pc.watching] using hu
      · simpa [WaitingLimiter.watching, hother u hut, Pc.watching, hnobody u] using hu
    · simp only [WaitingLimiter.Ready, hother u hut]
      exact hu

theorem step (h : WaitInv s) {a : WaitingAction T} (hok : Matched s a)
    (hstep : waitingStep s a = some s') : WaitInv s' := by
  cases a with
  | act a =>
    obtain ⟨ha, hstep⟩ := Option.ite_none_right_eq_some.mp hstep
    obtain ⟨limiter, hlimiter, rfl⟩ := Option.map_eq_some_iff.mp hstep
    exact h.act ha hok hlimiter
  | wait t =>
    obtain ⟨limiter, hlimiter, rfl⟩ := Option.map_eq_some_iff.mp hstep
    obtain ⟨ht, rfl⟩ := of_guard hlimiter
    exact h.wait ht
  | spurious t =>
    obtain ⟨ht, rfl⟩ := of_guard hstep
    exact h.spurious ht
  | wake t =>
    obtain ⟨hawake, hstep⟩ := Option.ite_none_right_eq_some.mp hstep
    obtain ⟨limiter, hlimiter, rfl⟩ := Option.map_eq_some_iff.mp hstep
    obtain ⟨⟨ht, hmutex⟩, rfl⟩ := of_guard hlimiter
    have hsame : update s.asleep t false = s.asleep := by
      rw [← hawake, update_eq_self]
    have hwoken := h.wake ht hmutex hawake
    rw [hsame] at hwoken
    exact hwoken
  | timedOut t =>
    obtain ⟨hasleep, hstep⟩ := Option.ite_none_right_eq_some.mp hstep
    obtain ⟨limiter, hlimiter, rfl⟩ := Option.map_eq_some_iff.mp hstep
    obtain ⟨⟨ht, hmutex⟩, rfl⟩ := of_guard hlimiter
    exact h.wake ht hmutex hasleep
  | signal t woken =>
    obtain ⟨limiter, hlimiter, hstep⟩ := Option.bind_eq_some_iff.mp hstep
    obtain ⟨asleep, hsignal, rfl⟩ := Option.map_eq_some_iff.mp hstep
    obtain ⟨⟨ht, hmutex⟩, rfl⟩ := of_guard hlimiter
    exact h.signal ht hmutex hsignal

end WaitInv

/-! ## No waiter is forgotten -/

/-- What the limiter promises while threads wait for it. -/
structure WaiterLaw (s : WaitingLimiter T) : Prop where
  current : s.limiter.current = s.limiter.granted
  granted_le : s.limiter.granted ≤ s.limiter.maxConcurrent + 1
  served : ∀ t, s.asleep t → s.free ≤ (Finset.univ.filter s.Ready).card

omit [DecidableEq T] in
theorem WaitInv.law (h : WaitInv s) : WaiterLaw s where
  current := h.current
  granted_le := h.current ▸ h.bound
  served t ht := h.covered ⟨t, by simp [WaitingLimiter.watching, Pc.watching, ht]⟩

theorem WaitInv.run {as : List (WaitingAction T)} (h : WaitInv s)
    (hrun : Run waitingStep Matched s as s') : WaitInv s' :=
  hrun.invariant (fun _ _ _ hinv hok hstep => hinv.step hok hstep) h

/-- **No waiter is forgotten.** In every run in which callers release only the slots that they were
granted, `current` counts the granted slots, they pass `maxConcurrent` by one at most, and as long
as a thread sleeps, there are as many threads that are about to look or to signal as free slots. -/
theorem no_waiter_forgotten (maxConcurrent : ℕ) (hsize : maxConcurrent + 1 < 2 ^ 64)
    (as : List (WaitingAction T)) (s : WaitingLimiter T)
    (hrun : Run waitingStep Matched (.fresh T maxConcurrent) as s) : WaiterLaw s :=
  have hinv : WaitInv s := (WaitInv.fresh hsize).run hrun
  hinv.law

/-- Thread 2 sleeps for the slot of thread 0; thread 1 takes it on the fast path after the release
and before the signal, and gives it back: the signal of thread 0 finds the slot free. -/
theorem no_waiter_forgotten_stolen :
    ∃ s : WaitingLimiter (Fin 3), Run waitingStep Matched (.fresh (Fin 3) 1)
        [.act (.load 0 false), .act (.compareExchange 0), .act (.load 2 true), .act (.lock 2),
          .act (.check 2), .wait 2, .act (.release 0), .act (.load 1 false),
          .act (.compareExchange 1), .act (.release 1)] s ∧
      s.asleep 2 = true ∧ s.free = 1 ∧ WaiterLaw s := by
  refine Run.exists_of_exec (f := fun s => (s.asleep 2, s.free)) (b := (true, 1))
    (by decide +kernel) fun s hrun hval => ?_
  obtain ⟨hasleep, hfree⟩ := Prod.mk.inj hval
  exact ⟨hasleep, hfree, no_waiter_forgotten 1 (by decide) _ s hrun⟩

end Loopy.RateLimit
