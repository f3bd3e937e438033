import Mathlib.Data.Fintype.Basic
import Loopy.Lib.Run
import Loopy.Lib.Places

/-!
# `loopyRateLimit.c`: the concurrency limiter

The threads of a `loopyConcurrencyLimiter` as a machine of atomic actions over the `size_t`
counter `current` and the mutex. A condition wait returns at any moment, and the clock may
have passed a deadline at any moment; the statistics are left out. `granted` is the number
of slots that were granted and not yet released: a release at 0 gives nothing back.

The slow path of `loopyConcurrencyAcquire` tests `current` and adds to it in two steps, and
the undo of an unmatched `loopyConcurrencyRelease` is a step of its own. Both races break
the limit; `limit_kept` is the limit without them.
-/

namespace Loopy.RateLimit

open Loopy.Lib

/-- Where a thread is in its call. -/
inductive Pc
  | idle
  /-- The fast path of `loopyConcurrencyAcquire` (`blocking`) or of `loopyConcurrencyTryAcquire`,
  at the test of its `while` with the value it holds for `current`. -/
  | fast (blocking : Bool) (current : ℕ)
  /-- The slow path, in the mutex, at the test of its `while`. -/
  | check
  /-- The slow path found no free slot. -/
  | full
  /-- In `pthread_cond_wait` or `pthread_cond_timedwait`. -/
  | waiting
  /-- The slow path found a free slot and is about to add. -/
  | add
  /-- The slow path is about to unlock and return. -/
  | leaving
  /-- A release found `current` at 0 and is about to restore it. -/
  | underflow
  /-- A release is about to lock the mutex. -/
  | signal
  /-- A release has signalled and is about to unlock. -/
  | signalled
deriving DecidableEq, Repr

/-- The thread runs `loopyConcurrencyRelease`. -/
def Pc.releasing : Pc → Bool
  | .underflow | .signal | .signalled => true
  | _ => false

/-- `loopyConcurrencyLimiter` and its threads. -/
structure LoopyConcurrencyLimiter (T : Type) where
  maxConcurrent : ℕ
  current : ℕ
  mutex : Option T
  thread : T → Pc
  granted : ℕ

/-- `loopyConcurrencyLimiterNew`. -/
def LoopyConcurrencyLimiter.fresh (T : Type) (maxConcurrent : ℕ) :
    LoopyConcurrencyLimiter T :=
  { maxConcurrent, current := 0, mutex := none, thread := fun _ => .idle, granted := 0 }

/-- `atomic_fetch_add(&limiter->current, 1)`. -/
def fetchAdd (current : ℕ) : ℕ := (current + 1) % 2 ^ 64

/-- `atomic_fetch_sub(&limiter->current, 1)`. -/
def fetchSub (current : ℕ) : ℕ := (current + (2 ^ 64 - 1)) % 2 ^ 64

/-- The atomic actions of a thread. -/
inductive Action (T : Type)
  | load (t : T) (blocking : Bool)
  | compareExchange (t : T)
  | compareExchangeSpurious (t : T)
  | fail (t : T)
  | lock (t : T)
  | check (t : T)
  | timeout (t : T)
  | wait (t : T)
  | wake (t : T) (timedOut : Bool)
  | add (t : T)
  | unlock (t : T)
  | release (t : T)
  | restore (t : T)
  | signal (t : T)
  | signalUnlock (t : T)
deriving DecidableEq, Repr

variable {T : Type} [DecidableEq T]

/-- The thread `t` moves to `pc`. -/
def LoopyConcurrencyLimiter.move (s : LoopyConcurrencyLimiter T) (t : T) (pc : Pc) :
    LoopyConcurrencyLimiter T :=
  { s with thread := Function.update s.thread t pc }

/-- One atomic action. -/
def step (s : LoopyConcurrencyLimiter T) : Action T → Option (LoopyConcurrencyLimiter T)
  | .load t blocking =>
    if s.thread t = .idle then some (s.move t (.fast blocking s.current)) else none
  | .compareExchange t =>
    match s.thread t with
    | .fast blocking current =>
      if current < s.maxConcurrent then
        if s.current = current then
          some { s.move t .idle with current := fetchAdd current, granted := s.granted + 1 }
        else some (s.move t (.fast blocking s.current))
      else none
    | _ => none
  | .compareExchangeSpurious t =>
    match s.thread t with
    | .fast blocking current =>
      if current < s.maxConcurrent then some (s.move t (.fast blocking s.current)) else none
    | _ => none
  | .fail t =>
    match s.thread t with
    | .fast false current => if s.maxConcurrent ≤ current then some (s.move t .idle) else none
    | _ => none
  | .lock t =>
    match s.thread t with
    | .fast true current =>
      if s.maxConcurrent ≤ current ∧ s.mutex = none then
        some { s.move t .check with mutex := some t }
      else none
    | _ => none
  | .check t =>
    if s.thread t = .check then
      some (s.move t (if s.current ≥ s.maxConcurrent then .full else .add))
    else none
  | .timeout t => if s.thread t = .full then some (s.move t .leaving) else none
  | .wait t =>
    if s.thread t = .full then some { s.move t .waiting with mutex := none } else none
  | .wake t timedOut =>
    if s.thread t = .waiting ∧ s.mutex = none then
      some { s.move t (if timedOut then .leaving else .check) with mutex := some t }
    else none
  | .add t =>
    if s.thread t = .add then
      some { s.move t .leaving with current := fetchAdd s.current, granted := s.granted + 1 }
    else none
  | .unlock t =>
    if s.thread t = .leaving then some { s.move t .idle with mutex := none } else none
  | .release t =>
    if s.thread t = .idle then
      some { s.move t (if s.current = 0 then .underflow else .signal) with
        current := fetchSub s.current
        granted := s.granted - 1 }
    else none
  | .restore t =>
    if s.thread t = .underflow then
      some { s.move t .idle with current := fetchAdd s.current }
    else none
  | .signal t =>
    if s.thread t = .signal ∧ s.mutex = none then
      some { s.move t .signalled with mutex := some t }
    else none
  | .signalUnlock t =>
    if s.thread t = .signalled then some { s.move t .idle with mutex := none } else none

/-! ## The limit -/

/-- What the limiter promises of a state. -/
structure LimitLaw (s : LoopyConcurrencyLimiter T) : Prop where
  granted_le : s.granted ≤ s.maxConcurrent
  no_wrap : (∀ t, (s.thread t).releasing = false) → s.current = s.granted
  quiescent : (∀ t, s.thread t = .idle) → s.current = s.granted

/-- The two races do not happen: the slow path's test still holds when it adds, and no release
subtracts while another one has yet to undo its own subtraction. -/
def NoRace (s : LoopyConcurrencyLimiter T) : Action T → Prop
  | .add _ => s.current < s.maxConcurrent
  | .release _ => NoneAt s.thread .underflow
  | _ => True

instance [Fintype T] (s : LoopyConcurrencyLimiter T) : ∀ a, Decidable (NoRace s a)
  | .add _ => inferInstanceAs (Decidable (s.current < s.maxConcurrent))
  | .release _ => inferInstanceAs (Decidable (∀ t, s.thread t ≠ .underflow))
  | .load .. | .compareExchange _ | .compareExchangeSpurious _ | .fail _ | .lock _ | .check _
  | .timeout _ | .wait _ | .wake .. | .unlock _ | .restore _ | .signal _ | .signalUnlock _ =>
    isTrue trivial

/-! ## What an action does -/

/-- The effect of an action that is no race, as far as `current` and the threads that have to
restore it are concerned. -/
inductive Effect (s : LoopyConcurrencyLimiter T) : LoopyConcurrencyLimiter T → Prop
  | moves (t : T) (pc : Pc) (mutex : Option T) (ht : s.thread t ≠ .underflow)
      (hpc : pc ≠ .underflow) : Effect s { s.move t pc with mutex }
  | grants (t : T) (pc : Pc) (ht : s.thread t ≠ .underflow) (hpc : pc ≠ .underflow)
      (hlt : s.current < s.maxConcurrent) :
      Effect s { s.move t pc with current := fetchAdd s.current, granted := s.granted + 1 }
  | releases (t : T) (hnone : NoneAt s.thread .underflow) :
      Effect s { s.move t (if s.current = 0 then .underflow else .signal) with
        current := fetchSub s.current
        granted := s.granted - 1 }
  | restores (t : T) (ht : s.thread t = .underflow) :
      Effect s { s.move t .idle with current := fetchAdd s.current }

variable {s s' : LoopyConcurrencyLimiter T}

/-- A move that leaves the mutex. -/
theorem Effect.moves' (t : T) (pc : Pc) (ht : s.thread t ≠ .underflow) (hpc : pc ≠ .underflow) :
    Effect s (s.move t pc) :=
  Effect.moves t pc s.mutex ht hpc

theorem step_effect {a : Action T} (hok : NoRace s a) (hstep : step s a = some s') :
    Effect s s' := by
  cases a with
  | load t blocking =>
    obtain ⟨ht, rfl⟩ := of_guard hstep
    exact .moves' t _ (by simp [ht]) Pc.noConfusion
  | compareExchange t =>
    rw [step] at hstep
    split at hstep
    · next blocking current ht =>
      obtain ⟨hlt, hstep⟩ := Option.ite_none_right_eq_some.mp hstep
      by_cases heq : s.current = current
      · rw [if_pos heq] at hstep
        cases hstep
        subst heq
        exact .grants t _ (by simp [ht]) Pc.noConfusion hlt
      · rw [if_neg heq] at hstep
        cases hstep
        exact .moves' t _ (by simp [ht]) Pc.noConfusion
    · cases hstep
  | compareExchangeSpurious t =>
    rw [step] at hstep
    split at hstep
    · next blocking current ht =>
      obtain ⟨_, rfl⟩ := of_guard hstep
      exact .moves' t _ (by simp [ht]) Pc.noConfusion
    · cases hstep
  | fail t =>
    rw [step] at hstep
    split at hstep
    · next current ht =>
      obtain ⟨_, rfl⟩ := of_guard hstep
      exact .moves' t _ (by simp [ht]) Pc.noConfusion
    · cases hstep
  | lock t =>
    rw [step] at hstep
    split at hstep
    · next current ht =>
      obtain ⟨_, rfl⟩ := of_guard hstep
      exact .moves t _ _ (by simp [ht]) Pc.noConfusion
    · cases hstep
  | check t =>
    obtain ⟨ht, rfl⟩ := of_guard hstep
    refine .moves' t _ (by simp [ht]) ?_
    split <;> exact Pc.noConfusion
  | wake t timedOut =>
    obtain ⟨⟨ht, _⟩, rfl⟩ := of_guard hstep
    refine .moves t _ _ (by simp [ht]) ?_
    split <;> exact Pc.noConfusion
  | signal t =>
    obtain ⟨⟨ht, _⟩, rfl⟩ := of_guard hstep
    exact .moves t _ _ (by simp [ht]) Pc.noConfusion
  | timeout t =>
    obtain ⟨ht, rfl⟩ := of_guard hstep
    exact .moves' t _ (by simp [ht]) Pc.noConfusion
  | wait t | unlock t | signalUnlock t =>
    obtain ⟨ht, rfl⟩ := of_guard hstep
    exact .moves t _ _ (by simp [ht]) Pc.noConfusion
  | add t =>
    obtain ⟨ht, rfl⟩ := of_guard hstep
    exact .grants t _ (by simp [ht]) Pc.noConfusion hok
  | release t =>
    obtain ⟨_, rfl⟩ := of_guard hstep
    exact .releases t hok
  | restore t =>
    obtain ⟨ht, rfl⟩ := of_guard hstep
    exact .restores t ht

/-! ## The counter counts the granted slots -/

/-- Either the counter is the number of granted slots, or it is one below zero, no slot is
granted, and one release is about to restore it. -/
inductive Counted (s : LoopyConcurrencyLimiter T) : Prop
  | settled (hnone : NoneAt s.thread .underflow) (hcurrent : s.current = s.granted)
      (hle : s.granted ≤ s.maxConcurrent)
  | wrapped (t : T) (hone : OneAt s.thread .underflow t) (hcurrent : s.current = 2 ^ 64 - 1)
      (hgranted : s.granted = 0)

/-- The invariant; `maxConcurrent` is a `size_t`. -/
structure LimiterInv (s : LoopyConcurrencyLimiter T) : Prop where
  bound : s.maxConcurrent < 2 ^ 64
  counted : Counted s

theorem LimiterInv.effect (h : LimiterInv s) (he : Effect s s') : LimiterInv s' := by
  obtain ⟨hbound, hcounted⟩ := h
  cases he with
  | moves t pc mutex ht hpc =>
    refine ⟨hbound, ?_⟩
    cases hcounted with
    | settled hnone hcurrent hle => exact .settled (hnone.move hpc) hcurrent hle
    | wrapped u hone hcurrent hgranted => exact .wrapped u (hone.move ht hpc) hcurrent hgranted
  | grants t pc ht hpc hlt =>
    refine ⟨hbound, ?_⟩
    cases hcounted with
    | settled hnone hcurrent hle =>
      refine .settled (hnone.move hpc) ?_ ?_
      · show (s.current + 1) % 2 ^ 64 = s.granted + 1
        omega
      · show s.granted + 1 ≤ s.maxConcurrent
        omega
    | wrapped u hone hcurrent hgranted =>
      -- a wrapped counter is above every limit
      omega
  | releases t hnone =>
    refine ⟨hbound, ?_⟩
    cases hcounted with
    | settled _ hcurrent hle =>
      by_cases hzero : s.current = 0
      · rw [if_pos hzero]
        refine .wrapped t hnone.enter ?_ ?_
        · show (s.current + (2 ^ 64 - 1)) % 2 ^ 64 = 2 ^ 64 - 1
          omega
        · show s.granted - 1 = 0
          omega
      · rw [if_neg hzero]
        refine .settled (hnone.move Pc.noConfusion) ?_ ?_
        · show (s.current + (2 ^ 64 - 1)) % 2 ^ 64 = s.granted - 1
          omega
        · show s.granted - 1 ≤ s.maxConcurrent
          omega
    | wrapped u hone => exact absurd hone.self (hnone u)
  | restores t ht =>
    refine ⟨hbound, ?_⟩
    cases hcounted with
    | settled hnone => exact absurd ht (hnone t)
    | wrapped u hone hcurrent hgranted =>
      obtain rfl : t = u := hone.unique ht
      refine .settled (hone.leave Pc.noConfusion) ?_ ?_
      · show (s.current + 1) % 2 ^ 64 = s.granted
        omega
      · show s.granted ≤ s.maxConcurrent
        omega

omit [DecidableEq T] in
theorem LimiterInv.fresh {n : ℕ} (hn : n < 2 ^ 64) : LimiterInv (.fresh T n) :=
  ⟨hn, .settled (fun _ => Pc.noConfusion) rfl (Nat.zero_le n)⟩

omit [DecidableEq T] in
theorem LimiterInv.law (h : LimiterInv s) : LimitLaw s := by
  cases h.counted with
  | settled hnone hcurrent hle => exact ⟨hle, fun _ => hcurrent, fun _ => hcurrent⟩
  | wrapped t hone hcurrent hgranted =>
    refine ⟨by omega, fun hrel => ?_, fun hidle => ?_⟩
    · have := hrel t
      rw [hone.self] at this
      cases this
    · have := hidle t
      rw [hone.self] at this
      cases this

/-- **The limit is kept.** In every run in which the slow path's test still holds when it adds
and no release subtracts while another one has yet to undo its subtraction, at most
`maxConcurrent` slots are granted, the counter does not wrap unless a release is in progress,
and it is the number of granted slots when nothing is. -/
theorem limit_kept (maxConcurrent : ℕ) (hsize : maxConcurrent < 2 ^ 64) (as : List (Action T))
    (s : LoopyConcurrencyLimiter T) (hrun : Run step NoRace (.fresh T maxConcurrent) as s) :
    LimitLaw s :=
  have hinv : LimiterInv s :=
    hrun.invariant (fun _ _ _ h hok hstep => h.effect (step_effect hok hstep)) (.fresh hsize)
  hinv.law

/-- Thread 1 waits for the slot of thread 0 and gets it on the slow path; thread 0 releases a
second time, which releases thread 1's slot, and a third time, which finds the counter at 0. -/
def slowRun : List (Action (Fin 2)) :=
  [.load 0 false, .compareExchange 0, .load 1 true, .lock 1, .check 1, .wait 1, .release 0,
    .signal 0, .signalUnlock 0, .wake 1 false, .check 1, .add 1, .unlock 1, .release 0, .signal 0,
    .signalUnlock 0, .release 0]

theorem limit_kept_slowRun :
    ∃ s, Run step NoRace (.fresh (Fin 2) 1) slowRun s ∧ LimitLaw s ∧ s.current = 2 ^ 64 - 1 ∧
      s.granted = 0 := by
  have hexec : (exec step NoRace (.fresh (Fin 2) 1) slowRun).map
      (fun s => (s.current, s.granted)) = some (2 ^ 64 - 1, 0) := by decide +kernel
  obtain ⟨s, hrun, hval⟩ := Run.of_exec_map hexec
  obtain ⟨hcurrent, hgranted⟩ := Prod.mk.inj hval
  exact ⟨s, hrun, limit_kept 1 (by decide) slowRun s hrun, hcurrent, hgranted⟩

/-- The limit is 1. Thread 1 finds the slot of thread 0 free again, thread 2 takes it on the
fast path, and thread 1 adds: two slots are granted. -/
theorem limit_exceeded :
    ¬ ∀ as (s : LoopyConcurrencyLimiter (Fin 3)),
      Run step (fun _ _ => True) (.fresh (Fin 3) 1) as s → LimitLaw s := by
  intro hall
  have hexec : (exec step (fun _ _ => True) (.fresh (Fin 3) 1)
      [.load 0 false, .compareExchange 0, .load 1 true, .lock 1, .release 0, .check 1,
        .load 2 false, .compareExchange 2, .add 1]).map (fun s => (s.maxConcurrent, s.granted)) =
      some (1, 2) := by decide +kernel
  obtain ⟨s, hs, hval⟩ := Run.of_exec_map hexec
  obtain ⟨hmax, hgranted⟩ := Prod.mk.inj hval
  have hle := (hall _ s hs).granted_le
  omega

end Loopy.RateLimit
