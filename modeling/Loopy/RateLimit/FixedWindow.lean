import Loopy.Lib.Total
import Loopy.RateLimit.Concurrency

/-!
# `loopyRateLimit.c`: the fixed window

The threads of a `loopyFixedWindow` as a machine of atomic actions over the `uint64_t` counter
`count`, the start of the window and the mutex. The clock is monotone; a window that would end
after `2 ^ 64` ms wraps. The fields of `loopyRateLimitInfo` are left out: they are only read.
`allowed` is the number of checks that were allowed since the counter was last reset.

A denied check takes its increment back in a step of its own. If the window is reset in between,
the new window loses one: `window_kept` is the law without that race.
-/

namespace Loopy.FixedWindow

open Loopy.Lib Loopy.RateLimit

/-! ## The machine -/

/-- Where a thread is in `fixedWindowCheck`, `fixedWindowPeek` (`peek`) or `fixedWindowReset`. -/
inductive Pc
  | idle
  /-- `fixedWindowMaybeReset` has read the clock. -/
  | loadStart (peek : Bool) (now : UInt64)
  /-- The window is over; before the lock. -/
  | lock (peek : Bool) (now : UInt64)
  /-- With the mutex, before the window is loaded again. -/
  | recheck (peek : Bool) (now : UInt64)
  /-- With the mutex, before `count` is stored. -/
  | storeCount (peek : Bool) (now : UInt64)
  /-- With the mutex, before `windowStart` is stored. -/
  | storeStart (peek : Bool) (now : UInt64)
  /-- With the mutex, before the unlock. -/
  | unlock (peek : Bool)
  /-- Before `atomic_fetch_add`. -/
  | add
  /-- The check is denied; before `atomic_fetch_sub`. -/
  | undo
  /-- A peek is about to load `count`. -/
  | loadCount
  /-- `fixedWindowReset` has the mutex, before it stores `count`. -/
  | resetCount
  /-- `fixedWindowReset` is about to read the clock. -/
  | resetNow
  /-- `fixedWindowReset` is about to store `windowStart`. -/
  | resetStart (now : UInt64)
  /-- `fixedWindowReset` is about to unlock. -/
  | resetUnlock
deriving DecidableEq, Repr

/-- The thread runs `fixedWindowCheck`. -/
def Pc.checking : Pc → Bool
  | .loadStart peek _ | .lock peek _ | .recheck peek _ | .storeCount peek _ | .storeStart peek _
  | .unlock peek => !peek
  | .add | .undo => true
  | .idle | .loadCount | .resetCount | .resetNow | .resetStart _ | .resetUnlock => false

/-- What the thread has added and is about to take back. -/
def Pc.undone : Pc → ℕ
  | .undo => 1
  | _ => 0

/-- `loopyFixedWindow`, the clock and the threads. -/
structure LoopyFixedWindow (T : Type) where
  count : ℕ
  windowStart : UInt64
  windowMs : UInt64
  maxRequests : ℕ
  mutex : Option T
  clock : UInt64
  thread : T → Pc
  allowed : ℕ
  /-- The counter was brought below zero. -/
  wrapped : Bool

/-- `fixedWindowInit`. -/
def LoopyFixedWindow.fresh (T : Type) (maxRequests : ℕ) (windowMs now : UInt64) :
    LoopyFixedWindow T :=
  { count := 0, windowStart := now, windowMs, maxRequests, mutex := none, clock := now,
    thread := fun _ => .idle, allowed := 0, wrapped := false }

/-- The atomic actions of a thread. -/
inductive Action (T : Type)
  | getNowMs (t : T) (peek : Bool) (now : UInt64)
  | loadStart (t : T)
  | lock (t : T)
  | recheck (t : T)
  | storeCount (t : T)
  | storeStart (t : T)
  | unlock (t : T)
  | fetchAdd (t : T)
  | fetchSub (t : T)
  | loadCount (t : T)
  | reset (t : T)
  | resetNow (t : T) (now : UInt64)
deriving DecidableEq, Repr

variable {T : Type} [DecidableEq T]

/-- The thread `t` moves to `pc`. -/
def LoopyFixedWindow.move (s : LoopyFixedWindow T) (t : T) (pc : Pc) : LoopyFixedWindow T :=
  { s with thread := Function.update s.thread t pc }

/-- `now >= windowStart + fw->windowMs`. -/
def LoopyFixedWindow.over (s : LoopyFixedWindow T) (now : UInt64) : Bool :=
  decide (now ≥ s.windowStart + s.windowMs)

/-- Where a call goes on after `fixedWindowMaybeReset`. -/
def Pc.afterReset (peek : Bool) : Pc := if peek then .loadCount else .add

/-- One atomic action. -/
def step (s : LoopyFixedWindow T) : Action T → Option (LoopyFixedWindow T)
  | .getNowMs t peek now =>
    if s.thread t = .idle ∧ s.clock ≤ now then
      some { s.move t (.loadStart peek now) with clock := now }
    else none
  | .loadStart t =>
    match s.thread t with
    | .loadStart peek now =>
      some (s.move t (if s.over now then .lock peek now else .afterReset peek))
    | _ => none
  | .lock t =>
    match s.thread t with
    | .lock peek now =>
      if s.mutex = none then some { s.move t (.recheck peek now) with mutex := some t } else none
    | _ => none
  | .recheck t =>
    match s.thread t with
    | .recheck peek now =>
      some (s.move t (if s.over now then .storeCount peek now else .unlock peek))
    | _ => none
  | .storeCount t =>
    match s.thread t with
    | .storeCount peek now =>
      some { s.move t (.storeStart peek now) with count := 0, allowed := 0 }
    | .resetCount => some { s.move t .resetNow with count := 0, allowed := 0 }
    | _ => none
  | .storeStart t =>
    match s.thread t with
    | .storeStart peek now => some { s.move t (.unlock peek) with windowStart := now }
    | .resetStart now => some { s.move t .resetUnlock with windowStart := now }
    | _ => none
  | .unlock t =>
    match s.thread t with
    | .unlock peek => some { s.move t (.afterReset peek) with mutex := none }
    | .resetUnlock => some { s.move t .idle with mutex := none }
    | _ => none
  | .fetchAdd t =>
    if s.thread t = .add then
      if s.count < s.maxRequests then
        some { s.move t .idle with count := fetchAdd s.count, allowed := s.allowed + 1 }
      else some { s.move t .undo with count := fetchAdd s.count }
    else none
  | .fetchSub t =>
    if s.thread t = .undo then
      some { s.move t .idle with
        count := fetchSub s.count
        wrapped := s.wrapped || decide (s.count = 0) }
    else none
  | .loadCount t => if s.thread t = .loadCount then some (s.move t .idle) else none
  | .reset t =>
    if s.thread t = .idle ∧ s.mutex = none then
      some { s.move t .resetCount with mutex := some t }
    else none
  | .resetNow t now =>
    if s.thread t = .resetNow ∧ s.clock ≤ now then
      some { s.move t (.resetStart now) with clock := now }
    else none

/-! ## The window -/

/-- What the limiter promises of a state. -/
structure WindowLaw (s : LoopyFixedWindow T) : Prop where
  allowed_le : s.allowed ≤ s.maxRequests
  no_wrap : s.wrapped = false
  /-- A check that is alone is denied only after `maxRequests` checks of its window. -/
  denied : ∀ t, s.thread t = .add → (∀ u ≠ t, (s.thread u).checking = false) →
    s.maxRequests ≤ s.count → s.allowed = s.maxRequests

/-- The counter is not reset while a check has still to undo its increment, and it does not run
out. -/
def NoRace (s : LoopyFixedWindow T) : Action T → Prop
  | .storeCount _ => NoneAt s.thread .undo
  | .fetchAdd _ => s.count + 1 < 2 ^ 64
  | _ => True

instance [Fintype T] (s : LoopyFixedWindow T) : ∀ a, Decidable (NoRace s a)
  | .storeCount _ => inferInstanceAs (Decidable (∀ t, s.thread t ≠ .undo))
  | .fetchAdd _ => inferInstanceAs (Decidable (s.count + 1 < 2 ^ 64))
  | .getNowMs .. | .loadStart _ | .lock _ | .recheck _ | .storeStart _ | .unlock _ | .fetchSub _
  | .loadCount _ | .reset _ | .resetNow .. => isTrue trivial

/-! ## What an action does -/

/-- The effect of an action that is no race, as far as the counter is concerned. -/
inductive Effect (s : LoopyFixedWindow T) : LoopyFixedWindow T → Prop
  | moves (t : T) (pc : Pc) (windowStart clock : UInt64) (mutex : Option T)
      (ht : s.thread t ≠ .undo) (hpc : pc ≠ .undo) :
      Effect s { s.move t pc with windowStart, clock, mutex }
  | resets (t : T) (pc : Pc) (hnone : NoneAt s.thread .undo) (hpc : pc ≠ .undo) :
      Effect s { s.move t pc with count := 0, allowed := 0 }
  | allows (t : T) (ht : s.thread t = .add) (hlt : s.count < s.maxRequests)
      (hfits : s.count + 1 < 2 ^ 64) :
      Effect s { s.move t .idle with count := s.count + 1, allowed := s.allowed + 1 }
  | denies (t : T) (ht : s.thread t = .add) (hfits : s.count + 1 < 2 ^ 64) :
      Effect s { s.move t .undo with count := s.count + 1 }
  | undoes (t : T) (ht : s.thread t = .undo) :
      Effect s { s.move t .idle with
        count := fetchSub s.count
        wrapped := s.wrapped || decide (s.count = 0) }

variable {s s' : LoopyFixedWindow T} {pc : Pc} {count : ℕ}

/-- A move that leaves the shared fields. -/
theorem Effect.moves' {t : T} {old : Pc} (ht : s.thread t = old) (hold : old ≠ .undo)
    (hpc : pc ≠ .undo) : Effect s (s.move t pc) := by
  subst ht
  exact .moves t pc s.windowStart s.clock s.mutex hold hpc

theorem Pc.afterReset_ne (peek : Bool) : Pc.afterReset peek ≠ .undo := by
  cases peek <;> exact Pc.noConfusion

theorem fetchAdd_eq (h : count + 1 < 2 ^ 64) : fetchAdd count = count + 1 :=
  Nat.mod_eq_of_lt h

theorem fetchSub_eq (hpos : 0 < count) (h : count < 2 ^ 64) : fetchSub count = count - 1 := by
  unfold fetchSub
  omega

theorem step_effect {a : Action T} (hok : NoRace s a) (hstep : step s a = some s') :
    Effect s s' := by
  cases a with
  | getNowMs t peek now =>
    obtain ⟨⟨ht, _⟩, rfl⟩ := of_guard hstep
    exact .moves t _ _ _ _ (by simp [ht]) Pc.noConfusion
  | loadStart t =>
    rw [step] at hstep
    split at hstep
    · next peek now ht =>
      cases hstep
      refine .moves' ht Pc.noConfusion ?_
      split
      · exact Pc.noConfusion
      · exact Pc.afterReset_ne peek
    · cases hstep
  | lock t =>
    rw [step] at hstep
    split at hstep
    · next peek now ht =>
      obtain ⟨_, rfl⟩ := of_guard hstep
      exact .moves t _ _ _ _ (by simp [ht]) Pc.noConfusion
    · cases hstep
  | recheck t =>
    rw [step] at hstep
    split at hstep
    · next peek now ht =>
      cases hstep
      refine .moves' ht Pc.noConfusion ?_
      split <;> exact Pc.noConfusion
    · cases hstep
  | storeCount t =>
    have hnone : NoneAt s.thread .undo := hok
    rw [step] at hstep
    cases ht : s.thread t with
    | storeCount peek now =>
      rw [ht] at hstep
      rw [← Option.some.inj hstep]
      exact .resets t _ hnone Pc.noConfusion
    | resetCount =>
      rw [ht] at hstep
      rw [← Option.some.inj hstep]
      exact .resets t _ hnone Pc.noConfusion
    | _ =>
      rw [ht] at hstep
      cases hstep
  | storeStart t =>
    rw [step] at hstep
    split at hstep
    · next peek now ht =>
      cases hstep
      exact .moves t _ _ _ _ (by simp [ht]) Pc.noConfusion
    · next now ht =>
      cases hstep
      exact .moves t _ _ _ _ (by simp [ht]) Pc.noConfusion
    · cases hstep
  | unlock t =>
    rw [step] at hstep
    split at hstep
    · next peek ht =>
      cases hstep
      exact .moves t _ _ _ _ (by simp [ht]) (Pc.afterReset_ne peek)
    · next ht =>
      cases hstep
      exact .moves t _ _ _ _ (by simp [ht]) Pc.noConfusion
    · cases hstep
  | fetchAdd t =>
    obtain ⟨ht, hstep⟩ := Option.ite_none_right_eq_some.mp hstep
    rw [fetchAdd_eq hok] at hstep
    split at hstep <;> cases hstep
    · next hlt => exact .allows t ht hlt hok
    · exact .denies t ht hok
  | fetchSub t =>
    obtain ⟨ht, rfl⟩ := of_guard hstep
    exact .undoes t ht
  | loadCount t =>
    obtain ⟨ht, rfl⟩ := of_guard hstep
    exact .moves' ht Pc.noConfusion Pc.noConfusion
  | reset t | resetNow t now =>
    obtain ⟨⟨ht, _⟩, rfl⟩ := of_guard hstep
    exact .moves t _ _ _ _ (by simp [ht]) Pc.noConfusion

/-! ## The counter counts the allowed checks and the increments to be undone -/

/-- The counter is the number of allowed checks and of the increments that are about to be taken
back. -/
structure WindowInv (s : LoopyFixedWindow T) : Prop where
  account : ∃ d, Total (fun t => (s.thread t).undone) d ∧ s.count = s.allowed + d
  allowed_le : s.allowed ≤ s.maxRequests
  count_lt : s.count < 2 ^ 64
  no_wrap : s.wrapped = false

/-- The increments to be taken back after a thread has moved. -/
theorem total_move {thread : T → Pc} {d : ℕ} (h : Total (fun t => (thread t).undone) d) (t : T)
    (pc : Pc) :
    Total (fun u => (Function.update thread t pc u).undone)
      (d - (thread t).undone + pc.undone) := by
  have hcomp : (fun u => (Function.update thread t pc u).undone) =
      Function.update (fun u => (thread u).undone) t pc.undone :=
    Function.comp_update Pc.undone thread t pc
  rw [hcomp]
  exact h.update t pc.undone

theorem Pc.undone_eq_zero (h : pc ≠ .undo) : pc.undone = 0 := by
  cases pc <;> first | rfl | exact absurd rfl h

theorem WindowInv.effect (h : WindowInv s) (he : Effect s s') : WindowInv s' := by
  obtain ⟨⟨d, htotal, hcount⟩, hle, hlt, hwrap⟩ := h
  cases he with
  | moves t pc windowStart clock mutex ht hpc =>
    have hmove := total_move htotal t pc
    rw [Pc.undone_eq_zero ht, Pc.undone_eq_zero hpc] at hmove
    exact ⟨⟨d, hmove, hcount⟩, hle, hlt, hwrap⟩
  | resets t pc hnone hpc =>
    -- nobody has to undo anything, so the new window begins at zero for all
    have hmove := total_move htotal t pc
    have hzero : d = 0 := htotal.eq_zero fun u => Pc.undone_eq_zero (hnone u)
    rw [Pc.undone_eq_zero (hnone t), Pc.undone_eq_zero hpc, hzero] at hmove
    exact ⟨⟨0, hmove, rfl⟩, Nat.zero_le _, Nat.two_pow_pos 64, hwrap⟩
  | allows t ht hroom hfits =>
    have hmove := total_move htotal t .idle
    rw [ht] at hmove
    refine ⟨⟨d, hmove, ?_⟩, ?_, hfits, hwrap⟩
    · show s.count + 1 = s.allowed + 1 + d
      omega
    · show s.allowed + 1 ≤ s.maxRequests
      omega
  | denies t ht hfits =>
    have hmove := total_move htotal t .undo
    rw [ht] at hmove
    refine ⟨⟨d + 1, hmove, ?_⟩, hle, hfits, hwrap⟩
    show s.count + 1 = s.allowed + (d + 1)
    omega
  | undoes t ht =>
    have hone : 1 ≤ d := by
      have hheld := htotal.le t
      rwa [ht] at hheld
    have hmove := total_move htotal t .idle
    rw [ht] at hmove
    have hsub : fetchSub s.count = s.count - 1 := fetchSub_eq (by omega) hlt
    refine ⟨⟨d - 1, hmove, ?_⟩, hle, ?_, ?_⟩
    · show fetchSub s.count = s.allowed + (d - 1)
      omega
    · show fetchSub s.count < 2 ^ 64
      omega
    · show (s.wrapped || decide (s.count = 0)) = false
      rw [hwrap, Bool.false_or, decide_eq_false_iff_not]
      omega

omit [DecidableEq T] in
theorem WindowInv.fresh (maxRequests : ℕ) (windowMs now : UInt64) :
    WindowInv (.fresh T maxRequests windowMs now) :=
  ⟨⟨0, Total.zero, rfl⟩, Nat.zero_le _, Nat.two_pow_pos 64, rfl⟩

omit [DecidableEq T] in
theorem WindowInv.law (h : WindowInv s) : WindowLaw s := by
  obtain ⟨⟨d, htotal, hcount⟩, hle, hlt, hwrap⟩ := h
  refine ⟨hle, hwrap, fun t ht halone hfull => ?_⟩
  have hzero : d = 0 := by
    refine htotal.eq_zero fun u => Pc.undone_eq_zero fun hu => ?_
    by_cases hut : u = t
    · rw [hut, ht] at hu
      cases hu
    · have hcheck := halone u hut
      rw [hu] at hcheck
      cases hcheck
  omega

/-- **The window is kept.** In every run in which no reset falls between a denied increment and its
undoing, at most `maxRequests` checks of a window are allowed, the counter does not wrap, and a
check that is alone is denied only after `maxRequests` allowed ones. -/
theorem window_kept (maxRequests : ℕ) (windowMs now : UInt64) (as : List (Action T))
    (s : LoopyFixedWindow T)
    (hrun : Run step NoRace (.fresh T maxRequests windowMs now) as s) : WindowLaw s :=
  have hinv : WindowInv s :=
    hrun.invariant (fun _ _ _ h hok hstep => h.effect (step_effect hok hstep))
      (.fresh maxRequests windowMs now)
  hinv.law

/-- One check is allowed, one is denied; then the window is over, and a third one is allowed. -/
def windowRun : List (Action (Fin 2)) :=
  [.getNowMs 0 false 5, .loadStart 0, .fetchAdd 0, .getNowMs 1 false 6, .loadStart 1,
    .getNowMs 0 false 10, .loadStart 0, .lock 0, .recheck 0, .fetchAdd 1, .fetchSub 1,
    .storeCount 0, .storeStart 0, .unlock 0, .fetchAdd 0, .reset 1, .storeCount 1]

theorem window_kept_windowRun :
    ∃ s, Run step NoRace (.fresh (Fin 2) 1 10 0) windowRun s ∧ WindowLaw s ∧
      s.windowStart = 10 := by
  have hexec : (exec step NoRace (.fresh (Fin 2) 1 10 0) windowRun).map
      (fun s => s.windowStart) = some 10 := by decide +kernel
  obtain ⟨s, hrun, hval⟩ := Run.of_exec_map hexec
  exact ⟨s, hrun, window_kept 1 10 0 windowRun s hrun, hval⟩

/-- The denied check of thread 1 takes its increment back from the window that thread 0 has just
begun. -/
theorem undo_after_reset :
    ¬ ∀ as (s : LoopyFixedWindow (Fin 2)),
      Run step (fun _ _ => True) (.fresh (Fin 2) 1 10 0) as s → WindowLaw s := by
  intro hall
  have hexec : (exec step (fun _ _ => True) (.fresh (Fin 2) 1 10 0)
      [.getNowMs 0 false 5, .loadStart 0, .fetchAdd 0, .getNowMs 1 false 6, .loadStart 1,
        .fetchAdd 1, .getNowMs 0 false 10, .loadStart 0, .lock 0, .recheck 0, .storeCount 0,
        .fetchSub 1]).map (fun s => s.wrapped) = some true := by decide +kernel
  obtain ⟨s, hs, hval⟩ := Run.of_exec_map hexec
  have hwrap := (hall _ s hs).no_wrap
  rw [hval] at hwrap
  cases hwrap

end Loopy.FixedWindow
