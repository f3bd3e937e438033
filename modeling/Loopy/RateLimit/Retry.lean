import Loopy.RateLimit.Peek

/-!
# `loopyRateLimit.c`: the suggested retry time

A denied request is told when to come back. The fixed window is over at that time. The oldest entry
of a sliding window is not: the pruning keeps what is exactly `windowMs` old, and
`retryAfterMs` does not count that millisecond. A client that comes back as told is denied again
(`retry_works`).
-/

namespace Loopy.Limiter

open Loopy.Lib Loopy.RateLimit Loopy.SlidingWindow

/-! ## The sliding window -/

section

variable {sw : LoopySlidingWindow} {fw : LoopyFixedWindow} {now r : ℕ}

/-- After pruning the log is empty or its oldest entry is in the window. -/
theorem pruneLoop_oldest (cutoff left : ℕ) (hleft : sw.count = left) :
    (pruneLoop cutoff left sw).count = 0 ∨
      cutoff ≤ (pruneLoop cutoff left sw).entries (pruneLoop cutoff left sw).tail := by
  induction left generalizing sw with
  | zero => exact .inl hleft
  | succ left ih =>
    by_cases hkept : sw.entries sw.tail ≥ cutoff
    · rw [pruneLoop, if_pos hkept]
      exact .inr hkept
    · rw [pruneLoop, if_neg hkept]
      have hcount : sw.advance.count = left := by
        show sw.count - 1 = left
        omega
      exact ih hcount

/-- Nothing is pruned while the oldest entry is in the window. -/
theorem prune_eq_self (hkept : sw.cutoff now ≤ sw.entries sw.tail) :
    slidingWindowPrune sw now = sw := by
  unfold slidingWindowPrune
  cases sw.count with
  | zero => rfl
  | succ left => rw [pruneLoop, if_pos hkept]

/-- The time that a denied request is told: when the oldest entry is `windowMs` old, or now. -/
theorem retryAfterMs_le (sw : LoopySlidingWindow) (now : ℕ) (allowed : Bool) (resetMs : ℕ) :
    (sw.info now allowed resetMs).retryAfterMs = 0 ∨
      now + (sw.info now allowed resetMs).retryAfterMs ≤ sw.entries sw.tail + sw.windowMs := by
  have hmod := Nat.mod_le (sw.entries sw.tail + sw.windowMs) (2 ^ 64)
  unfold LoopySlidingWindow.info
  dsimp only
  split
  · split
    · exact .inr (by omega)
    · exact .inl rfl
  · exact .inl rfl

/-- A pruned window that denies a request denies it again at the suggested time. -/
theorem denied_again (hprune : slidingWindowPrune sw now = sw)
    (hdenied : (slidingWindowCheck sw now).1 ≠ .allowed)
    (holdest : sw.count = 0 ∨ sw.cutoff now ≤ sw.entries sw.tail)
    (hr : r = 0 ∨ now + r ≤ sw.entries sw.tail + sw.windowMs)
    (hmax : 0 < sw.maxRequests) (hcapacity : 0 < sw.capacity) :
    (slidingWindowCheck sw (now + r)).1 ≠ .allowed := by
  rw [Ne, slidingWindowCheck_allowed, hprune] at hdenied
  have hcount : 0 < sw.count := by omega
  -- at the suggested time the oldest entry is exactly `windowMs` old, and it is kept
  have hkept : sw.cutoff (now + r) ≤ sw.entries sw.tail := by
    have hcutoff := holdest.resolve_left hcount.ne'
    rw [cutoff_eq] at hcutoff ⊢
    omega
  rw [Ne, slidingWindowCheck_allowed, prune_eq_self hkept]
  exact hdenied

/-! ## The fixed window -/

theorem fixedWindowCheck_allowed (fw : LoopyFixedWindow) (now : ℕ) :
    (fixedWindowCheck fw now).1 = .allowed ↔
      (fixedWindowMaybeReset fw now).count < (fixedWindowMaybeReset fw now).maxRequests := by
  rw [fixedWindowCheck, result_of_eq_allowed, decide_eq_true_iff]

/-- A window that denies a request is not over. -/
theorem lt_windowEnd_of_denied (hmax : 0 < fw.maxRequests)
    (hdenied : (fixedWindowCheck fw now).1 ≠ .allowed) : now < fw.windowEnd := by
  by_contra hover
  apply hdenied
  rw [fixedWindowCheck_allowed, fixedWindowMaybeReset, if_pos (not_lt.mp hover)]
  exact hmax

/-- When the window is over, a request is allowed. -/
theorem allowed_of_windowEnd_le (hmax : 0 < fw.maxRequests) (hover : fw.windowEnd ≤ now) :
    (fixedWindowCheck fw now).1 = .allowed := by
  rw [fixedWindowCheck_allowed, fixedWindowMaybeReset, if_pos hover]
  exact hmax

/-- A window that is not over and has denied a request. -/
theorem fixedWindow_told (hnow : now < fw.windowEnd)
    (hdenied : (fixedWindowCheck fw now).1 ≠ .allowed) :
    (fixedWindowCheck fw now).2.1.retryAfterMs = fw.windowEnd - now ∧
      (fixedWindowCheck fw now).2.2.windowEnd = fw.windowEnd ∧
      (fixedWindowCheck fw now).2.2.maxRequests = fw.maxRequests ∧
      (fixedWindowPeek fw now).2.1.retryAfterMs = fw.windowEnd - now ∧
      (fixedWindowPeek fw now).2.2 = fw := by
  have hsame : fixedWindowMaybeReset fw now = fw := if_neg (not_le.mpr hnow)
  rw [Ne, fixedWindowCheck_allowed, hsame] at hdenied
  have hfalse : decide (fw.count < fw.maxRequests) = false := decide_eq_false hdenied
  have hend : ∀ count, ({ fw with count } : LoopyFixedWindow).windowEnd = fw.windowEnd :=
    fun _ => rfl
  simp [fixedWindowCheck, fixedWindowPeek, LoopyFixedWindow.info, hsame, hfalse, hend, hnow]

end

/-! ## Coming back -/

/-- A sliding or a fixed window that allows requests at all. -/
def LoopyRateLimiter.Windowed : LoopyRateLimiter → Prop
  | .slidingWindow sw => 0 < sw.maxRequests
  | .fixedWindow fw => 0 < fw.maxRequests
  | .tokenBucket _ | .leakyBucket _ => False

/-- The algorithm is the fixed window. -/
def LoopyRateLimiter.isFixedWindow : LoopyRateLimiter → Bool
  | .fixedWindow _ => true
  | _ => false

/-- A check or a peek reports `retryAfterMs` and leaves the limiter `left`. -/
inductive Told (limiter : LoopyRateLimiter) (us : ℕ) : ℕ → LoopyRateLimiter → Prop
  | check (cost : ℚ) : Told limiter us (loopyRateLimitCheck limiter cost us).2.1.retryAfterMs
      (loopyRateLimitCheck limiter cost us).2.2
  | peek : Told limiter us (loopyRateLimitPeek limiter us).2.1.retryAfterMs
      (loopyRateLimitPeek limiter us).2.2

section

variable {sw : LoopySlidingWindow} {fw : LoopyFixedWindow} {us r : ℕ} {left : LoopyRateLimiter}

/-- What is told of a sliding window that denies a request, and what is left of it. -/
theorem slidingWindow_told (htold : Told (.slidingWindow sw) us r left)
    (hdenied : (slidingWindowCheck sw (getNowMs us)).1 ≠ .allowed) :
    left = .slidingWindow (slidingWindowPrune sw (getNowMs us)) ∧
      (r = 0 ∨ getNowMs us + r ≤ (slidingWindowPrune sw (getNowMs us)).entries
        (slidingWindowPrune sw (getNowMs us)).tail +
          (slidingWindowPrune sw (getNowMs us)).windowMs) := by
  cases htold with
  | check cost =>
    have hfull := mt (slidingWindowCheck_allowed sw (getNowMs us)).mpr hdenied
    refine ⟨?_, retryAfterMs_le _ _ _ _⟩
    simp only [loopyRateLimitCheck, slidingWindowCheck, decide_eq_false hfull, Bool.false_eq_true,
      if_false]
  | peek => exact ⟨rfl, retryAfterMs_le _ _ _ _⟩

theorem slidingWindow_denied_again (hwf : sw.Wf) (hmax : 0 < sw.maxRequests)
    (hsorted : sw.logged.Pairwise (· ≤ ·)) (htold : Told (.slidingWindow sw) us r left)
    (hdenied : (slidingWindowCheck sw (getNowMs us)).1 ≠ .allowed) {later : ℕ}
    (hlater : getNowMs later = getNowMs us + r) (cost : ℚ) :
    (loopyRateLimitCheck left cost later).1 ≠ .allowed := by
  obtain ⟨rfl, hr⟩ := slidingWindow_told htold hdenied
  obtain ⟨hwf', hsame, _⟩ := slidingWindowPrune_spec hwf hsorted (getNowMs us)
  have hprune : slidingWindowPrune (slidingWindowPrune sw (getNowMs us)) (getNowMs us) =
      slidingWindowPrune sw (getNowMs us) := prune_prune le_rfl
  show (slidingWindowCheck (slidingWindowPrune sw (getNowMs us)) (getNowMs later)).1 ≠ _
  rw [hlater]
  apply denied_again hprune
  · rw [Ne, slidingWindowCheck_allowed, hprune, ← slidingWindowCheck_allowed]
    exact hdenied
  · rw [cutoff_prune]
    exact pruneLoop_oldest (sw.cutoff (getNowMs us)) sw.count rfl
  · exact hr
  · rw [hsame.maxRequests]
    exact hmax
  · exact Nat.zero_lt_of_lt hwf'.tail_lt

theorem fixedWindow_allowed (hmax : 0 < fw.maxRequests) (htold : Told (.fixedWindow fw) us r left)
    (hdenied : (fixedWindowCheck fw (getNowMs us)).1 ≠ .allowed) {later : ℕ}
    (hlater : getNowMs later = getNowMs us + r) (cost : ℚ) :
    (loopyRateLimitCheck left cost later).1 = .allowed := by
  have hnow := lt_windowEnd_of_denied hmax hdenied
  obtain ⟨hcheck, hend, hsame, hpeek, hleft⟩ := fixedWindow_told hnow hdenied
  cases htold with
  | check cost' =>
    show (fixedWindowCheck (fixedWindowCheck fw (getNowMs us)).2.2 (getNowMs later)).1 = .allowed
    apply allowed_of_windowEnd_le
    · rw [hsame]
      exact hmax
    · have hr : (loopyRateLimitCheck (.fixedWindow fw) cost' us).2.1.retryAfterMs =
          fw.windowEnd - getNowMs us := hcheck
      rw [hend, hlater, hr]
      omega
  | peek =>
    show (fixedWindowCheck (fixedWindowPeek fw (getNowMs us)).2.2 (getNowMs later)).1 = .allowed
    apply allowed_of_windowEnd_le
    · rw [hleft]
      exact hmax
    · have hr : (loopyRateLimitPeek (.fixedWindow fw) us).2.1.retryAfterMs =
          fw.windowEnd - getNowMs us := hpeek
      rw [hleft, hlater, hr]
      omega

end

/-- **The suggested retry time works for fixed windows and never for sliding ones.** A window
limiter of any run denies a request and tells, in that check or in a peek at the same time, when to
come back; with no other request in between, the check at that time is allowed exactly if the
window is a fixed one. -/
theorem retry_works (config : LoopyRateLimiterConfig) (start : ℕ) (as : List Request) (s : Limited)
    (hrun : Run step (fun _ _ => True) (.fresh config start) as s)
    (hwindow : s.limiter.Windowed) (us : ℕ) (cost : ℚ)
    (hdenied : (loopyRateLimitCheck s.limiter cost us).1 ≠ .allowed) (r : ℕ)
    (left : LoopyRateLimiter) (htold : Told s.limiter us r left) (later : ℕ)
    (hlater : getNowMs later = getNowMs us + r) :
    (loopyRateLimitCheck left cost later).1 = .allowed ↔ s.limiter.isFixedWindow = true := by
  have hinv := LimiterInv.run hrun
  obtain ⟨limiter, clock⟩ := s
  cases limiter with
  | tokenBucket tb => exact hwindow.elim
  | leakyBucket lb => exact hwindow.elim
  | slidingWindow sw =>
    have hlogged : Logged sw (getNowMs clock) := hinv
    refine iff_of_false ?_ Bool.noConfusion
    exact slidingWindow_denied_again hlogged.wf hwindow hlogged.sorted htold hdenied hlater cost
  | fixedWindow fw =>
    exact iff_of_true (fixedWindow_allowed hwindow htold hdenied hlater cost) rfl

/-- One request in a window of 10 ms, and a second one that is told to come back after 6 ms. -/
theorem retry_works_fixed : ∃ s left,
    Run step (fun _ _ => True) (.fresh (.fixedWindow ⟨10, 1⟩) 0) [.check 0 0] s ∧
      Told s.limiter 4000 6 left ∧ (loopyRateLimitCheck left 0 10000).1 = .allowed := by
  let s : Limited := ⟨.fixedWindow ⟨1, 0, 10, 1⟩, 0⟩
  have hrun : Run step (fun _ _ => True) (.fresh (.fixedWindow ⟨10, 1⟩) 0) [.check 0 0] s :=
    .single trivial rfl
  have htold : Told s.limiter 4000 6 s.limiter := .check 0
  have hworks := retry_works (.fixedWindow ⟨10, 1⟩) 0 [.check 0 0] s hrun Nat.one_pos 4000 0
    (by decide +kernel) 6 s.limiter htold 10000 (by decide)
  exact ⟨s, s.limiter, hrun, htold, hworks.mpr rfl⟩

/-- The oldest request is at 0, the second one is told to come back after 6 ms and comes in vain. -/
theorem retry_denied :
    let s := (loopyRateLimitCheck (loopyRateLimiterNew (.slidingWindow ⟨10, 1, 1⟩) 0) 0 0).2.2
    (loopyRateLimitCheck s 0 4000).1 = .denied ∧
      (loopyRateLimitCheck s 0 4000).2.1.retryAfterMs = 6 ∧
      (loopyRateLimitCheck (loopyRateLimitCheck s 0 4000).2.2 0 10000).1 = .denied := by
  decide +kernel

end Loopy.Limiter
