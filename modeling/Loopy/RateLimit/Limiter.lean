import Loopy.RateLimit.Concurrency
import Loopy.RateLimit.LeakyBucket
import Loopy.RateLimit.SlidingWindow

/-!
# `loopyRateLimit.c`: a limiter and its calls

`loopyRateLimitCheck`, `loopyRateLimitPeek` and `loopyRateLimitReset` over the four algorithms, one
call at a time; the fixed window is here as these calls see it. A call happens at one reading of
`getNowUs`. The limiter is not `NULL`, and its statistics are left out: no call reads them.

Every algorithm tests a request twice, in its check and in its peek. For the sliding window the
tests differ: `peek_predicts`.
-/

namespace Loopy.Limiter

open Loopy.Lib Loopy.RateLimit Loopy.TokenBucket Loopy.SlidingWindow Loopy.LeakyBucket

/-! ## The fixed window -/

/-- `getNowMs` at a reading of `getNowUs`. -/
def getNowMs (us : ℕ) : ℕ := us / 1000

/-- `loopyFixedWindowConfig`. -/
structure LoopyFixedWindowConfig where
  windowMs : ℕ
  maxRequests : ℕ

/-- `loopyFixedWindow`. -/
structure LoopyFixedWindow where
  count : ℕ
  windowStart : ℕ
  windowMs : ℕ
  maxRequests : ℕ
deriving DecidableEq, Repr

/-- `fixedWindowInit`. -/
def fixedWindowInit (config : LoopyFixedWindowConfig) (now : ℕ) : LoopyFixedWindow :=
  { count := 0
    windowStart := now
    windowMs := config.windowMs
    maxRequests := config.maxRequests }

/-- `windowStart + fw->windowMs`. -/
def LoopyFixedWindow.windowEnd (fw : LoopyFixedWindow) : ℕ :=
  (fw.windowStart + fw.windowMs) % 2 ^ 64

/-- `fixedWindowMaybeReset`; under the lock nothing has changed. -/
def fixedWindowMaybeReset (fw : LoopyFixedWindow) (now : ℕ) : LoopyFixedWindow :=
  if now ≥ fw.windowEnd then { fw with count := 0, windowStart := now } else fw

/-- The `info` that `fixedWindowCheck` and `fixedWindowPeek` fill. -/
def LoopyFixedWindow.info (fw : LoopyFixedWindow) (now : ℕ) (allowed : Bool) (remaining : ℕ) :
    LoopyRateLimitInfo :=
  let resetMs : ℕ := if fw.windowEnd > now then fw.windowEnd - now else 0
  { allowed
    remaining := remaining
    limit := fw.maxRequests
    resetMs
    retryAfterMs := if allowed then 0 else resetMs }

/-- `fixedWindowCheck`. -/
def fixedWindowCheck (fw : LoopyFixedWindow) (now : ℕ) :
    LoopyRateLimitResult × LoopyRateLimitInfo × LoopyFixedWindow :=
  let fw : LoopyFixedWindow := fixedWindowMaybeReset fw now
  let count : ℕ := fw.count
  let allowed : Bool := count < fw.maxRequests
  -- a request is counted first, and taken back if it is denied
  let added : LoopyFixedWindow := { fw with count := fetchAdd count }
  let left : LoopyFixedWindow :=
    if allowed then added else { added with count := fetchSub added.count }
  (.of allowed, left.info now allowed (if allowed then left.maxRequests - count - 1 else 0), left)

/-- `fixedWindowPeek`. -/
def fixedWindowPeek (fw : LoopyFixedWindow) (now : ℕ) :
    LoopyRateLimitResult × LoopyRateLimitInfo × LoopyFixedWindow :=
  let fw : LoopyFixedWindow := fixedWindowMaybeReset fw now
  let allowed : Bool := fw.count < fw.maxRequests
  let remaining : ℕ := if fw.maxRequests > fw.count then fw.maxRequests - fw.count else 0
  (.of allowed, fw.info now allowed remaining, fw)

/-- `fixedWindowReset`. -/
def fixedWindowReset (fw : LoopyFixedWindow) (now : ℕ) : LoopyFixedWindow :=
  { fw with count := 0, windowStart := now }

/-! ## The limiter -/

/-- `loopyRateLimiterConfig`. -/
inductive LoopyRateLimiterConfig
  | tokenBucket (config : LoopyTokenBucketConfig)
  | slidingWindow (config : LoopySlidingWindowConfig)
  | leakyBucket (config : LoopyLeakyBucketConfig)
  | fixedWindow (config : LoopyFixedWindowConfig)

/-- `loopyRateLimiter`. -/
inductive LoopyRateLimiter
  | tokenBucket (tb : LoopyTokenBucket)
  | slidingWindow (sw : LoopySlidingWindow)
  | leakyBucket (lb : LoopyLeakyBucket)
  | fixedWindow (fw : LoopyFixedWindow)

/-- `loopyRateLimiterNew`. -/
def loopyRateLimiterNew (config : LoopyRateLimiterConfig) (us : ℕ) : LoopyRateLimiter :=
  match config with
  | .tokenBucket config => .tokenBucket (tokenBucketInit config us)
  | .slidingWindow config => .slidingWindow (slidingWindowInit config)
  | .leakyBucket config => .leakyBucket (leakyBucketInit config us)
  | .fixedWindow config => .fixedWindow (fixedWindowInit config (getNowMs us))

/-- `loopyRateLimitCheck`, with the `info` of the algorithm. -/
def loopyRateLimitCheck (limiter : LoopyRateLimiter) (cost : ℚ) (us : ℕ) :
    LoopyRateLimitResult × LoopyRateLimitInfo × LoopyRateLimiter :=
  match limiter with
  | .tokenBucket tb =>
    let (result, info, tb) := tokenBucketCheck tb cost us
    (result, info, .tokenBucket tb)
  | .slidingWindow sw =>
    let (result, info, sw) := slidingWindowCheck sw (getNowMs us)
    (result, info, .slidingWindow sw)
  | .leakyBucket lb =>
    let (result, info, lb) := leakyBucketCheck lb us
    (result, info, .leakyBucket lb)
  | .fixedWindow fw =>
    let (result, info, fw) := fixedWindowCheck fw (getNowMs us)
    (result, info, .fixedWindow fw)

/-- `loopyRateLimitPeek`. -/
def loopyRateLimitPeek (limiter : LoopyRateLimiter) (us : ℕ) :
    LoopyRateLimitResult × LoopyRateLimitInfo × LoopyRateLimiter :=
  match limiter with
  | .tokenBucket tb =>
    let (result, info, tb) := tokenBucketPeek tb us
    (result, info, .tokenBucket tb)
  | .slidingWindow sw =>
    let (result, info, sw) := slidingWindowPeek sw (getNowMs us)
    (result, info, .slidingWindow sw)
  | .leakyBucket lb =>
    let (result, info, lb) := leakyBucketPeek lb us
    (result, info, .leakyBucket lb)
  | .fixedWindow fw =>
    let (result, info, fw) := fixedWindowPeek fw (getNowMs us)
    (result, info, .fixedWindow fw)

/-- `loopyRateLimitReset`. -/
def loopyRateLimitReset (limiter : LoopyRateLimiter) (us : ℕ) : LoopyRateLimiter :=
  match limiter with
  | .tokenBucket tb => .tokenBucket (tokenBucketReset tb us)
  | .slidingWindow sw => .slidingWindow (slidingWindowReset sw)
  | .leakyBucket lb => .leakyBucket (leakyBucketReset lb us)
  | .fixedWindow fw => .fixedWindow (fixedWindowReset fw (getNowMs us))

/-! ## Sequences of calls -/

/-- A call and what it reads from the clock. -/
inductive Request
  | check (us : ℕ) (cost : ℚ)
  | peek (us : ℕ)
  | reset (us : ℕ)
deriving DecidableEq, Repr

/-- The clock of a call. -/
def Request.us : Request → ℕ
  | .check us _ | .peek us | .reset us => us

/-- What a call leaves of the limiter. -/
def Request.apply (limiter : LoopyRateLimiter) : Request → LoopyRateLimiter
  | .check us cost => (loopyRateLimitCheck limiter cost us).2.2
  | .peek us => (loopyRateLimitPeek limiter us).2.2
  | .reset us => loopyRateLimitReset limiter us

/-- A limiter and the clock of its last call. -/
structure Limited where
  limiter : LoopyRateLimiter
  clock : ℕ

/-- A new limiter. -/
def Limited.fresh (config : LoopyRateLimiterConfig) (us : ℕ) : Limited :=
  { limiter := loopyRateLimiterNew config us, clock := us }

/-- One call at a clock that has not gone back. -/
def step (s : Limited) (a : Request) : Option Limited :=
  if s.clock ≤ a.us then some { limiter := a.apply s.limiter, clock := a.us } else none

/-! ## What every call keeps -/

/-- The log of a window is sorted, and no time of it is to come. -/
structure Logged (sw : LoopySlidingWindow) (now : ℕ) : Prop where
  wf : sw.Wf
  sorted : sw.logged.Pairwise (· ≤ ·)
  le_now : ∀ t ∈ sw.logged, t ≤ now

/-- The drain of a bucket that is not yet whole. -/
structure Drained (lb : LoopyLeakyBucket) (us : ℕ) : Prop where
  le_now : lb.lastDrainUs ≤ us
  partialDrain_lt : lb.partialDrain < 1
  partialDrain_nonneg : 0 ≤ lb.drainRate → 0 ≤ lb.partialDrain

/-- The invariant of a limiter. -/
def LimiterInv (s : Limited) : Prop :=
  match s.limiter with
  | .tokenBucket tb => tb.lastRefillUs ≤ s.clock
  | .slidingWindow sw => Logged sw (getNowMs s.clock)
  | .leakyBucket lb => Drained lb s.clock
  | .fixedWindow _ => True

section

variable {s s' : Limited} {a : Request} {sw : LoopySlidingWindow} {lb : LoopyLeakyBucket}
  {now us : ℕ}

theorem getNowMs_mono {us us' : ℕ} (h : us ≤ us') : getNowMs us ≤ getNowMs us' :=
  Nat.div_le_div_right h

theorem Logged.prune (h : Logged sw now) {later : ℕ} (hle : now ≤ later) :
    Logged (slidingWindowPrune sw later) later := by
  obtain ⟨hwf, _, hlogged⟩ := slidingWindowPrune_spec h.wf h.sorted later
  refine ⟨hwf, ?_, fun t ht => ?_⟩
  · rw [hlogged]
    exact h.sorted.filter _
  · rw [hlogged] at ht
    exact (h.le_now t (List.mem_of_mem_filter ht)).trans hle

theorem Logged.log (h : Logged sw now) (hlt : sw.count < sw.capacity) : Logged (sw.log now) now := by
  obtain ⟨hwf, hlogged⟩ := log_spec h.wf hlt now
  refine ⟨hwf, ?_, fun t ht => ?_⟩
  · rw [hlogged]
    refine List.pairwise_append.mpr ⟨h.sorted, List.pairwise_singleton _ _, fun t ht u hu => ?_⟩
    rw [List.mem_singleton.mp hu]
    exact h.le_now t ht
  · rw [hlogged] at ht
    rcases List.mem_append.mp ht with ht | ht
    · exact h.le_now t ht
    · exact (List.mem_singleton.mp ht).le

/-- A check prunes, and it may log its time. -/
theorem slidingWindowCheck_left (sw : LoopySlidingWindow) (now : ℕ) :
    (slidingWindowCheck sw now).2.2 = slidingWindowPrune sw now ∨
      (slidingWindowPrune sw now).count < (slidingWindowPrune sw now).capacity ∧
        (slidingWindowCheck sw now).2.2 = (slidingWindowPrune sw now).log now := by
  unfold slidingWindowCheck
  dsimp only
  split
  · next hallowed =>
    exact .inr ⟨(of_decide_eq_true hallowed).2, rfl⟩
  · exact .inl rfl

theorem Logged.check (h : Logged sw now) {later : ℕ} (hle : now ≤ later) :
    Logged (slidingWindowCheck sw later).2.2 later := by
  have hprune := h.prune hle
  rcases slidingWindowCheck_left sw later with hleft | ⟨hlt, hleft⟩
  · rw [hleft]
    exact hprune
  · rw [hleft]
    exact hprune.log hlt

theorem Logged.reset (h : Logged sw now) {later : ℕ} : Logged (slidingWindowReset sw) later := by
  have hpos : 0 < sw.capacity := Nat.zero_lt_of_lt h.wf.tail_lt
  refine ⟨⟨hpos, Nat.zero_le _, (Nat.zero_mod _).symm⟩, .nil, fun t ht => ?_⟩
  cases ht

theorem Drained.drain (h : Drained lb us) (later : ℕ) :
    Drained (leakyBucketDrain lb later) later := by
  refine ⟨le_rfl, ?_, fun hrate => ?_⟩
  · have hlt := Nat.lt_floor_add_one (lb.drainAmount later)
    show lb.drainAmount later - ⌊lb.drainAmount later⌋₊ < 1
    linarith
  · exact sub_nonneg.mpr (Nat.floor_le (drainAmount_nonneg (h.partialDrain_nonneg hrate) hrate))

theorem Drained.check (h : Drained lb us) (later : ℕ) :
    Drained (leakyBucketCheck lb later).2.2 later := by
  have hdrain := h.drain later
  unfold leakyBucketCheck
  dsimp only
  split
  · exact ⟨hdrain.le_now, hdrain.partialDrain_lt, hdrain.partialDrain_nonneg⟩
  · exact hdrain

theorem tokenBucketCheck_lastRefillUs (tb : LoopyTokenBucket) (cost : ℚ) (us : ℕ) :
    (tokenBucketCheck tb cost us).2.2.lastRefillUs = us := by
  unfold tokenBucketCheck
  dsimp only
  split <;> rfl

theorem LimiterInv.step (h : LimiterInv s) (hstep : Limiter.step s a = some s') :
    LimiterInv s' := by
  obtain ⟨hus, rfl⟩ := of_guard hstep
  obtain ⟨limiter, clock⟩ := s
  cases limiter with
  | tokenBucket tb =>
    cases a with
    | check us cost => exact (tokenBucketCheck_lastRefillUs tb cost us).le
    | peek us => exact le_rfl (a := us)
    | reset us => exact le_rfl (a := us)
  | slidingWindow sw =>
    have hlogged : Logged sw (getNowMs clock) := h
    have hle := getNowMs_mono hus
    cases a with
    | check us cost => exact hlogged.check hle
    | peek us => exact hlogged.prune hle
    | reset us => exact hlogged.reset
  | leakyBucket lb =>
    have hdrained : Drained lb clock := h
    cases a with
    | check us cost => exact hdrained.check us
    | peek us => exact hdrained.drain us
    | reset us => exact ⟨le_rfl, one_pos, fun _ => le_rfl⟩
  | fixedWindow fw => cases a <;> trivial

theorem LimiterInv.fresh (config : LoopyRateLimiterConfig) (us : ℕ) :
    LimiterInv (.fresh config us) := by
  cases config with
  | tokenBucket config => exact le_rfl (a := us)
  | slidingWindow config =>
    have hinv := WindowInv.fresh config
    refine ⟨hinv.wf, .nil, fun t ht => ?_⟩
    cases ht
  | leakyBucket config => exact ⟨le_rfl, one_pos, fun _ => le_rfl⟩
  | fixedWindow config => trivial

theorem LimiterInv.run {ok : Limited → Request → Prop} {config : LoopyRateLimiterConfig}
    {start : ℕ} {as : List Request} (hrun : Run Limiter.step ok (.fresh config start) as s) :
    LimiterInv s :=
  hrun.invariant (fun _ _ _ h _ hstep => h.step hstep) (.fresh config start)

end

end Loopy.Limiter
