import Mathlib.Data.Rat.Floor
import Loopy.Lib.Budget
import Loopy.Lib.Run

/-!
# `loopyRateLimit.c`: the token bucket

A `double` is read as an exact rational, and the cast of one to `uint64_t` truncates. A call
holds the mutex from its first step to its last, so calls are atomic; each reads the monotone
clock once. The tokens are the level of a meter (`Loopy.Lib.Budget`): `Calls.step_meter`.
-/

namespace Loopy.RateLimit

/-- `MICROSECONDS_PER_SECOND`. -/
def MICROSECONDS_PER_SECOND : ℚ := 1000000

/-- `MILLISECONDS_PER_SECOND`. -/
def MILLISECONDS_PER_SECOND : ℚ := 1000

/-- A reading of `getNowUs` in seconds. -/
def seconds (us : ℕ) : ℚ := us / MICROSECONDS_PER_SECOND

/-- `loopyRateLimitResult`. -/
inductive LoopyRateLimitResult
  | allowed
  | error
  | denied
deriving DecidableEq, Repr

/-- `loopyRateLimitInfo`. -/
structure LoopyRateLimitInfo where
  allowed : Bool
  retryAfterMs : ℕ
  remaining : ℚ
  limit : ℚ
  resetMs : ℕ
deriving DecidableEq, Repr

/-- The result of a call whose test is `allowed`. -/
def LoopyRateLimitResult.of (allowed : Bool) : LoopyRateLimitResult :=
  if allowed then .allowed else .denied

/-- A call of a limiter whose requests have no cost, and what it reads from the clock. -/
inductive Call
  | check (now : ℕ)
  | peek (now : ℕ)
  | reset (now : ℕ)
deriving DecidableEq, Repr

/-- The clock of a call. -/
def Call.now : Call → ℕ
  | .check now | .peek now | .reset now => now

/-- Time between two readings. -/
theorem seconds_sub {t now : ℕ} (h : t ≤ now) :
    ((now - t : ℕ) : ℚ) / MICROSECONDS_PER_SECOND = seconds now - seconds t := by
  rw [seconds, seconds, Nat.cast_sub h, sub_div]

theorem elapsed_nonneg (us : ℕ) : 0 ≤ (us : ℚ) / MICROSECONDS_PER_SECOND := by
  have hpos : 0 < MICROSECONDS_PER_SECOND := by norm_num [MICROSECONDS_PER_SECOND]
  exact div_nonneg (Nat.cast_nonneg us) hpos.le

theorem seconds_mono {t now : ℕ} (h : t ≤ now) : seconds t ≤ seconds now := by
  have helapsed := elapsed_nonneg (now - t)
  rw [seconds_sub h] at helapsed
  linarith

end Loopy.RateLimit

namespace Loopy.TokenBucket

open Loopy.Lib Loopy.RateLimit

/-! ## The bucket -/

/-- `loopyTokenBucketConfig`. -/
structure LoopyTokenBucketConfig where
  capacity : ℚ
  refillRate : ℚ
  tokensPerRequest : ℚ
  initialTokens : ℚ

/-- `loopyTokenBucket`. -/
structure LoopyTokenBucket where
  tokens : ℚ
  capacity : ℚ
  refillRate : ℚ
  tokensPerRequest : ℚ
  lastRefillUs : ℕ
deriving DecidableEq, Repr

/-- `tokenBucketInit`. -/
def tokenBucketInit (config : LoopyTokenBucketConfig) (now : ℕ) : LoopyTokenBucket :=
  { capacity := config.capacity
    refillRate := config.refillRate
    tokensPerRequest := if config.tokensPerRequest > 0 then config.tokensPerRequest else 1
    tokens := if config.initialTokens ≥ 0 then config.initialTokens else config.capacity
    lastRefillUs := now }

/-- `tokenBucketRefill`. -/
def tokenBucketRefill (tb : LoopyTokenBucket) (now : ℕ) : LoopyTokenBucket :=
  let elapsedSec : ℚ := (now - tb.lastRefillUs : ℕ) / MICROSECONDS_PER_SECOND
  let newTokens : ℚ := elapsedSec * tb.refillRate
  { tb with tokens := min tb.capacity (tb.tokens + newTokens), lastRefillUs := now }

/-- The `info` that `tokenBucketCheck` and `tokenBucketPeek` fill for a request of this cost. -/
def LoopyTokenBucket.info (tb : LoopyTokenBucket) (actualCost : ℚ) : LoopyRateLimitInfo :=
  let allowed : Bool := tb.tokens ≥ actualCost
  { allowed
    remaining := tb.tokens
    limit := tb.capacity
    retryAfterMs :=
      if !allowed ∧ tb.refillRate > 0 then
        ⌊(actualCost - tb.tokens) / tb.refillRate * MILLISECONDS_PER_SECOND⌋₊
      else 0
    resetMs := 0 }

/-- `cost > 0 ? cost : tb->tokensPerRequest`. -/
def LoopyTokenBucket.actualCost (tb : LoopyTokenBucket) (cost : ℚ) : ℚ :=
  if cost > 0 then cost else tb.tokensPerRequest

/-- `tokenBucketCheck`. -/
def tokenBucketCheck (tb : LoopyTokenBucket) (cost : ℚ) (now : ℕ) :
    LoopyRateLimitResult × LoopyRateLimitInfo × LoopyTokenBucket :=
  let tb : LoopyTokenBucket := tokenBucketRefill tb now
  let actualCost : ℚ := tb.actualCost cost
  let allowed : Bool := tb.tokens ≥ actualCost
  (.of allowed, tb.info actualCost,
    if allowed then { tb with tokens := tb.tokens - actualCost } else tb)

/-- `tokenBucketPeek`. -/
def tokenBucketPeek (tb : LoopyTokenBucket) (now : ℕ) :
    LoopyRateLimitResult × LoopyRateLimitInfo × LoopyTokenBucket :=
  let tb : LoopyTokenBucket := tokenBucketRefill tb now
  (.of (tb.tokens ≥ tb.tokensPerRequest), tb.info tb.tokensPerRequest, tb)

/-- `tokenBucketReset`. -/
def tokenBucketReset (tb : LoopyTokenBucket) (now : ℕ) : LoopyTokenBucket :=
  { tb with tokens := tb.capacity, lastRefillUs := now }

/-! ## Sequences of calls -/

/-- A call and what it reads from the clock. -/
inductive Action
  | check (now : ℕ) (cost : ℚ)
  | peek (now : ℕ)
  | reset (now : ℕ)
deriving DecidableEq, Repr

/-- The clock of a call. -/
def Action.now : Action → ℕ
  | .check now _ | .peek now | .reset now => now

/-- A bucket and the record of its calls: when, the cost admitted, and whether it was a reset. -/
structure Calls where
  tb : LoopyTokenBucket
  charges : List (Charge ℚ)

/-- A new bucket. -/
def Calls.fresh (config : LoopyTokenBucketConfig) (now : ℕ) : Calls :=
  { tb := tokenBucketInit config now, charges := [] }

/-- One call at a clock that has not gone back. -/
def step (s : Calls) (a : Action) : Option Calls :=
  if s.tb.lastRefillUs ≤ a.now then
    match a with
    | .check now cost =>
      let (result, _, tb) := tokenBucketCheck s.tb cost now
      let admitted : ℚ := if result = .allowed then s.tb.actualCost cost else 0
      some { tb, charges := s.charges ++ [⟨seconds now, admitted, false⟩] }
    | .peek now =>
      let (_, _, tb) := tokenBucketPeek s.tb now
      some { tb, charges := s.charges ++ [⟨seconds now, 0, false⟩] }
    | .reset now =>
      some { tb := tokenBucketReset s.tb now
             charges := s.charges ++ [⟨seconds now, 0, true⟩] }
  else none

/-- What the token bucket promises of a sequence of calls. -/
structure BucketLaw (config : LoopyTokenBucketConfig) (s : Calls) : Prop where
  tokens_nonneg : 0 ≤ s.tb.tokens
  tokens_le : s.charges ≠ [] → s.tb.tokens ≤ config.capacity
  burst : ∀ t₁ t₂, t₁ ≤ t₂ → NoReset t₁ t₂ s.charges →
    spent t₁ t₂ s.charges ≤ config.capacity + config.refillRate * (t₂ - t₁)

/-! ## One call -/

section

variable {s s' : Calls} {a : Action} {tb : LoopyTokenBucket} {now : ℕ}

theorem tokenBucketRefill_nonneg (hcapacity : 0 ≤ tb.capacity) (hrate : 0 ≤ tb.refillRate)
    (htokens : 0 ≤ tb.tokens) : 0 ≤ (tokenBucketRefill tb now).tokens := by
  have hnew := mul_nonneg (elapsed_nonneg (now - tb.lastRefillUs)) hrate
  apply le_min hcapacity
  linarith

theorem tokenBucketRefill_le_capacity (tb : LoopyTokenBucket) (now : ℕ) :
    (tokenBucketRefill tb now).tokens ≤ tb.capacity := min_le_left _ _

theorem tokenBucketRefill_le (hnow : tb.lastRefillUs ≤ now) :
    (tokenBucketRefill tb now).tokens ≤
      tb.tokens + tb.refillRate * (seconds now - seconds tb.lastRefillUs) := by
  have hmin : (tokenBucketRefill tb now).tokens ≤ tb.tokens +
      ((now - tb.lastRefillUs : ℕ) : ℚ) / MICROSECONDS_PER_SECOND * tb.refillRate :=
    min_le_right _ _
  rw [seconds_sub hnow, mul_comm] at hmin
  exact hmin

/-- The bucket after a refill and a request of this cost. -/
def LoopyTokenBucket.take (tb : LoopyTokenBucket) (now : ℕ) (cost : ℚ) : LoopyTokenBucket :=
  { tokenBucketRefill tb now with tokens := (tokenBucketRefill tb now).tokens - cost }

/-- What a call does: it refills the bucket and takes a cost that the bucket has, or it resets
the bucket. -/
inductive Effect (s : Calls) : Calls → Prop
  | takes (now : ℕ) (cost : ℚ) (hnow : s.tb.lastRefillUs ≤ now) (hnonneg : 0 ≤ cost)
      (hcost : cost ≤ (tokenBucketRefill s.tb now).tokens) :
      Effect s ⟨s.tb.take now cost, s.charges ++ [⟨seconds now, cost, false⟩]⟩
  | resets (now : ℕ) (hnow : s.tb.lastRefillUs ≤ now) :
      Effect s ⟨tokenBucketReset s.tb now, s.charges ++ [⟨seconds now, 0, true⟩]⟩

theorem take_zero (tb : LoopyTokenBucket) (now : ℕ) : tb.take now 0 = tokenBucketRefill tb now := by
  rw [LoopyTokenBucket.take, sub_zero]

theorem actualCost_pos (hrequest : 0 < tb.tokensPerRequest) (cost : ℚ) :
    0 < tb.actualCost cost := by
  unfold LoopyTokenBucket.actualCost
  split
  · next hpos => exact hpos
  · exact hrequest

/-- A check takes its cost from the refilled bucket, or nothing. -/
theorem tokenBucketCheck_eq (tb : LoopyTokenBucket) (cost : ℚ) (now : ℕ) :
    (tb.actualCost cost ≤ (tokenBucketRefill tb now).tokens ∧
      (tokenBucketCheck tb cost now).1 = .allowed ∧
      (tokenBucketCheck tb cost now).2.2 = tb.take now (tb.actualCost cost)) ∨
    ((tokenBucketCheck tb cost now).1 = .denied ∧
      (tokenBucketCheck tb cost now).2.2 = tb.take now 0) := by
  by_cases hallowed : tb.actualCost cost ≤ (tokenBucketRefill tb now).tokens
  · have htrue : decide ((tokenBucketRefill tb now).tokens ≥
      (tokenBucketRefill tb now).actualCost cost) = true := decide_eq_true hallowed
    refine .inl ⟨hallowed, ?_, ?_⟩
    · simp only [tokenBucketCheck, LoopyRateLimitResult.of, htrue, if_true]
    · simp only [tokenBucketCheck, htrue, if_true]
      rfl
  · have hfalse : decide ((tokenBucketRefill tb now).tokens ≥
      (tokenBucketRefill tb now).actualCost cost) = false := decide_eq_false hallowed
    refine .inr ⟨?_, ?_⟩
    · simp only [tokenBucketCheck, LoopyRateLimitResult.of, hfalse, Bool.false_eq_true, if_false]
    · rw [take_zero]
      simp only [tokenBucketCheck, hfalse, Bool.false_eq_true, if_false]

theorem step_effect (hpos : ∀ now, 0 ≤ (tokenBucketRefill s.tb now).tokens)
    (hrequest : 0 < s.tb.tokensPerRequest) (hstep : step s a = some s') : Effect s s' := by
  obtain ⟨hnow, hstep⟩ := Option.ite_none_right_eq_some.mp hstep
  cases a with
  | check now cost =>
    cases hstep
    show Effect s ⟨(tokenBucketCheck s.tb cost now).2.2, s.charges ++ [⟨seconds now,
      if (tokenBucketCheck s.tb cost now).1 = .allowed then s.tb.actualCost cost else 0, false⟩]⟩
    rcases tokenBucketCheck_eq s.tb cost now with ⟨hcost, hresult, htb⟩ | ⟨hresult, htb⟩
    · rw [hresult, htb, if_pos rfl]
      exact .takes now _ hnow (actualCost_pos hrequest cost).le hcost
    · rw [hresult, htb, if_neg LoopyRateLimitResult.noConfusion]
      exact .takes now 0 hnow le_rfl (hpos now)
  | peek now =>
    cases hstep
    have hpeek := Effect.takes now 0 hnow le_rfl (hpos now)
    rw [take_zero] at hpeek
    exact hpeek
  | reset now =>
    cases hstep
    exact .resets now hnow

/-! ## The tokens are the level of a meter -/

/-- The bucket as a meter. -/
def Calls.meter (s : Calls) : Meter ℚ := ⟨seconds s.tb.lastRefillUs, s.tb.tokens, s.charges⟩

/-- The invariant of a bucket of this configuration. -/
structure BucketInv (config : LoopyTokenBucketConfig) (s : Calls) : Prop where
  capacity_eq : s.tb.capacity = config.capacity
  refillRate_eq : s.tb.refillRate = config.refillRate
  tokensPerRequest_pos : 0 < s.tb.tokensPerRequest
  tokens_le : s.charges ≠ [] → s.tb.tokens ≤ config.capacity
  metered : Metered config.refillRate (Set.Iic config.capacity) s.meter

/-- The rates and the capacity are not negative. -/
structure LoopyTokenBucketConfig.Nonneg (config : LoopyTokenBucketConfig) : Prop where
  capacity : 0 ≤ config.capacity
  refillRate : 0 ≤ config.refillRate

variable {config : LoopyTokenBucketConfig}

theorem BucketInv.refill_nonneg (h : BucketInv config s) (hconfig : config.Nonneg) (now : ℕ) :
    0 ≤ (tokenBucketRefill s.tb now).tokens := by
  apply tokenBucketRefill_nonneg
  · rw [h.capacity_eq]; exact hconfig.capacity
  · rw [h.refillRate_eq]; exact hconfig.refillRate
  · exact h.metered.level_nonneg

/-- A call is an operation on the meter. -/
theorem Effect.meter (h : BucketInv config s) (hconfig : config.Nonneg) (he : Effect s s') :
    Meter.Step config.refillRate (Set.Iic config.capacity) s.meter s'.meter := by
  cases he with
  | takes now cost hnow hnonneg hcost =>
    have hsum : cost + (s.tb.take now cost).tokens = (tokenBucketRefill s.tb now).tokens := by
      show cost + ((tokenBucketRefill s.tb now).tokens - cost) = _
      ring
    refine .charge (seconds now) cost _ (seconds_mono hnow) ?_ ?_ ?_
    · exact sub_nonneg.mpr hcost
    · rw [hsum, ← h.capacity_eq]
      exact tokenBucketRefill_le_capacity s.tb now
    · rw [hsum, ← h.refillRate_eq]
      exact tokenBucketRefill_le hnow
  | resets now hnow =>
    refine .reset (seconds now) _ (seconds_mono hnow) ?_
    show 0 ≤ s.tb.capacity
    rw [h.capacity_eq]
    exact hconfig.capacity

theorem BucketInv.step (h : BucketInv config s) (hconfig : config.Nonneg)
    (hstep : TokenBucket.step s a = some s') : BucketInv config s' := by
  have he := step_effect (h.refill_nonneg hconfig) h.tokensPerRequest_pos hstep
  have hmetered := h.metered.step hconfig.refillRate (he.meter h hconfig)
  cases he with
  | takes now cost hnow hnonneg hcost =>
    refine ⟨h.capacity_eq, h.refillRate_eq, h.tokensPerRequest_pos, fun _ => ?_, hmetered⟩
    have hcap := tokenBucketRefill_le_capacity s.tb now
    rw [h.capacity_eq] at hcap
    exact (sub_le_self _ hnonneg).trans hcap
  | resets now hnow =>
    exact ⟨h.capacity_eq, h.refillRate_eq, h.tokensPerRequest_pos, fun _ => h.capacity_eq.le,
      hmetered⟩

theorem BucketInv.fresh (hconfig : config.Nonneg) (now : ℕ) :
    BucketInv config (.fresh config now) := by
  refine ⟨rfl, rfl, ?_, fun h => absurd rfl h, Metered.fresh ?_⟩
  · show 0 < if config.tokensPerRequest > 0 then config.tokensPerRequest else 1
    split
    · next hpos => exact hpos
    · exact one_pos
  · show 0 ≤ if config.initialTokens ≥ 0 then config.initialTokens else config.capacity
    split
    · next hinitial => exact hinitial
    · exact hconfig.capacity

theorem BucketInv.law (h : BucketInv config s) (hconfig : config.Nonneg) : BucketLaw config s := by
  refine ⟨h.metered.level_nonneg, h.tokens_le, fun t₁ t₂ hle hno => ?_⟩
  have hspent := h.metered.spent_le hconfig.refillRate hconfig.capacity hle hno
  obtain ⟨full, hfull, hspent⟩ := hspent
  have hfull : full ≤ config.capacity := hfull
  exact hspent.trans (add_le_add_left hfull _)

/-- Every sequence of calls on a new bucket keeps the law. -/
theorem Calls.law {start : ℕ} {as : List Action} (hconfig : config.Nonneg)
    (hrun : Run step (fun _ _ => True) (.fresh config start) as s) : BucketLaw config s := by
  have hinv : BucketInv config s :=
    hrun.invariant (fun _ _ _ h _ hstep => h.step hconfig hstep) (.fresh hconfig start)
  exact hinv.law hconfig

end

end Loopy.TokenBucket
