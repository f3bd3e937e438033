import Loopy.RateLimit.TokenBucket

/-!
# `loopyRateLimit.c`: the leaky bucket, and the burst bounds

The numbers and the calls are read as for the token bucket; the cast to `size_t` truncates for
a drain of `2 ^ 64` and more too, which C leaves open. The room in the queue and the drain that
is not yet whole are together the level of a meter (`step_meter`): an operation finds less than
`queueCapacity + 1` in it.
-/

namespace Loopy.LeakyBucket

open Loopy.Lib Loopy.RateLimit

/-! ## The bucket -/

/-- `loopyLeakyBucketConfig`. -/
structure LoopyLeakyBucketConfig where
  drainRate : ℚ
  queueCapacity : ℕ

/-- `loopyLeakyBucket`. -/
structure LoopyLeakyBucket where
  queueSize : ℕ
  queueCapacity : ℕ
  drainRate : ℚ
  lastDrainUs : ℕ
  partialDrain : ℚ
deriving DecidableEq, Repr

/-- `leakyBucketInit`. -/
def leakyBucketInit (config : LoopyLeakyBucketConfig) (now : ℕ) : LoopyLeakyBucket :=
  { queueSize := 0
    queueCapacity := config.queueCapacity
    drainRate := config.drainRate
    lastDrainUs := now
    partialDrain := 0 }

/-- `drainAmount` of `leakyBucketDrain`. -/
def LoopyLeakyBucket.drainAmount (lb : LoopyLeakyBucket) (now : ℕ) : ℚ :=
  let elapsedSec : ℚ := (now - lb.lastDrainUs : ℕ) / MICROSECONDS_PER_SECOND
  elapsedSec * lb.drainRate + lb.partialDrain

/-- `leakyBucketDrain`. The cast of `drainAmount` to `size_t` is its floor here, without a bound;
in C it is undefined from `2 ^ 64` on. -/
def leakyBucketDrain (lb : LoopyLeakyBucket) (now : ℕ) : LoopyLeakyBucket :=
  let wholeDrain : ℕ := ⌊lb.drainAmount now⌋₊
  { lb with
    partialDrain := lb.drainAmount now - wholeDrain
    queueSize := if wholeDrain > lb.queueSize then 0 else lb.queueSize - wholeDrain
    lastDrainUs := now }

/-- The `info` that `leakyBucketCheck` and `leakyBucketPeek` fill, up to `resetMs`. -/
def LoopyLeakyBucket.info (lb : LoopyLeakyBucket) (resetMs : ℕ) : LoopyRateLimitInfo :=
  let allowed : Bool := lb.queueSize < lb.queueCapacity
  { allowed
    remaining := (lb.queueCapacity - lb.queueSize : ℕ)
    limit := lb.queueCapacity
    retryAfterMs :=
      if !allowed ∧ lb.drainRate > 0 then ⌊1 / lb.drainRate * MILLISECONDS_PER_SECOND⌋₊ else 0
    resetMs }

/-- `leakyBucketCheck`. -/
def leakyBucketCheck (lb : LoopyLeakyBucket) (now : ℕ) :
    LoopyRateLimitResult × LoopyRateLimitInfo × LoopyLeakyBucket :=
  let lb : LoopyLeakyBucket := leakyBucketDrain lb now
  let allowed : Bool := lb.queueSize < lb.queueCapacity
  let resetMs : ℕ :=
    if lb.queueSize > 0 ∧ lb.drainRate > 0 then
      ⌊lb.queueSize / lb.drainRate * MILLISECONDS_PER_SECOND⌋₊
    else 0
  (.of allowed, lb.info resetMs, if allowed then { lb with queueSize := lb.queueSize + 1 } else lb)

/-- `leakyBucketPeek`. -/
def leakyBucketPeek (lb : LoopyLeakyBucket) (now : ℕ) :
    LoopyRateLimitResult × LoopyRateLimitInfo × LoopyLeakyBucket :=
  let lb : LoopyLeakyBucket := leakyBucketDrain lb now
  (.of (lb.queueSize < lb.queueCapacity), lb.info 0, lb)

/-- `leakyBucketReset`. -/
def leakyBucketReset (lb : LoopyLeakyBucket) (now : ℕ) : LoopyLeakyBucket :=
  { lb with queueSize := 0, partialDrain := 0, lastDrainUs := now }

/-! ## Sequences of calls -/

/-- A bucket and the record of its calls; an admitted request is a cost of 1. -/
structure Calls where
  lb : LoopyLeakyBucket
  charges : List (Charge ℚ)

/-- A new bucket. -/
def Calls.fresh (config : LoopyLeakyBucketConfig) (now : ℕ) : Calls :=
  { lb := leakyBucketInit config now, charges := [] }

/-- One call at a clock that has not gone back. -/
def step (s : Calls) (a : Call) : Option Calls :=
  if s.lb.lastDrainUs ≤ a.now then
    match a with
    | .check now =>
      let (result, _, lb) := leakyBucketCheck s.lb now
      let admitted : ℚ := if result = .allowed then 1 else 0
      some { lb, charges := s.charges ++ [⟨seconds now, admitted, false⟩] }
    | .peek now =>
      let (_, _, lb) := leakyBucketPeek s.lb now
      some { lb, charges := s.charges ++ [⟨seconds now, 0, false⟩] }
    | .reset now =>
      some { lb := leakyBucketReset s.lb now
             charges := s.charges ++ [⟨seconds now, 0, true⟩] }
  else none

/-- What the leaky bucket promises of a sequence of calls. -/
structure BucketLaw (config : LoopyLeakyBucketConfig) (s : Calls) : Prop where
  queueSize_le : s.lb.queueSize ≤ config.queueCapacity
  partialDrain_nonneg : 0 ≤ s.lb.partialDrain
  partialDrain_lt : s.lb.partialDrain < 1
  burst : ∀ t₁ t₂, t₁ ≤ t₂ → NoReset t₁ t₂ s.charges →
    spent t₁ t₂ s.charges < config.queueCapacity + config.drainRate * (t₂ - t₁) + 1

/-! ## One call -/

section

variable {s s' : Calls} {a : Call} {lb : LoopyLeakyBucket} {now : ℕ}

/-- The room in the queue and the drain that is not yet whole. -/
def LoopyLeakyBucket.credit (lb : LoopyLeakyBucket) : ℚ :=
  lb.queueCapacity - lb.queueSize + lb.partialDrain

/-- The queue fits and the rest of the drain is a fraction. -/
structure LoopyLeakyBucket.Wf (lb : LoopyLeakyBucket) : Prop where
  queueSize_le : lb.queueSize ≤ lb.queueCapacity
  partialDrain_nonneg : 0 ≤ lb.partialDrain
  partialDrain_lt : lb.partialDrain < 1

theorem credit_nonneg (h : lb.Wf) : 0 ≤ lb.credit := by
  have hle : (lb.queueSize : ℚ) ≤ lb.queueCapacity := Nat.cast_le.mpr h.queueSize_le
  have hfrac := h.partialDrain_nonneg
  unfold LoopyLeakyBucket.credit
  linarith

theorem credit_lt (h : lb.Wf) : lb.credit < lb.queueCapacity + 1 := by
  have hsize : (0 : ℚ) ≤ lb.queueSize := Nat.cast_nonneg _
  have hfrac := h.partialDrain_lt
  unfold LoopyLeakyBucket.credit
  linarith

theorem drainAmount_nonneg (hfrac : 0 ≤ lb.partialDrain) (hrate : 0 ≤ lb.drainRate) :
    0 ≤ lb.drainAmount now :=
  add_nonneg (mul_nonneg (elapsed_nonneg _) hrate) hfrac

theorem leakyBucketDrain_wf (h : lb.Wf) (hrate : 0 ≤ lb.drainRate) :
    (leakyBucketDrain lb now).Wf := by
  have hamount : 0 ≤ lb.drainAmount now := drainAmount_nonneg h.partialDrain_nonneg hrate
  refine ⟨?_, ?_, ?_⟩
  · have hle := h.queueSize_le
    show (if ⌊lb.drainAmount now⌋₊ > lb.queueSize then 0
      else lb.queueSize - ⌊lb.drainAmount now⌋₊) ≤ lb.queueCapacity
    split <;> omega
  · exact sub_nonneg.mpr (Nat.floor_le hamount)
  · have hlt := Nat.lt_floor_add_one (lb.drainAmount now)
    show lb.drainAmount now - ⌊lb.drainAmount now⌋₊ < 1
    linarith

/-- A drain adds at most what the rate gives. -/
theorem leakyBucketDrain_credit (hnow : lb.lastDrainUs ≤ now) :
    (leakyBucketDrain lb now).credit ≤
      lb.credit + lb.drainRate * (seconds now - seconds lb.lastDrainUs) := by
  have hsize : lb.queueSize ≤ (leakyBucketDrain lb now).queueSize + ⌊lb.drainAmount now⌋₊ := by
    show lb.queueSize ≤ (if ⌊lb.drainAmount now⌋₊ > lb.queueSize then 0
      else lb.queueSize - ⌊lb.drainAmount now⌋₊) + ⌊lb.drainAmount now⌋₊
    split <;> omega
  have hcast : (lb.queueSize : ℚ) ≤
      (leakyBucketDrain lb now).queueSize + (⌊lb.drainAmount now⌋₊ : ℚ) := by
    exact_mod_cast hsize
  have hamount : lb.drainAmount now =
      lb.drainRate * (seconds now - seconds lb.lastDrainUs) + lb.partialDrain := by
    rw [← seconds_sub hnow, mul_comm]
    rfl
  show (lb.queueCapacity : ℚ) - (leakyBucketDrain lb now).queueSize +
    (lb.drainAmount now - ⌊lb.drainAmount now⌋₊) ≤ _
  unfold LoopyLeakyBucket.credit
  linarith

/-- What a call does: it drains the bucket and adds a request for which there is room, or none,
or it resets the bucket. -/
inductive Effect (s : Calls) : Calls → Prop
  | drains (now : ℕ) (hnow : s.lb.lastDrainUs ≤ now) :
      Effect s ⟨leakyBucketDrain s.lb now, s.charges ++ [⟨seconds now, 0, false⟩]⟩
  | admits (now : ℕ) (hnow : s.lb.lastDrainUs ≤ now)
      (hroom : (leakyBucketDrain s.lb now).queueSize < s.lb.queueCapacity) :
      Effect s ⟨{ leakyBucketDrain s.lb now with
        queueSize := (leakyBucketDrain s.lb now).queueSize + 1 },
        s.charges ++ [⟨seconds now, 1, false⟩]⟩
  | resets (now : ℕ) (hnow : s.lb.lastDrainUs ≤ now) :
      Effect s ⟨leakyBucketReset s.lb now, s.charges ++ [⟨seconds now, 0, true⟩]⟩

theorem step_effect (hstep : step s a = some s') : Effect s s' := by
  obtain ⟨hnow, hstep⟩ := Option.ite_none_right_eq_some.mp hstep
  cases a with
  | check now =>
    cases hstep
    by_cases hroom : (leakyBucketDrain s.lb now).queueSize < s.lb.queueCapacity
    · have htrue : decide ((leakyBucketDrain s.lb now).queueSize <
        (leakyBucketDrain s.lb now).queueCapacity) = true := decide_eq_true hroom
      simp only [htrue, LoopyRateLimitResult.of, if_true]
      exact .admits now hnow hroom
    · have hfalse : decide ((leakyBucketDrain s.lb now).queueSize <
        (leakyBucketDrain s.lb now).queueCapacity) = false := decide_eq_false hroom
      simp only [hfalse, LoopyRateLimitResult.of, Bool.false_eq_true, if_false, reduceCtorEq]
      exact .drains now hnow
  | peek now =>
    cases hstep
    exact .drains now hnow
  | reset now =>
    cases hstep
    exact .resets now hnow

/-! ## The credit is the level of a meter -/

/-- The bucket as a meter. -/
def Calls.meter (s : Calls) : Meter ℚ := ⟨seconds s.lb.lastDrainUs, s.lb.credit, s.charges⟩

/-- The invariant of a bucket of this configuration. -/
structure BucketInv (config : LoopyLeakyBucketConfig) (s : Calls) : Prop where
  queueCapacity_eq : s.lb.queueCapacity = config.queueCapacity
  drainRate_eq : s.lb.drainRate = config.drainRate
  wf : s.lb.Wf
  metered : Metered config.drainRate (Set.Iio (config.queueCapacity + 1 : ℚ)) s.meter

variable {config : LoopyLeakyBucketConfig}

theorem admit_wf (h : lb.Wf) (hroom : lb.queueSize < lb.queueCapacity) :
    ({ lb with queueSize := lb.queueSize + 1 } : LoopyLeakyBucket).Wf :=
  ⟨hroom, h.partialDrain_nonneg, h.partialDrain_lt⟩

theorem admit_credit (lb : LoopyLeakyBucket) :
    1 + ({ lb with queueSize := lb.queueSize + 1 } : LoopyLeakyBucket).credit = lb.credit := by
  show 1 + ((lb.queueCapacity : ℚ) - (lb.queueSize + 1 : ℕ) + lb.partialDrain) = _
  rw [LoopyLeakyBucket.credit, Nat.cast_add, Nat.cast_one]
  ring

/-- The bucket stays well formed. -/
theorem Effect.wf (h : s.lb.Wf) (hrate : 0 ≤ s.lb.drainRate) (he : Effect s s') : s'.lb.Wf := by
  cases he with
  | drains now _ => exact leakyBucketDrain_wf h hrate
  | admits now _ hroom => exact admit_wf (leakyBucketDrain_wf h hrate) hroom
  | resets now _ => exact ⟨Nat.zero_le _, le_rfl, one_pos⟩

/-- A call is an operation on the meter. -/
theorem Effect.meter (h : BucketInv config s) (hrate : 0 ≤ s.lb.drainRate) (he : Effect s s') :
    Meter.Step config.drainRate (Set.Iio (config.queueCapacity + 1 : ℚ)) s.meter s'.meter := by
  have hwf := he.wf h.wf hrate
  have hlevel : 0 ≤ s'.lb.credit := credit_nonneg hwf
  have hfound : ∀ now, (leakyBucketDrain s.lb now).credit < config.queueCapacity + 1 := by
    intro now
    rw [← h.queueCapacity_eq]
    exact credit_lt (leakyBucketDrain_wf h.wf hrate)
  cases he with
  | drains now hnow =>
    refine .charge (seconds now) 0 _ (seconds_mono hnow) hlevel ?_ ?_
    · rw [zero_add]
      exact hfound now
    · rw [zero_add, ← h.drainRate_eq]
      exact leakyBucketDrain_credit hnow
  | admits now hnow hroom =>
    have hsum := admit_credit (leakyBucketDrain s.lb now)
    refine .charge (seconds now) 1 _ (seconds_mono hnow) hlevel ?_ ?_
    · rw [hsum]
      exact hfound now
    · rw [hsum, ← h.drainRate_eq]
      exact leakyBucketDrain_credit hnow
  | resets now hnow => exact .reset (seconds now) _ (seconds_mono hnow) hlevel

theorem BucketInv.step (h : BucketInv config s) (hrate : 0 ≤ config.drainRate)
    (hstep : LeakyBucket.step s a = some s') : BucketInv config s' := by
  have hrate' : 0 ≤ s.lb.drainRate := by
    rw [h.drainRate_eq]
    exact hrate
  have he := step_effect hstep
  have hwf := he.wf h.wf hrate'
  have hmetered := h.metered.step hrate (he.meter h hrate')
  cases he with
  | drains now _ => exact ⟨h.queueCapacity_eq, h.drainRate_eq, hwf, hmetered⟩
  | admits now _ _ => exact ⟨h.queueCapacity_eq, h.drainRate_eq, hwf, hmetered⟩
  | resets now _ => exact ⟨h.queueCapacity_eq, h.drainRate_eq, hwf, hmetered⟩

theorem BucketInv.fresh (config : LoopyLeakyBucketConfig) (now : ℕ) :
    BucketInv config (.fresh config now) := by
  have hwf : (leakyBucketInit config now).Wf := ⟨Nat.zero_le _, le_rfl, one_pos⟩
  exact ⟨rfl, rfl, hwf, Metered.fresh (credit_nonneg hwf)⟩

theorem BucketInv.law (h : BucketInv config s) (hrate : 0 ≤ config.drainRate) :
    BucketLaw config s := by
  refine ⟨h.queueCapacity_eq ▸ h.wf.queueSize_le, h.wf.partialDrain_nonneg,
    h.wf.partialDrain_lt, fun t₁ t₂ hle hno => ?_⟩
  have hzero : (0 : ℚ) < config.queueCapacity + 1 := by positivity
  obtain ⟨full, hfull, hspent⟩ := h.metered.spent_le hrate hzero hle hno
  have hfull : full < config.queueCapacity + 1 := hfull
  have hspent : spent t₁ t₂ s.charges ≤ full + config.drainRate * (t₂ - t₁) := hspent
  linarith

/-- Every sequence of calls on a new bucket keeps the law. -/
theorem Calls.law {start : ℕ} {as : List Call} (hrate : 0 ≤ config.drainRate)
    (hrun : Run step (fun _ _ => True) (.fresh config start) as s) : BucketLaw config s := by
  have hinv : BucketInv config s :=
    hrun.invariant (fun _ _ _ h _ hstep => h.step hrate hstep) (.fresh config start)
  exact hinv.law hrate

end

/-! ## The burst bounds -/

/-- **The burst bounds of the buckets.** However the requests of a token bucket and of a leaky
bucket with rates that are not negative come, an interval without a reset admits no more than
the capacity and what the rate gives in it, for the leaky bucket strictly less than one request
more; the tokens stay between 0 and the capacity, the queue fits and the drain that is not yet
whole is a fraction. -/
theorem burst_bounded (tokenConfig : TokenBucket.LoopyTokenBucketConfig)
    (leakyConfig : LoopyLeakyBucketConfig) (htokens : tokenConfig.Nonneg)
    (hrate : 0 ≤ leakyConfig.drainRate) (start : ℕ) (as : List TokenBucket.Action)
    (bs : List Call) (s : TokenBucket.Calls) (u : Calls)
    (hs : Run TokenBucket.step (fun _ _ => True) (.fresh tokenConfig start) as s)
    (hu : Run step (fun _ _ => True) (.fresh leakyConfig start) bs u) :
    TokenBucket.BucketLaw tokenConfig s ∧ BucketLaw leakyConfig u :=
  ⟨TokenBucket.Calls.law htokens hs, Calls.law hrate hu⟩

/-- A bucket of 2 tokens that gains one in a second: the third request is denied until then. -/
def tokenRun : List TokenBucket.Action :=
  [.check 0 1, .check 0 0, .check 0 1, .peek 500000, .check 1000000 1, .reset 1500000]

/-- A queue of 2 that drains three requests in two seconds. -/
def leakyRun : List Call := [.check 0, .check 0, .check 0, .peek 500000, .check 1000000]

theorem burst_bounded_runs : ∃ s u,
    s.tb.tokens = 2 ∧ u.lb.queueSize = 2 ∧ u.lb.partialDrain = 1 / 2 ∧
      TokenBucket.BucketLaw ⟨2, 1, 0, -1⟩ s ∧ BucketLaw ⟨3 / 2, 2⟩ u := by
  have htokens : (exec TokenBucket.step (fun _ _ => True) (.fresh ⟨2, 1, 0, -1⟩ 0) tokenRun).map
      (fun s => s.tb.tokens) = some 2 := by decide +kernel
  have hleaky : (exec step (fun _ _ => True) (.fresh ⟨3 / 2, 2⟩ 0) leakyRun).map
      (fun u => (u.lb.queueSize, u.lb.partialDrain)) = some (2, 1 / 2) := by decide +kernel
  obtain ⟨s, hs, htokens⟩ := Run.of_exec_map htokens
  obtain ⟨u, hu, hleaky⟩ := Run.of_exec_map hleaky
  obtain ⟨hsize, hfrac⟩ := Prod.mk.inj hleaky
  have hlaw := burst_bounded ⟨2, 1, 0, -1⟩ ⟨3 / 2, 2⟩ ⟨by norm_num, by norm_num⟩ (by norm_num) 0
    tokenRun leakyRun s u hs hu
  exact ⟨s, u, htokens, hsize, hfrac, hlaw⟩

end Loopy.LeakyBucket
