import Loopy.RateLimit.Limiter

/-!
# `loopyRateLimit.c`: peeks

A peek predicts the check at the same time except for a sliding window whose log is full: the
check asks for room in the log too (`peek_predicts`). A peek refills, drains, prunes or begins a
new window like a check, and but for the new window a later call does the same with it and
without it (`peek_neutral`): the next fixed window begins with the call that finds the last one
over, so a peek moves it.
-/

namespace Loopy.Limiter

open Loopy.Lib Loopy.RateLimit Loopy.TokenBucket Loopy.SlidingWindow Loopy.LeakyBucket

section

variable {limiter : LoopyRateLimiter} {tb : LoopyTokenBucket} {sw : LoopySlidingWindow}
  {lb : LoopyLeakyBucket} {fw : LoopyFixedWindow} {now us us' : ℕ}

/-! ## Peeks and checks at the same time -/

/-- The log of a sliding window is full of requests in the window, and they are fewer than
`maxRequests`. -/
def LoopyRateLimiter.LogFull (limiter : LoopyRateLimiter) (us : ℕ) : Prop :=
  match limiter with
  | .slidingWindow sw =>
    let requests := sw.logged.countP fun t => getNowMs us ≤ t + sw.windowMs
    sw.capacity ≤ requests ∧ requests < sw.maxRequests
  | _ => False

instance (limiter : LoopyRateLimiter) (us : ℕ) : Decidable (limiter.LogFull us) :=
  match limiter with
  | .slidingWindow _ => inferInstanceAs (Decidable (_ ∧ _))
  | .tokenBucket _ | .leakyBucket _ | .fixedWindow _ => isFalse id

/-- After pruning the count is the number of logged requests in the window. -/
theorem Logged.count_eq (h : Logged sw now) (later : ℕ) :
    (slidingWindowPrune sw later).count = sw.logged.countP fun t => later ≤ t + sw.windowMs := by
  obtain ⟨_, _, hlogged⟩ := slidingWindowPrune_spec h.wf h.sorted later
  have hlength := congrArg List.length hlogged
  rw [LoopySlidingWindow.logged, length_circular, ← List.countP_eq_length_filter] at hlength
  rw [hlength, cutoff_eq]
  apply List.countP_congr
  intro t _
  simp only [decide_eq_true_eq]
  omega

theorem slidingWindowCheck_allowed (sw : LoopySlidingWindow) (now : ℕ) :
    (slidingWindowCheck sw now).1 = .allowed ↔
      (slidingWindowPrune sw now).count < (slidingWindowPrune sw now).maxRequests ∧
        (slidingWindowPrune sw now).count < (slidingWindowPrune sw now).capacity := by
  rw [slidingWindowCheck, result_of_eq_allowed, decide_eq_true_iff]

theorem slidingWindowPeek_allowed (sw : LoopySlidingWindow) (now : ℕ) :
    (slidingWindowPeek sw now).1 = .allowed ↔
      (slidingWindowPrune sw now).count < (slidingWindowPrune sw now).maxRequests := by
  rw [slidingWindowPeek, result_of_eq_allowed, decide_eq_true_iff]

/-- A peek of a sliding window misses the room in the log. -/
theorem Logged.predicts (h : Logged sw now) (later : ℕ) :
    ((slidingWindowPeek sw later).1 = .allowed ↔ (slidingWindowCheck sw later).1 = .allowed) ↔
      ¬ (sw.capacity ≤ sw.logged.countP (fun t => later ≤ t + sw.windowMs) ∧
        sw.logged.countP (fun t => later ≤ t + sw.windowMs) < sw.maxRequests) := by
  obtain ⟨_, hsame, _⟩ := slidingWindowPrune_spec h.wf h.sorted later
  rw [slidingWindowPeek_allowed, slidingWindowCheck_allowed, hsame.maxRequests, hsame.capacity,
    h.count_eq later]
  omega

theorem tokenBucket_predicts {cost : ℚ} (hcost : cost ≤ 0) :
    (tokenBucketPeek tb us).1 = (tokenBucketCheck tb cost us).1 := by
  have hdefault : (tokenBucketRefill tb us).actualCost cost =
      (tokenBucketRefill tb us).tokensPerRequest := if_neg (not_lt.mpr hcost)
  rw [tokenBucketPeek, tokenBucketCheck, hdefault]

end

/-- **Peeks predict checks, but for a full log.** In every state of every run a peek is allowed if
and only if a check of the default cost at the same time is, exactly if the limiter is no sliding
window whose log is full with fewer than `maxRequests` requests. -/
theorem peek_predicts (config : LoopyRateLimiterConfig) (start : ℕ) (as : List Request)
    (s : Limited) (hrun : Run step (fun _ _ => True) (.fresh config start) as s) (us : ℕ)
    (cost : ℚ) (hcost : cost ≤ 0) :
    ((loopyRateLimitPeek s.limiter us).1 = .allowed ↔
      (loopyRateLimitCheck s.limiter cost us).1 = .allowed) ↔ ¬ s.limiter.LogFull us := by
  have hinv := LimiterInv.run hrun
  obtain ⟨limiter, clock⟩ := s
  cases limiter with
  | tokenBucket tb =>
    refine iff_of_true ?_ id
    rw [loopyRateLimitPeek, loopyRateLimitCheck, tokenBucket_predicts hcost]
  | slidingWindow sw =>
    have hlogged : Logged sw (getNowMs clock) := hinv
    exact hlogged.predicts (getNowMs us)
  | leakyBucket lb => exact iff_of_true Iff.rfl id
  | fixedWindow fw => exact iff_of_true Iff.rfl id

/-- Two requests in a window of three, with a log of two entries. -/
theorem peek_predicts_roomy : ∃ s,
    Run step (fun _ _ => True) (.fresh (.slidingWindow ⟨10, 3, 2⟩) 0)
      [.check 0 0, .check 4000 0, .peek 11000] s ∧
    ((loopyRateLimitPeek s.limiter 11000).1 = .allowed ↔
      (loopyRateLimitCheck s.limiter 0 11000).1 = .allowed) := by
  have hexec : (exec step (fun _ _ => True) (.fresh (.slidingWindow ⟨10, 3, 2⟩) 0)
      [.check 0 0, .check 4000 0, .peek 11000]).map (fun s => decide (s.limiter.LogFull 11000)) =
      some false := by decide +kernel
  obtain ⟨s, hrun, hval⟩ := Run.of_exec_map hexec
  exact ⟨s, hrun, (peek_predicts _ _ _ s hrun 11000 0 le_rfl).mpr (of_decide_eq_false hval)⟩

/-- The log of two entries is full: the peek says yes, the check says no. -/
theorem peek_misleads : ∃ s,
    Run step (fun _ _ => True) (.fresh (.slidingWindow ⟨10, 3, 2⟩) 0)
      [.check 0 0, .check 4000 0] s ∧
    (loopyRateLimitPeek s.limiter 5000).1 = .allowed ∧
    (loopyRateLimitCheck s.limiter 0 5000).1 = .denied := by
  have hexec : (exec step (fun _ _ => True) (.fresh (.slidingWindow ⟨10, 3, 2⟩) 0)
      [.check 0 0, .check 4000 0]).map (fun s => ((loopyRateLimitPeek s.limiter 5000).1,
        (loopyRateLimitCheck s.limiter 0 5000).1)) = some (.allowed, .denied) := by decide +kernel
  obtain ⟨s, hrun, hval⟩ := Run.of_exec_map hexec
  obtain ⟨hpeek, hcheck⟩ := Prod.mk.inj hval
  exact ⟨s, hrun, hpeek, hcheck⟩

/-! ## A call after a peek -/

section

variable {limiter : LoopyRateLimiter} {tb : LoopyTokenBucket} {sw : LoopySlidingWindow}
  {lb : LoopyLeakyBucket} {fw : LoopyFixedWindow} {now us us' : ℕ}

/-- A level that is cut at `cap` on the way to a later one. -/
theorem min_add_min {cap level first second : ℚ}
    (h : cap < level + first → 0 ≤ second) :
    min cap (min cap (level + first) + second) = min cap (level + (first + second)) := by
  rcases lt_or_ge cap (level + first) with hfull | hroom
  · have hsecond := h hfull
    have hlater : cap ≤ level + (first + second) := by linarith
    rw [min_eq_left hfull.le, min_eq_left hlater, min_eq_left (by linarith)]
  · rw [min_eq_right hroom, add_assoc]

/-- Two refills are one. -/
theorem refill_refill (hlast : tb.lastRefillUs ≤ us) (hus : us ≤ us')
    (hok : 0 ≤ tb.refillRate ∨ tb.tokens ≤ tb.capacity) :
    tokenBucketRefill (tokenBucketRefill tb us) us' = tokenBucketRefill tb us' := by
  have hfirst := seconds_mono hlast
  have hsecond := seconds_mono hus
  have htokens : min tb.capacity (min tb.capacity
      (tb.tokens + (seconds us - seconds tb.lastRefillUs) * tb.refillRate) +
      (seconds us' - seconds us) * tb.refillRate) = min tb.capacity
      (tb.tokens + (seconds us' - seconds tb.lastRefillUs) * tb.refillRate) := by
    have hsum : (seconds us' - seconds tb.lastRefillUs) * tb.refillRate =
        (seconds us - seconds tb.lastRefillUs) * tb.refillRate +
          (seconds us' - seconds us) * tb.refillRate := by ring
    rw [hsum]
    apply min_add_min
    intro hfull
    rcases hok with hrate | hroom
    · exact mul_nonneg (sub_nonneg.mpr hsecond) hrate
    · -- a bucket is above its capacity after a refill only if the rate is not negative
      by_contra hneg
      have hrate : tb.refillRate < 0 := by
        by_contra hrate
        exact hneg (mul_nonneg (sub_nonneg.mpr hsecond) (not_lt.mp hrate))
      have hdown := mul_nonpos_of_nonneg_of_nonpos (sub_nonneg.mpr hfirst) hrate.le
      linarith
  rw [← seconds_sub hlast, ← seconds_sub hus, ← seconds_sub (hlast.trans hus)] at htokens
  exact congrArg (fun tokens => { tb with tokens, lastRefillUs := us' }) htokens

/-- Two prunings are one. -/
theorem pruneLoop_pruneLoop {cutoff cutoff' : ℕ} (hle : cutoff ≤ cutoff') (left : ℕ)
    (hleft : sw.count = left) :
    pruneLoop cutoff' (pruneLoop cutoff left sw).count (pruneLoop cutoff left sw) =
      pruneLoop cutoff' left sw := by
  -- an entry that the first pruning drops is dropped by the second one too
  induction left generalizing sw with
  | zero =>
    show pruneLoop cutoff' sw.count sw = pruneLoop cutoff' 0 sw
    rw [hleft]
  | succ left ih =>
    by_cases hkept : sw.entries sw.tail ≥ cutoff
    · rw [pruneLoop, if_pos hkept, hleft]
    · have hdropped : ¬ sw.entries sw.tail ≥ cutoff' := by omega
      have hcount : sw.advance.count = left := by
        show sw.count - 1 = left
        omega
      rw [pruneLoop, if_neg hkept, ih hcount, pruneLoop, if_neg hdropped]

/-- Pruning leaves all but the tail and the count. -/
theorem pruneLoop_eq (cutoff left : ℕ) (sw : LoopySlidingWindow) :
    ∃ tail count, pruneLoop cutoff left sw = { sw with tail, count } := by
  induction left generalizing sw with
  | zero => exact ⟨sw.tail, sw.count, rfl⟩
  | succ left ih =>
    by_cases hkept : sw.entries sw.tail ≥ cutoff
    · rw [pruneLoop, if_pos hkept]
      exact ⟨sw.tail, sw.count, rfl⟩
    · rw [pruneLoop, if_neg hkept]
      exact ih sw.advance

theorem cutoff_prune (sw : LoopySlidingWindow) (now later : ℕ) :
    (slidingWindowPrune sw now).cutoff later = sw.cutoff later := by
  obtain ⟨tail, count, heq⟩ := pruneLoop_eq (sw.cutoff now) sw.count sw
  rw [slidingWindowPrune, heq]
  rfl

theorem prune_prune {later : ℕ} (hle : now ≤ later) :
    slidingWindowPrune (slidingWindowPrune sw now) later = slidingWindowPrune sw later := by
  have hcutoff : sw.cutoff now ≤ sw.cutoff later := by
    rw [cutoff_eq, cutoff_eq]
    omega
  rw [slidingWindowPrune, cutoff_prune]
  exact pruneLoop_pruneLoop hcutoff sw.count rfl

theorem reset_prune (sw : LoopySlidingWindow) (now : ℕ) :
    slidingWindowReset (slidingWindowPrune sw now) = slidingWindowReset sw := by
  obtain ⟨tail, count, heq⟩ := pruneLoop_eq (sw.cutoff now) sw.count sw
  rw [slidingWindowPrune, heq]
  rfl

/-- What is drained in two steps. -/
theorem floor_add_floor {first second : ℚ} (h : 0 ≤ second ∨ first < 1) :
    ⌊first⌋₊ + ⌊second + (first - ⌊first⌋₊)⌋₊ = ⌊second + first⌋₊ := by
  by_cases hone : first < 1
  · rw [Nat.floor_eq_zero.mpr hone, Nat.cast_zero, sub_zero, Nat.zero_add]
  · have hsecond : 0 ≤ second := h.resolve_right hone
    have hfirst : 0 ≤ first := by linarith
    have hrest : 0 ≤ second + (first - ⌊first⌋₊) := by
      have hfloor := Nat.floor_le hfirst
      linarith
    have hsum : second + first = second + (first - ⌊first⌋₊) + (⌊first⌋₊ : ℕ) := by ring
    rw [hsum, Nat.floor_add_natCast hrest, Nat.add_comm]

/-- Two drains are one. -/
theorem drain_drain (h : Drained lb now) (hnow : now ≤ us) (hus : us ≤ us') :
    leakyBucketDrain (leakyBucketDrain lb us) us' = leakyBucketDrain lb us' := by
  have hlast := h.le_now.trans hnow
  have hfirst := sub_nonneg.mpr (seconds_mono hlast)
  have hsecond := sub_nonneg.mpr (seconds_mono hus)
  have hamount : lb.drainAmount us' = (seconds us' - seconds us) * lb.drainRate +
      lb.drainAmount us := by
    unfold LoopyLeakyBucket.drainAmount
    dsimp only
    rw [seconds_sub hlast, seconds_sub (hlast.trans hus)]
    ring
  have hamount' : (leakyBucketDrain lb us).drainAmount us' =
      (seconds us' - seconds us) * lb.drainRate +
        (lb.drainAmount us - ⌊lb.drainAmount us⌋₊) := by
    rw [← seconds_sub hus]
    rfl
  have hwhole : ⌊lb.drainAmount us⌋₊ + ⌊(leakyBucketDrain lb us).drainAmount us'⌋₊ =
      ⌊lb.drainAmount us'⌋₊ := by
    rw [hamount, hamount']
    apply floor_add_floor
    by_cases hrate : 0 ≤ lb.drainRate
    · exact .inl (mul_nonneg hsecond hrate)
    · -- at a negative rate nothing whole is drained before the peek
      have hdown := mul_nonpos_of_nonneg_of_nonpos hfirst (not_le.mp hrate).le
      have hfrac := h.partialDrain_lt
      rw [← seconds_sub hlast] at hdown
      refine .inr ?_
      show ((us - lb.lastDrainUs : ℕ) : ℚ) / MICROSECONDS_PER_SECOND * lb.drainRate +
        lb.partialDrain < 1
      linarith
  have hrest : (leakyBucketDrain lb us).drainAmount us' -
      (⌊(leakyBucketDrain lb us).drainAmount us'⌋₊ : ℚ) =
      lb.drainAmount us' - (⌊lb.drainAmount us'⌋₊ : ℚ) := by
    rw [← hwhole, hamount', hamount]
    push_cast
    ring
  have hsize : (leakyBucketDrain (leakyBucketDrain lb us) us').queueSize =
      (leakyBucketDrain lb us').queueSize := by
    have hsizes (q whole whole' : ℕ) : (if whole' > (if whole > q then 0 else q - whole) then 0
        else (if whole > q then 0 else q - whole) - whole') =
        if whole + whole' > q then 0 else q - (whole + whole') := by
      split_ifs <;> omega
    have hboth := hsizes lb.queueSize ⌊lb.drainAmount us⌋₊
      ⌊(leakyBucketDrain lb us).drainAmount us'⌋₊
    rw [hwhole] at hboth
    exact hboth
  exact congrArg₂ (fun queueSize partialDrain =>
    { lb with queueSize, partialDrain, lastDrainUs := us' }) hsize hrest

end

/-- A peek does not move the window of the limiter: no fixed window is over, and no bucket with a
negative rate has more than its capacity. -/
def LoopyRateLimiter.Quiet (limiter : LoopyRateLimiter) (us : ℕ) : Prop :=
  match limiter with
  | .tokenBucket tb => 0 ≤ tb.refillRate ∨ tb.tokens ≤ tb.capacity
  | .fixedWindow fw => getNowMs us < fw.windowEnd
  | _ => True

instance (limiter : LoopyRateLimiter) (us : ℕ) : Decidable (limiter.Quiet us) :=
  match limiter with
  | .tokenBucket _ => inferInstanceAs (Decidable (_ ∨ _))
  | .fixedWindow fw => inferInstanceAs (Decidable (getNowMs us < fw.windowEnd))
  | .slidingWindow _ | .leakyBucket _ => isTrue trivial

/-- The peeks are quiet. -/
def QuietPeeks (s : Limited) : Request → Prop
  | .peek us => s.limiter.Quiet us
  | _ => True

instance (s : Limited) : ∀ a, Decidable (QuietPeeks s a)
  | .peek us => inferInstanceAs (Decidable (s.limiter.Quiet us))
  | .check .. | .reset _ => isTrue trivial

/-- The call is no peek. -/
def Request.counts : Request → Bool
  | .peek _ => false
  | _ => true

/-- The results of the checks of a sequence of calls. -/
def results (limiter : LoopyRateLimiter) : List Request → List LoopyRateLimitResult
  | [] => []
  | .check us cost :: as =>
    (loopyRateLimitCheck limiter cost us).1 ::
      results (loopyRateLimitCheck limiter cost us).2.2 as
  | .peek us :: as => results (loopyRateLimitPeek limiter us).2.2 as
  | .reset us :: as => results (loopyRateLimitReset limiter us) as

section

variable {s : Limited} {us us' : ℕ}

/-- A check after a quiet peek. -/
theorem check_peek (h : LimiterInv s) (hclock : s.clock ≤ us) (hus : us ≤ us')
    (hquiet : s.limiter.Quiet us) (cost : ℚ) :
    loopyRateLimitCheck (loopyRateLimitPeek s.limiter us).2.2 cost us' =
      loopyRateLimitCheck s.limiter cost us' := by
  obtain ⟨limiter, clock⟩ := s
  cases limiter with
  | tokenBucket tb =>
    have hlast : tb.lastRefillUs ≤ us := Nat.le_trans h hclock
    have hrefill := refill_refill hlast hus hquiet
    simp only [loopyRateLimitPeek, tokenBucketPeek, loopyRateLimitCheck, tokenBucketCheck, hrefill]
  | slidingWindow sw =>
    have hprune : slidingWindowPrune (slidingWindowPrune sw (getNowMs us)) (getNowMs us') =
        slidingWindowPrune sw (getNowMs us') := prune_prune (getNowMs_mono hus)
    simp only [loopyRateLimitPeek, slidingWindowPeek, loopyRateLimitCheck, slidingWindowCheck,
      hprune]
  | leakyBucket lb =>
    have hdrained : Drained lb clock := h
    have hdrain := drain_drain hdrained hclock hus
    simp only [loopyRateLimitPeek, leakyBucketPeek, loopyRateLimitCheck, leakyBucketCheck, hdrain]
  | fixedWindow fw =>
    have hsame : fixedWindowMaybeReset fw (getNowMs us) = fw := if_neg (not_le.mpr hquiet)
    simp only [loopyRateLimitPeek, fixedWindowPeek, hsame]

/-- A reset after a quiet peek. -/
theorem reset_peek (hquiet : s.limiter.Quiet us) :
    loopyRateLimitReset (loopyRateLimitPeek s.limiter us).2.2 us' =
      loopyRateLimitReset s.limiter us' := by
  obtain ⟨limiter, clock⟩ := s
  cases limiter with
  | tokenBucket tb => rfl
  | slidingWindow sw => exact congrArg LoopyRateLimiter.slidingWindow (reset_prune sw _)
  | leakyBucket lb => rfl
  | fixedWindow fw =>
    have hsame : fixedWindowMaybeReset fw (getNowMs us) = fw := if_neg (not_le.mpr hquiet)
    simp only [loopyRateLimitPeek, fixedWindowPeek, hsame]

/-- The calls come at the clock or later. -/
theorem clock_le_of_run {ok : Limited → Request → Prop} {as : List Request} {t : Limited}
    (hrun : Run step ok s as t) : ∀ a ∈ as, s.clock ≤ a.us := by
  induction hrun with
  | nil => exact fun a ha => by cases ha
  | @cons s s' t i is hok hstep rest ih =>
    obtain ⟨hus, rfl⟩ := of_guard hstep
    intro a ha
    rcases List.mem_cons.mp ha with rfl | ha
    · exact hus
    · exact hus.trans (ih a ha)

/-- Calls that are no peeks have the results that they have without the peek before them. -/
theorem results_peek (h : LimiterInv s) (hclock : s.clock ≤ us) (hquiet : s.limiter.Quiet us)
    {as : List Request} (hcounts : ∀ a ∈ as, a.counts = true) (hus : ∀ a ∈ as, us ≤ a.us) :
    results (loopyRateLimitPeek s.limiter us).2.2 as = results s.limiter as := by
  cases as with
  | nil => rfl
  | cons a as =>
    cases a with
    | check us' cost =>
      have hlater : us ≤ us' := hus _ List.mem_cons_self
      rw [results, results, check_peek h hclock hlater hquiet]
    | reset us' => rw [results, results, reset_peek hquiet]
    | peek us' => cases hcounts _ List.mem_cons_self

theorem results_filter {as : List Request} {t : Limited} (hrun : Run step QuietPeeks s as t)
    (h : LimiterInv s) : results s.limiter as = results s.limiter (as.filter Request.counts) := by
  induction hrun with
  | nil => rfl
  | @cons s s' t a as hok hstep rest ih =>
    have hinv := h.step hstep
    have hlater := clock_le_of_run rest
    obtain ⟨hus, rfl⟩ := of_guard hstep
    have hrest := ih hinv
    cases a with
    | check us cost =>
      show _ :: results _ as = _ :: results _ (as.filter Request.counts)
      exact congrArg _ hrest
    | reset us => exact hrest
    | peek us =>
      -- the peek is taken out of the calls that are left
      refine Eq.trans hrest ?_
      apply results_peek h hus hok
      · exact fun a ha => List.of_mem_filter ha
      · exact fun a ha => hlater a (List.mem_of_mem_filter ha)

end

/-- **Peeks are neutral while they begin no window.** In every run whose peeks find no fixed window
over, and no token bucket with a negative rate above its capacity, the checks have the results
that they have without the peeks. -/
theorem peek_neutral (config : LoopyRateLimiterConfig) (start : ℕ) (as : List Request)
    (s : Limited) (hrun : Run step QuietPeeks (.fresh config start) as s) :
    results (loopyRateLimiterNew config start) as =
      results (loopyRateLimiterNew config start) (as.filter Request.counts) :=
  results_filter hrun (.fresh config start)

/-- Peeks in the first window and between two checks of the next one. -/
def peekRun : List Request :=
  [.check 0 0, .peek 9999, .check 15000 0, .peek 20000, .check 22000 0]

theorem peek_neutral_peekRun :
    results (loopyRateLimiterNew (.fixedWindow ⟨10, 1⟩) 0) peekRun =
      results (loopyRateLimiterNew (.fixedWindow ⟨10, 1⟩) 0)
        [.check 0 0, .check 15000 0, .check 22000 0] := by
  have hexec : (exec step QuietPeeks (.fresh (.fixedWindow ⟨10, 1⟩) 0) peekRun).map
      (fun s => s.clock) = some 22000 := by decide +kernel
  obtain ⟨s, hrun, _⟩ := Run.of_exec_map hexec
  exact peek_neutral (.fixedWindow ⟨10, 1⟩) 0 peekRun s hrun

/-- A peek begins the window at 10 ms, which otherwise begins with the check at 15 ms. -/
theorem peek_disturbs :
    results (loopyRateLimiterNew (.fixedWindow ⟨10, 1⟩) 0)
        [.check 0 0, .check 15000 0, .check 22000 0] = [.allowed, .allowed, .denied] ∧
      results (loopyRateLimiterNew (.fixedWindow ⟨10, 1⟩) 0)
        [.check 0 0, .peek 10000, .check 15000 0, .check 22000 0] =
        [.allowed, .allowed, .allowed] := by
  decide +kernel

end Loopy.Limiter
