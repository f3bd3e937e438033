import Mathlib.Data.List.Sort
import Loopy.Lib.Ring
import Loopy.RateLimit.TokenBucket

/-!
# `loopyRateLimit.c`: the sliding window

The log of a `loopySlidingWindow` is a circular buffer of timestamps (`Loopy.Lib.Circular`).
Calls are atomic, as for the buckets; the `entries` are allocated, so the sums of their indices
do not wrap, and the sums of times are those of `uint64_t`. Beside the window stand the clock of
the last call, the cutoff of the last pruning and the times of the allowed checks: those since
the last reset and the past ones, from reset to reset.
-/

namespace Loopy.SlidingWindow

open Loopy.Lib Loopy.RateLimit

/-! ## The window -/

/-- `SLIDING_WINDOW_DEFAULT_MAX_ENTRIES`. -/
def SLIDING_WINDOW_DEFAULT_MAX_ENTRIES : ℕ := 10000

/-- `loopySlidingWindowConfig`. -/
structure LoopySlidingWindowConfig where
  windowMs : ℕ
  maxRequests : ℕ
  maxEntries : ℕ

/-- `loopySlidingWindow`. -/
structure LoopySlidingWindow where
  entries : ℕ → ℕ
  capacity : ℕ
  head : ℕ
  tail : ℕ
  count : ℕ
  windowMs : ℕ
  maxRequests : ℕ

/-- `slidingWindowInit`. -/
def slidingWindowInit (config : LoopySlidingWindowConfig) : LoopySlidingWindow :=
  { capacity :=
      if config.maxEntries > 0 then config.maxEntries else SLIDING_WINDOW_DEFAULT_MAX_ENTRIES
    entries := fun _ => 0
    head := 0
    tail := 0
    count := 0
    windowMs := config.windowMs
    maxRequests := config.maxRequests }

/-- `cutoff` of `slidingWindowPrune`. -/
def LoopySlidingWindow.cutoff (sw : LoopySlidingWindow) (now : ℕ) : ℕ :=
  if now > sw.windowMs then now - sw.windowMs else 0

/-- The end of the loop body of `slidingWindowPrune`. -/
def LoopySlidingWindow.advance (sw : LoopySlidingWindow) : LoopySlidingWindow :=
  { sw with tail := (sw.tail + 1) % sw.capacity, count := sw.count - 1 }

/-- The loop of `slidingWindowPrune`, for the entries that are left. -/
def pruneLoop (cutoff : ℕ) : ℕ → LoopySlidingWindow → LoopySlidingWindow
  | 0, sw => sw
  | left + 1, sw =>
    if sw.entries sw.tail ≥ cutoff then sw else pruneLoop cutoff left sw.advance

/-- `slidingWindowPrune`. -/
def slidingWindowPrune (sw : LoopySlidingWindow) (now : ℕ) : LoopySlidingWindow :=
  pruneLoop (sw.cutoff now) sw.count sw

/-- The `info` that `slidingWindowCheck` and `slidingWindowPeek` fill. -/
def LoopySlidingWindow.info (sw : LoopySlidingWindow) (now : ℕ) (allowed : Bool) (resetMs : ℕ) :
    LoopyRateLimitInfo :=
  let oldestExpiry : ℕ := (sw.entries sw.tail + sw.windowMs) % 2 ^ 64
  { allowed
    remaining := if sw.maxRequests > sw.count then (sw.maxRequests - sw.count : ℕ) else 0
    limit := sw.maxRequests
    retryAfterMs :=
      if !allowed ∧ sw.count > 0 then
        if oldestExpiry > now then oldestExpiry - now else 0
      else 0
    resetMs }

/-- `resetMs` of `slidingWindowCheck`. -/
def LoopySlidingWindow.resetMs (sw : LoopySlidingWindow) (now : ℕ) : ℕ :=
  if sw.count > 0 then
    (sw.entries ((sw.head + sw.capacity - 1) % sw.capacity) + sw.windowMs + (2 ^ 64 - now)) % 2 ^ 64
  else sw.windowMs

/-- `slidingWindowCheck`, when the request is allowed. -/
def LoopySlidingWindow.log (sw : LoopySlidingWindow) (now : ℕ) : LoopySlidingWindow :=
  { sw with
    entries := Function.update sw.entries sw.head now
    head := (sw.head + 1) % sw.capacity
    count := sw.count + 1 }

/-- `slidingWindowCheck`. -/
def slidingWindowCheck (sw : LoopySlidingWindow) (now : ℕ) :
    LoopyRateLimitResult × LoopyRateLimitInfo × LoopySlidingWindow :=
  let sw : LoopySlidingWindow := slidingWindowPrune sw now
  let allowed : Bool := sw.count < sw.maxRequests ∧ sw.count < sw.capacity
  (.of allowed, sw.info now allowed (sw.resetMs now), if allowed then sw.log now else sw)

/-- `slidingWindowPeek`. -/
def slidingWindowPeek (sw : LoopySlidingWindow) (now : ℕ) :
    LoopyRateLimitResult × LoopyRateLimitInfo × LoopySlidingWindow :=
  let sw : LoopySlidingWindow := slidingWindowPrune sw now
  let allowed : Bool := sw.count < sw.maxRequests
  (.of allowed, sw.info now allowed sw.windowMs, sw)

/-- `slidingWindowReset`. -/
def slidingWindowReset (sw : LoopySlidingWindow) : LoopySlidingWindow :=
  { sw with head := 0, tail := 0, count := 0 }

/-- The logged times, oldest first. -/
def LoopySlidingWindow.logged (sw : LoopySlidingWindow) : List ℕ :=
  circular sw.entries sw.capacity sw.tail sw.count

/-! ## Sequences of calls -/

/-- A window and the record of its calls. -/
structure Calls where
  sw : LoopySlidingWindow
  clock : ℕ
  /-- The cutoff of the last pruning. -/
  cutoff : ℕ
  /-- The times of the checks allowed since the last reset. -/
  admitted : List ℕ
  /-- The same for the resets before. -/
  past : List (List ℕ)

/-- A new window. -/
def Calls.fresh (config : LoopySlidingWindowConfig) : Calls :=
  { sw := slidingWindowInit config, clock := 0, cutoff := 0, admitted := [], past := [] }

/-- One call at a clock that has not gone back. -/
def step (s : Calls) (a : Call) : Option Calls :=
  if s.clock ≤ a.now then
    match a with
    | .check now =>
      let (result, _, sw) := slidingWindowCheck s.sw now
      some { s with
        sw
        clock := now
        cutoff := s.sw.cutoff now
        admitted := if result = .allowed then s.admitted ++ [now] else s.admitted }
    | .peek now =>
      let (_, _, sw) := slidingWindowPeek s.sw now
      some { s with sw, clock := now, cutoff := s.sw.cutoff now }
    | .reset now =>
      some { s with
        sw := slidingWindowReset s.sw
        clock := now
        admitted := []
        past := s.past ++ [s.admitted] }
  else none

/-- The end of a window that starts with the call is still a `uint64_t`. -/
def InRange (s : Calls) (a : Call) : Prop := a.now + s.sw.windowMs < 2 ^ 64

instance (s : Calls) (a : Call) : Decidable (InRange s a) :=
  inferInstanceAs (Decidable (_ < _))

/-- The number of these times from `start` to `start + length`. -/
def within (start length : ℕ) (times : List ℕ) : ℕ :=
  times.countP fun t => start ≤ t ∧ t ≤ start + length

/-- The number of these times from `now - length` to `now`. -/
def recent (now length : ℕ) (times : List ℕ) : ℕ :=
  times.countP fun t => now ≤ t + length ∧ t ≤ now

/-- What the sliding window promises of a sequence of calls. -/
structure WindowLaw (config : LoopySlidingWindowConfig) (s : Calls) : Prop where
  exact : ∀ now, s.clock ≤ now → now + config.windowMs < 2 ^ 64 →
    ((slidingWindowCheck s.sw now).1 = .allowed ↔ recent now config.windowMs s.admitted <
      min config.maxRequests (slidingWindowInit config).capacity)
  interval : ∀ times ∈ s.past ++ [s.admitted], ∀ start,
    within start config.windowMs times ≤ config.maxRequests
  ring : s.sw.logged = s.admitted.filter fun t => s.cutoff ≤ t

/-! ## Pruning -/

section

variable {sw : LoopySlidingWindow} {now : ℕ}

theorem cutoff_eq (sw : LoopySlidingWindow) (now : ℕ) : sw.cutoff now = now - sw.windowMs := by
  unfold LoopySlidingWindow.cutoff
  split <;> omega

/-- The indices of the log fit together. -/
structure LoopySlidingWindow.Wf (sw : LoopySlidingWindow) : Prop where
  tail_lt : sw.tail < sw.capacity
  count_le : sw.count ≤ sw.capacity
  head_eq : sw.head = (sw.tail + sw.count) % sw.capacity

/-- The settings of a window are those of another. -/
structure SameSettings (sw sw' : LoopySlidingWindow) : Prop where
  capacity : sw'.capacity = sw.capacity
  windowMs : sw'.windowMs = sw.windowMs
  maxRequests : sw'.maxRequests = sw.maxRequests

theorem SameSettings.refl (sw : LoopySlidingWindow) : SameSettings sw sw := ⟨rfl, rfl, rfl⟩

theorem advance_wf (hwf : sw.Wf) (hpos : 0 < sw.count) : sw.advance.Wf := by
  have hle := hwf.count_le
  refine ⟨Nat.mod_lt _ (Nat.zero_lt_of_lt hwf.tail_lt), ?_, ?_⟩
  · show sw.count - 1 ≤ sw.capacity
    omega
  · show sw.head = ((sw.tail + 1) % sw.capacity + (sw.count - 1)) % sw.capacity
    have hcount : sw.tail + 1 + (sw.count - 1) = sw.tail + sw.count := by omega
    rw [hwf.head_eq, Nat.mod_add_mod, hcount]

theorem logged_eq_cons (hwf : sw.Wf) (hpos : 0 < sw.count) :
    sw.logged = sw.entries sw.tail :: sw.advance.logged := by
  have hcount : sw.count = (sw.count - 1) + 1 := by omega
  rw [LoopySlidingWindow.logged, hcount]
  exact circular_cons hwf.tail_lt

theorem logged_eq_nil (hcount : sw.count = 0) : sw.logged = [] := by
  rw [LoopySlidingWindow.logged, hcount]
  rfl

/-- The loop drops the leading times before the cutoff. -/
theorem pruneLoop_spec (cutoff left : ℕ) (hleft : sw.count = left) (hwf : sw.Wf) :
    (pruneLoop cutoff left sw).Wf ∧ SameSettings sw (pruneLoop cutoff left sw) ∧
      (pruneLoop cutoff left sw).logged = sw.logged.dropWhile fun t => t < cutoff := by
  induction left generalizing sw with
  | zero =>
    refine ⟨hwf, .refl sw, ?_⟩
    show sw.logged = _
    rw [logged_eq_nil hleft]
    rfl
  | succ left ih =>
    have hpos : 0 < sw.count := by omega
    rw [logged_eq_cons hwf hpos]
    by_cases hold : sw.entries sw.tail ≥ cutoff
    · rw [pruneLoop, if_pos hold, List.dropWhile_cons_of_neg (by simpa using hold)]
      exact ⟨hwf, .refl sw, logged_eq_cons hwf hpos⟩
    · rw [pruneLoop, if_neg hold, List.dropWhile_cons_of_pos (by simpa using hold)]
      have hleft' : sw.advance.count = left := by
        show sw.count - 1 = left
        omega
      obtain ⟨hwf', hsame, hlogged⟩ := ih hleft' (advance_wf hwf hpos)
      exact ⟨hwf', ⟨hsame.capacity, hsame.windowMs, hsame.maxRequests⟩, hlogged⟩

/-- In a sorted list the times before the cutoff lead. -/
theorem dropWhile_eq_filter {l : List ℕ} (hl : l.Pairwise (· ≤ ·)) (cutoff : ℕ) :
    (l.dropWhile fun t => t < cutoff) = l.filter fun t => cutoff ≤ t := by
  induction l with
  | nil => rfl
  | cons t l ih =>
    obtain ⟨hle, hl⟩ := List.pairwise_cons.mp hl
    by_cases hold : t < cutoff
    · rw [List.dropWhile_cons_of_pos (by simpa using hold), ih hl,
        List.filter_cons_of_neg (by simpa using hold)]
    · have hall : ∀ u ∈ t :: l, cutoff ≤ u := by
        intro u hu
        rcases List.mem_cons.mp hu with rfl | hu
        · omega
        · have := hle u hu
          omega
      rw [List.dropWhile_cons_of_neg (by simpa using hold), List.filter_eq_self.mpr]
      intro u hu
      simpa using hall u hu

theorem slidingWindowPrune_spec (hwf : sw.Wf) (hsorted : sw.logged.Pairwise (· ≤ ·)) (now : ℕ) :
    (slidingWindowPrune sw now).Wf ∧ SameSettings sw (slidingWindowPrune sw now) ∧
      (slidingWindowPrune sw now).logged = sw.logged.filter fun t => sw.cutoff now ≤ t := by
  obtain ⟨hwf', hsame, hlogged⟩ := pruneLoop_spec (sw.cutoff now) sw.count rfl hwf
  exact ⟨hwf', hsame, hlogged.trans (dropWhile_eq_filter hsorted _)⟩

/-- Logging a time appends it. -/
theorem log_spec (hwf : sw.Wf) (hlt : sw.count < sw.capacity) (now : ℕ) :
    (sw.log now).Wf ∧ (sw.log now).logged = sw.logged ++ [now] := by
  refine ⟨⟨hwf.tail_lt, hlt, ?_⟩, ?_⟩
  · show (sw.head + 1) % sw.capacity = (sw.tail + (sw.count + 1)) % sw.capacity
    rw [hwf.head_eq, Nat.mod_add_mod, Nat.add_assoc]
  · show circular (Function.update sw.entries sw.head now) sw.capacity sw.tail (sw.count + 1) = _
    rw [hwf.head_eq]
    exact circular_push hlt now

/-! ## The log is the sorted suffix of the admitted times -/

variable {s s' : Calls} {a : Call} {config : LoopySlidingWindowConfig}

/-- The invariant. -/
structure WindowInv (config : LoopySlidingWindowConfig) (s : Calls) : Prop where
  settings : SameSettings (slidingWindowInit config) s.sw
  wf : s.sw.Wf
  sorted : s.admitted.Pairwise (· ≤ ·)
  le_clock : ∀ t ∈ s.admitted, t ≤ s.clock
  cutoff_le : s.cutoff ≤ s.clock - config.windowMs
  ring : s.sw.logged = s.admitted.filter fun t => s.cutoff ≤ t
  interval : ∀ times ∈ s.past ++ [s.admitted], ∀ start,
    within start config.windowMs times ≤ config.maxRequests

theorem WindowInv.cutoff_eq (h : WindowInv config s) (now : ℕ) :
    s.sw.cutoff now = now - config.windowMs := by
  rw [SlidingWindow.cutoff_eq, h.settings.windowMs]
  rfl

/-- What is left after pruning are the times from the new cutoff on. -/
theorem WindowInv.prune (h : WindowInv config s) (hnow : s.clock ≤ now) :
    (slidingWindowPrune s.sw now).Wf ∧
      SameSettings (slidingWindowInit config) (slidingWindowPrune s.sw now) ∧
      (slidingWindowPrune s.sw now).logged =
        s.admitted.filter fun t => s.sw.cutoff now ≤ t := by
  have hsorted : s.sw.logged.Pairwise (· ≤ ·) := by
    rw [h.ring]
    exact h.sorted.filter _
  obtain ⟨hwf, hsame, hlogged⟩ := slidingWindowPrune_spec h.wf hsorted now
  refine ⟨hwf, ⟨?_, ?_, ?_⟩, ?_⟩
  · exact hsame.capacity.trans h.settings.capacity
  · exact hsame.windowMs.trans h.settings.windowMs
  · exact hsame.maxRequests.trans h.settings.maxRequests
  · have hcutoff : s.cutoff ≤ s.sw.cutoff now := by
      have hle := h.cutoff_le
      rw [h.cutoff_eq]
      omega
    rw [hlogged, h.ring, List.filter_filter]
    apply List.filter_congr
    intro t _
    simp only [← Bool.decide_and, decide_eq_decide]
    omega

/-- After pruning the count is the number of requests allowed in the window. -/
theorem WindowInv.count_eq (h : WindowInv config s) (hnow : s.clock ≤ now) :
    (slidingWindowPrune s.sw now).count = recent now config.windowMs s.admitted := by
  obtain ⟨_, _, hlogged⟩ := h.prune hnow
  have hlength := congrArg List.length hlogged
  rw [LoopySlidingWindow.logged, length_circular, ← List.countP_eq_length_filter] at hlength
  rw [hlength]
  apply List.countP_congr
  intro t ht
  have hle := h.le_clock t ht
  rw [h.cutoff_eq]
  simp only [decide_eq_true_eq]
  omega

@[simp] theorem result_of_eq_allowed {allowed : Bool} :
    LoopyRateLimitResult.of allowed = .allowed ↔ allowed = true := by
  cases allowed <;> simp [LoopyRateLimitResult.of]

/-- A check is allowed exactly while the window has room. -/
theorem WindowInv.exact (h : WindowInv config s) (hnow : s.clock ≤ now) :
    (slidingWindowCheck s.sw now).1 = .allowed ↔ recent now config.windowMs s.admitted <
      min config.maxRequests (slidingWindowInit config).capacity := by
  obtain ⟨_, hsame, _⟩ := h.prune hnow
  rw [← h.count_eq hnow, ← hsame.capacity]
  have hmax : config.maxRequests = (slidingWindowPrune s.sw now).maxRequests :=
    hsame.maxRequests.symm
  rw [hmax, lt_min_iff, slidingWindowCheck, result_of_eq_allowed, decide_eq_true_iff]

/-- An interval that ends with the new time or later holds no more of the old ones than the
window of the new time. -/
theorem within_le_recent {times : List ℕ} (hle : ∀ t ∈ times, t ≤ now) {start length : ℕ}
    (hend : now ≤ start + length) : within start length times ≤ recent now length times := by
  apply List.countP_mono_left
  intro t ht hin
  have htime := hle t ht
  simp only [decide_eq_true_eq] at hin ⊢
  omega

/-- Allowing a request below the limit keeps every interval at the limit. -/
theorem within_append {times : List ℕ} (hle : ∀ t ∈ times, t ≤ now) {length limit : ℕ}
    (hold : ∀ start, within start length times ≤ limit)
    (hrecent : recent now length times < limit) (start : ℕ) :
    within start length (times ++ [now]) ≤ limit := by
  have hstart := hold start
  rw [within, List.countP_append, List.countP_singleton]
  by_cases hin : start ≤ now ∧ now ≤ start + length
  · have hless := within_le_recent hle hin.2
    unfold within at hless
    split <;> omega
  · unfold within at hstart
    rw [if_neg (by simpa using hin)]
    omega

/-! ## One call -/

/-- The state after pruning. -/
def Calls.prune (s : Calls) (now : ℕ) : Calls :=
  { s with sw := slidingWindowPrune s.sw now, clock := now, cutoff := s.sw.cutoff now }

/-- The state after logging an allowed request. -/
def Calls.allow (s : Calls) (now : ℕ) : Calls :=
  { s with sw := s.sw.log now, admitted := s.admitted ++ [now] }

/-- The state after a reset. -/
def Calls.reset (s : Calls) (now : ℕ) : Calls :=
  { s with
    sw := slidingWindowReset s.sw
    clock := now
    admitted := []
    past := s.past ++ [s.admitted] }

/-- What a call does. -/
inductive Effect (s : Calls) : Calls → Prop
  | prunes (now : ℕ) (hnow : s.clock ≤ now) : Effect s (s.prune now)
  | allows (now : ℕ) (hnow : s.clock ≤ now)
      (hmax : (slidingWindowPrune s.sw now).count < (slidingWindowPrune s.sw now).maxRequests)
      (hcapacity : (slidingWindowPrune s.sw now).count < (slidingWindowPrune s.sw now).capacity) :
      Effect s ((s.prune now).allow now)
  | resets (now : ℕ) (hnow : s.clock ≤ now) : Effect s (s.reset now)

theorem step_effect (hstep : step s a = some s') : Effect s s' := by
  obtain ⟨hnow, hstep⟩ := Option.ite_none_right_eq_some.mp hstep
  cases a with
  | check now =>
    cases hstep
    by_cases hroom :
      (slidingWindowPrune s.sw now).count < (slidingWindowPrune s.sw now).maxRequests ∧
      (slidingWindowPrune s.sw now).count < (slidingWindowPrune s.sw now).capacity
    · simp only [decide_eq_true hroom, LoopyRateLimitResult.of, if_true]
      exact .allows now hnow hroom.1 hroom.2
    · simp only [decide_eq_false hroom, LoopyRateLimitResult.of, Bool.false_eq_true, if_false,
        reduceCtorEq]
      exact .prunes now hnow
  | peek now =>
    cases hstep
    exact .prunes now hnow
  | reset now =>
    cases hstep
    exact .resets now hnow

theorem WindowInv.pruned (h : WindowInv config s) (hnow : s.clock ≤ now) :
    WindowInv config (s.prune now) := by
  obtain ⟨hwf, hsame, hlogged⟩ := h.prune hnow
  refine ⟨hsame, hwf, h.sorted, fun t ht => (h.le_clock t ht).trans hnow, ?_, hlogged, h.interval⟩
  exact (h.cutoff_eq now).le

theorem WindowInv.allowed (h : WindowInv config s)
    (hmax : s.sw.count < config.maxRequests) (hcapacity : s.sw.count < s.sw.capacity)
    (hcount : s.sw.count = recent s.clock config.windowMs s.admitted) :
    WindowInv config (s.allow s.clock) := by
  obtain ⟨hwf, hlogged⟩ := log_spec h.wf hcapacity s.clock
  have hsettings : SameSettings (slidingWindowInit config) (s.sw.log s.clock) :=
    ⟨h.settings.capacity, h.settings.windowMs, h.settings.maxRequests⟩
  refine ⟨hsettings, hwf, ?_, ?_, h.cutoff_le, ?_, ?_⟩
  · show (s.admitted ++ [s.clock]).Pairwise (· ≤ ·)
    refine List.pairwise_append.mpr ⟨h.sorted, List.pairwise_singleton _ _, fun t ht u hu => ?_⟩
    rw [List.mem_singleton.mp hu]
    exact h.le_clock t ht
  · intro t ht
    rcases List.mem_append.mp ht with ht | ht
    · exact h.le_clock t ht
    · exact (List.mem_singleton.mp ht).le
  · have hcutoff : s.cutoff ≤ s.clock := h.cutoff_le.trans (Nat.sub_le _ _)
    show (s.sw.log s.clock).logged = (s.admitted ++ [s.clock]).filter fun t => s.cutoff ≤ t
    rw [hlogged, h.ring, List.filter_append]
    simp [hcutoff]
  · intro times htimes
    rcases List.mem_append.mp htimes with hpast | hlast
    · exact h.interval times (List.mem_append_left _ hpast)
    · rw [List.mem_singleton.mp hlast]
      have hold := h.interval s.admitted (List.mem_append_right _ (List.mem_singleton.mpr rfl))
      rw [hcount] at hmax
      exact within_append h.le_clock hold hmax

theorem WindowInv.reset (h : WindowInv config s) (hnow : s.clock ≤ now) :
    WindowInv config (s.reset now) := by
  have hpos : 0 < s.sw.capacity := Nat.zero_lt_of_lt h.wf.tail_lt
  have hsettings : SameSettings (slidingWindowInit config) (slidingWindowReset s.sw) :=
    ⟨h.settings.capacity, h.settings.windowMs, h.settings.maxRequests⟩
  refine ⟨hsettings, ⟨hpos, Nat.zero_le _, (Nat.zero_mod _).symm⟩, .nil, ?_, ?_, rfl, ?_⟩
  · intro t ht
    cases ht
  · exact h.cutoff_le.trans (Nat.sub_le_sub_right hnow _)
  · intro times htimes start
    rcases List.mem_append.mp htimes with hpast | hlast
    · exact h.interval times hpast start
    · rw [List.mem_singleton.mp hlast]
      exact Nat.zero_le _

theorem WindowInv.effect (h : WindowInv config s) (he : Effect s s') : WindowInv config s' := by
  cases he with
  | prunes now hnow => exact h.pruned hnow
  | allows now hnow hmax hcapacity =>
    have hpruned := h.pruned hnow
    have hlimit : (slidingWindowPrune s.sw now).maxRequests = config.maxRequests :=
      hpruned.settings.maxRequests
    exact hpruned.allowed (hmax.trans_eq hlimit) hcapacity (h.count_eq hnow)
  | resets now hnow => exact h.reset hnow

theorem WindowInv.fresh (config : LoopySlidingWindowConfig) :
    WindowInv config (.fresh config) := by
  have hpos : 0 < (slidingWindowInit config).capacity := by
    show 0 < if config.maxEntries > 0 then config.maxEntries else SLIDING_WINDOW_DEFAULT_MAX_ENTRIES
    split
    · next hentries => exact hentries
    · decide
  refine ⟨.refl _, ⟨hpos, Nat.zero_le _, (Nat.zero_mod _).symm⟩, .nil, ?_, Nat.zero_le _, rfl, ?_⟩
  · intro t ht
    cases ht
  · intro times htimes start
    rw [List.mem_singleton.mp htimes]
    exact Nat.zero_le _

theorem WindowInv.law (h : WindowInv config s) : WindowLaw config s :=
  ⟨fun _ hnow _ => h.exact hnow, h.interval, h.ring⟩

end

/-- **The sliding window is exact.** In every run in which the windows end within `uint64_t`, a
check is allowed if and only if fewer than `maxRequests` and fewer than `capacity` checks were
allowed since the last reset in the window that ends with it; no interval of the length of the
window holds more than `maxRequests` checks that were allowed between two resets; and the log
holds the allowed times not yet pruned, in order. -/
theorem window_exact (config : LoopySlidingWindowConfig) (as : List Call) (s : Calls)
    (hrun : Run step InRange (.fresh config) as s) : WindowLaw config s := by
  have hinv : WindowInv config s :=
    hrun.invariant (fun _ _ _ h _ hstep => h.effect (step_effect hstep)) (.fresh config)
  exact hinv.law

/-- A window of 10 ms with 2 requests and 3 entries, in which the log wraps around. -/
def wrapRun : List Call :=
  [.check 0, .check 4, .check 5, .peek 11, .check 11, .check 20, .reset 21, .check 22]

theorem window_exact_wrapRun : ∃ s, Run step InRange (.fresh ⟨10, 2, 3⟩) wrapRun s ∧
    WindowLaw ⟨10, 2, 3⟩ s ∧ s.admitted = [22] ∧ s.past = [[0, 4, 11, 20]] := by
  have hexec : (exec step InRange (.fresh ⟨10, 2, 3⟩) wrapRun).map
      (fun s => (s.admitted, s.past)) = some ([22], [[0, 4, 11, 20]]) := by decide +kernel
  obtain ⟨s, hrun, hval⟩ := Run.of_exec_map hexec
  obtain ⟨hadmitted, hpast⟩ := Prod.mk.inj hval
  exact ⟨s, hrun, window_exact ⟨10, 2, 3⟩ wrapRun s hrun, hadmitted, hpast⟩

/-- A reset empties the log: a window of one request allows two at the same time. -/
theorem interval_exceeded :
    ¬ ∀ as s, Run step InRange (.fresh ⟨10, 1, 1⟩) as s →
      ∀ start, within start 10 (s.past.flatten ++ s.admitted) ≤ 1 := by
  intro hall
  have hexec : (exec step InRange (.fresh ⟨10, 1, 1⟩) [.check 0, .reset 0, .check 0]).map
      (fun s => s.past.flatten ++ s.admitted) = some [0, 0] := by decide +kernel
  obtain ⟨s, hs, htimes⟩ := Run.of_exec_map hexec
  have hle := hall _ s hs 0
  rw [htimes] at hle
  revert hle
  decide

end Loopy.SlidingWindow
