import Mathlib.Algebra.BigOperators.Group.List.Basic
import Mathlib.Algebra.Order.Field.Basic
import Mathlib.Tactic.Linarith
import Mathlib.Tactic.Ring

/-!
# Meters

A meter has a level that grows at a constant rate. An operation may take a cost from it, and
what it took and what it left were together one of the meter's `levels`; or it resets the level.
The level is the potential of the burst bound: what the operations of an interval took is at
most one level and what the rate gives in that time (`Metered.spent_le`).
-/

namespace Loopy.Lib

/-- An operation on a meter: when it ran, what it took, and whether it reset the level. -/
structure Charge (R : Type*) where
  time : R
  cost : R
  reset : Bool
deriving DecidableEq, Repr

/-- A meter: the time of the last operation, the level it left, and all operations. -/
structure Meter (R : Type*) where
  now : R
  level : R
  charges : List (Charge R)

section

variable {R : Type*} [Field R] [LinearOrder R]

/-- The operation ran between `t₁` and `t₂`. -/
def Charge.Within (t₁ t₂ : R) (c : Charge R) : Prop := t₁ ≤ c.time ∧ c.time ≤ t₂

instance (t₁ t₂ : R) (c : Charge R) : Decidable (c.Within t₁ t₂) :=
  inferInstanceAs (Decidable (_ ∧ _))

/-- What the operations between `t₁` and `t₂` took. -/
def spent (t₁ t₂ : R) (cs : List (Charge R)) : R :=
  ((cs.filter fun c => c.Within t₁ t₂).map Charge.cost).sum

/-- No reset between `t₁` and `t₂`. -/
def NoReset (t₁ t₂ : R) (cs : List (Charge R)) : Prop :=
  ∀ c ∈ cs, c.reset = true → ¬ c.Within t₁ t₂

/-- One operation on a meter that grows at `rate`. -/
inductive Meter.Step (rate : R) (levels : Set R) (m : Meter R) : Meter R → Prop
  | charge (now cost level : R) (hnow : m.now ≤ now) (hlevel : 0 ≤ level)
      (hmem : cost + level ∈ levels) (hgrown : cost + level ≤ m.level + rate * (now - m.now)) :
      Step rate levels m ⟨now, level, m.charges ++ [⟨now, cost, false⟩]⟩
  | reset (now level : R) (hnow : m.now ≤ now) (hlevel : 0 ≤ level) :
      Step rate levels m ⟨now, level, m.charges ++ [⟨now, 0, true⟩]⟩

/-- What was taken between `t₁` and `t₂`, before the interval, in it and after it. -/
inductive Budget (rate : R) (levels : Set R) (t₁ t₂ : R) (m : Meter R) : Prop
  | untouched (hspent : spent t₁ t₂ m.charges = 0)
  | taking (full : R) (hfull : full ∈ levels) (hstart : t₁ ≤ m.now) (hend : m.now ≤ t₂)
      (hspent : spent t₁ t₂ m.charges + m.level ≤ full + rate * (m.now - t₁))
  | ended (full : R) (hfull : full ∈ levels) (hend : t₂ < m.now)
      (hspent : spent t₁ t₂ m.charges ≤ full + rate * (t₂ - t₁))

/-- The invariant of a meter. -/
structure Metered (rate : R) (levels : Set R) (m : Meter R) : Prop where
  level_nonneg : 0 ≤ m.level
  budget : ∀ t₁ t₂, NoReset t₁ t₂ m.charges → Budget rate levels t₁ t₂ m

/-! ## Appending an operation -/

variable {rate t₁ t₂ : R} {levels : Set R} {m m' : Meter R} {cs : List (Charge R)} {c : Charge R}

theorem spent_append_within (h : c.Within t₁ t₂) :
    spent t₁ t₂ (cs ++ [c]) = spent t₁ t₂ cs + c.cost := by
  rw [spent, List.filter_append, List.map_append, List.sum_append, List.filter_singleton,
    decide_eq_true h]
  simp [spent]

theorem spent_append_of_not (h : ¬ c.Within t₁ t₂) :
    spent t₁ t₂ (cs ++ [c]) = spent t₁ t₂ cs := by
  rw [spent, List.filter_append, List.filter_singleton, decide_eq_false h]
  simp [spent]

omit [Field R] in
theorem NoReset.of_append (h : NoReset t₁ t₂ (cs ++ [c])) : NoReset t₁ t₂ cs :=
  fun d hd => h d (List.mem_append_left _ hd)

/-! ## One operation keeps the budget -/

variable [IsStrictOrderedRing R]

/-- An operation outside the interval takes nothing from its budget. -/
theorem Budget.outside (hrate : 0 ≤ rate) (hlevel : 0 ≤ m.level) (h : Budget rate levels t₁ t₂ m)
    (hnow : m.now ≤ m'.now) (hcharges : m'.charges = m.charges ++ [c]) (htime : c.time = m'.now)
    (hout : ¬ c.Within t₁ t₂) : Budget rate levels t₁ t₂ m' := by
  have hsame : spent t₁ t₂ m'.charges = spent t₁ t₂ m.charges := by
    rw [hcharges]
    exact spent_append_of_not hout
  cases h with
  | untouched hspent => exact .untouched (hsame.trans hspent)
  | taking full hfull hstart hend hspent =>
    have hlate : t₂ < m'.now := by
      by_contra hle
      exact hout ⟨by rw [htime]; exact hstart.trans hnow, by rw [htime]; exact not_lt.mp hle⟩
    refine .ended full hfull hlate ?_
    have hgrow : rate * (m.now - t₁) ≤ rate * (t₂ - t₁) :=
      mul_le_mul_of_nonneg_left (by linarith) hrate
    rw [hsame]
    linarith
  | ended full hfull hend hspent =>
    refine .ended full hfull (hend.trans_le hnow) ?_
    rw [hsame]
    exact hspent

theorem Meter.Step.budget (hstep : Meter.Step rate levels m m') (hrate : 0 ≤ rate)
    (hlevel : 0 ≤ m.level) (h : Budget rate levels t₁ t₂ m) (hno : NoReset t₁ t₂ m'.charges) :
    Budget rate levels t₁ t₂ m' := by
  cases hstep with
  | reset now level hnow _ =>
    refine h.outside hrate hlevel hnow rfl rfl ?_
    exact hno _ (List.mem_append_right _ (List.mem_singleton.mpr rfl)) rfl
  | charge now cost level hnow _ hmem hgrown =>
    by_cases hin : Charge.Within t₁ t₂ ⟨now, cost, false⟩
    · have hadd : spent t₁ t₂ (m.charges ++ [⟨now, cost, false⟩]) = spent t₁ t₂ m.charges + cost :=
        spent_append_within hin
      obtain ⟨hstart, hend⟩ := hin
      have hgrow : 0 ≤ rate * (now - t₁) := mul_nonneg hrate (by linarith)
      cases h with
      | untouched hspent =>
        -- the first operation in the interval finds one of the levels
        refine .taking (cost + level) hmem hstart hend ?_
        show spent t₁ t₂ (m.charges ++ [⟨now, cost, false⟩]) + level ≤ _
        rw [hadd, hspent]
        linarith
      | taking full hfull hs he hspent =>
        refine .taking full hfull hstart hend ?_
        show spent t₁ t₂ (m.charges ++ [⟨now, cost, false⟩]) + level ≤ _
        have hsplit : rate * (now - t₁) = rate * (now - m.now) + rate * (m.now - t₁) := by ring
        rw [hadd, hsplit]
        linarith
      | ended full hfull hlate _ =>
        exact absurd (hlate.trans_le hnow) (not_lt.mpr hend)
    · exact h.outside hrate hlevel hnow rfl rfl hin

/-- **One operation keeps the invariant.** -/
theorem Metered.step (h : Metered rate levels m) (hrate : 0 ≤ rate)
    (hstep : Meter.Step rate levels m m') : Metered rate levels m' := by
  refine ⟨?_, fun t₁ t₂ hno => ?_⟩
  · cases hstep with
    | charge _ _ _ _ hlevel => exact hlevel
    | reset _ _ _ hlevel => exact hlevel
  · have hold : NoReset t₁ t₂ m.charges := by
      cases hstep with
      | charge => exact hno.of_append
      | reset => exact hno.of_append
    exact hstep.budget hrate h.level_nonneg (h.budget t₁ t₂ hold) hno

omit [IsStrictOrderedRing R] in
theorem Metered.fresh {now level : R} (hlevel : 0 ≤ level) :
    Metered rate levels ⟨now, level, []⟩ :=
  ⟨hlevel, fun _ _ _ => .untouched rfl⟩

/-- **The burst bound.** -/
theorem Metered.spent_le (h : Metered rate levels m) (hrate : 0 ≤ rate) (hzero : 0 ∈ levels)
    (hle : t₁ ≤ t₂) (hno : NoReset t₁ t₂ m.charges) :
    ∃ full ∈ levels, spent t₁ t₂ m.charges ≤ full + rate * (t₂ - t₁) := by
  have hgrow : 0 ≤ rate * (t₂ - t₁) := mul_nonneg hrate (by linarith)
  cases h.budget t₁ t₂ hno with
  | untouched hspent =>
    refine ⟨0, hzero, ?_⟩
    rw [hspent]
    linarith
  | taking full hfull hstart hend hspent =>
    refine ⟨full, hfull, ?_⟩
    have hlevel := h.level_nonneg
    have hmono : rate * (m.now - t₁) ≤ rate * (t₂ - t₁) :=
      mul_le_mul_of_nonneg_left (by linarith) hrate
    linarith
  | ended full hfull _ hspent => exact ⟨full, hfull, hspent⟩

end

end Loopy.Lib
