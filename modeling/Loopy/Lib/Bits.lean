import Mathlib.Data.Nat.Bitwise
import Mathlib.Data.Nat.Size
import Mathlib.Tactic.Common

/-!
# Bit operations

Smearing, rounding and translating: what the bit tricks of the code compute.
-/

namespace Loopy.Lib

/-! ## Smearing

Or-ing a number with its own right shifts by 1, 2, 4, ... copies its highest bit into every
lower position. `Smeared m s a` says that `a` has bit `i` when `m` has one of the bits `i`,
..., `i + s - 1`; each step doubles `s`, and once `s` covers `m` the result is `2 ^ size m - 1`.
-/

section Smearing

/-- Bit `i` of `a` is the disjunction of the `s` bits of `m` from `i` on. -/
def Smeared (m s a : ℕ) : Prop := ∀ i, a.testBit i = true ↔ ∃ j < s, m.testBit (i + j) = true

theorem Smeared.self (m : ℕ) : Smeared m 1 m := by
  intro i
  constructor
  · intro h
    exact ⟨0, Nat.zero_lt_one, h⟩
  · rintro ⟨j, hj, h⟩
    obtain rfl : j = 0 := by omega
    exact h

theorem Smeared.double {m s a : ℕ} (h : Smeared m s a) : Smeared m (s + s) (a ||| a >>> s) := by
  intro i
  rw [Nat.testBit_or, Nat.testBit_shiftRight, Bool.or_eq_true, h i, h (s + i)]
  constructor
  · rintro (⟨j, hj, hbit⟩ | ⟨j, hj, hbit⟩)
    · exact ⟨j, by omega, hbit⟩
    · exact ⟨s + j, by omega, by rw [← hbit]; congr 1; omega⟩
  · rintro ⟨j, hj, hbit⟩
    by_cases hjs : j < s
    · exact .inl ⟨j, hjs, hbit⟩
    · exact .inr ⟨j - s, by omega, by rw [← hbit]; congr 1; omega⟩

/-- A smear that covers `m` fills all positions below its highest bit. -/
theorem Smeared.eq_two_pow {m s a : ℕ} (h : Smeared m s a) (hm : m < 2 ^ s) :
    a = 2 ^ m.size - 1 := by
  refine Nat.eq_of_testBit_eq fun i => ?_
  rw [Bool.eq_iff_iff, h i, Nat.testBit_two_pow_sub_one, decide_eq_true_iff]
  constructor
  · rintro ⟨j, _, hbit⟩
    by_contra hsize
    have hlt : m < 2 ^ (i + j) :=
      lt_of_lt_of_le (Nat.lt_size_self m) (Nat.pow_le_pow_right (by omega) (by omega))
    rw [Nat.testBit_eq_false_of_lt hlt] at hbit
    cases hbit
  · intro hsize
    -- the highest bit of `m` is at most `s - 1` positions above `i`
    have hpos : 0 < m.size := by omega
    have hsizes : m.size ≤ s := Nat.size_le.mpr hm
    refine ⟨m.size - 1 - i, by omega, ?_⟩
    rw [show i + (m.size - 1 - i) = m.size - 1 by omega]
    have hle : 2 ^ (m.size - 1) ≤ m := Nat.lt_size.mp (by omega)
    have hgt : m < 2 ^ (m.size - 1 + 1) := by
      rw [show m.size - 1 + 1 = m.size by omega]
      exact Nat.lt_size_self m
    exact Nat.testBit_of_two_pow_le_and_two_pow_add_one_gt hle hgt

end Smearing

/-! ## Rounding to a power of two

`x &&& ~~~(p - 1)` clears the bits of `x` below the one bit of `p`: it is the multiple of `p` at
or below `x`.
-/

section Rounding

variable {w k : ℕ}

/-- The multiple of `p` at or below `x`, for a power of two `p`. -/
def alignDown (p x : BitVec w) : BitVec w := x &&& ~~~(p - 1)

variable {p : BitVec w}

theorem lt_width (hp : p.toNat = 2 ^ k) : k < w := by
  have hlt := p.isLt
  rw [hp] at hlt
  exact (Nat.pow_lt_pow_iff_right (by omega)).mp hlt

theorem toNat_sub_one (hp : p.toNat = 2 ^ k) : (p - 1).toNat = 2 ^ k - 1 := by
  have hpos : 0 < 2 ^ k := Nat.two_pow_pos k
  have hw : 1 < 2 ^ w := Nat.one_lt_two_pow (by have := lt_width hp; omega)
  have hone : (1 : BitVec w).toNat = 1 := by
    rw [BitVec.ofNat_eq_ofNat, BitVec.toNat_ofNat, Nat.mod_eq_of_lt hw]
  rw [BitVec.toNat_sub_of_le, hp, hone]
  rw [BitVec.le_def, hp, hone]
  exact hpos

theorem alignDown_toNat (hp : p.toNat = 2 ^ k) (x : BitVec w) :
    (alignDown p x).toNat = x.toNat / 2 ^ k * 2 ^ k := by
  refine Nat.eq_of_testBit_eq fun i => ?_
  rw [← Nat.shiftRight_eq_div_pow, ← Nat.shiftLeft_eq, Nat.testBit_shiftLeft,
    Nat.testBit_shiftRight, alignDown, ← BitVec.getLsbD, BitVec.getLsbD_and, BitVec.getLsbD_not,
    BitVec.getLsbD, BitVec.getLsbD, toNat_sub_one hp, Nat.testBit_two_pow_sub_one]
  by_cases hki : k ≤ i
  · rw [show k + (i - k) = i by omega]
    by_cases hiw : i < w
    · simp [hki, hiw]
    · have hlt : x.toNat < 2 ^ i :=
        lt_of_lt_of_le x.isLt (Nat.pow_le_pow_right (by omega) (by omega))
      simp [Nat.testBit_eq_false_of_lt hlt]
  · have hlt : i < k := by omega
    simp [hki, hlt]

theorem alignDown_dvd (hp : p.toNat = 2 ^ k) (x : BitVec w) : p.toNat ∣ (alignDown p x).toNat := by
  rw [alignDown_toNat hp, hp]
  exact Nat.dvd_mul_left _ _

theorem alignDown_le (hp : p.toNat = 2 ^ k) (x : BitVec w) : (alignDown p x).toNat ≤ x.toNat := by
  rw [alignDown_toNat hp]
  exact Nat.div_mul_le_self _ _

theorem lt_alignDown_add (hp : p.toNat = 2 ^ k) (x : BitVec w) :
    x.toNat < (alignDown p x).toNat + p.toNat := by
  rw [alignDown_toNat hp, hp]
  exact Nat.lt_div_mul_add (Nat.two_pow_pos k)

end Rounding

/-! ## Translations of masks

A table pairs bits of one mask with bits of another one, and a mask is translated bit by bit. The
two directions of a translation are adjoint: a translated mask has a bit in common with `y` exactly
if `y`, translated back, has one in common with the mask.
-/

section Translations

variable {w v : ℕ}

/-- The bits that the table gives for those of `x`. -/
def translate (table : List (BitVec w × BitVec v)) (x : BitVec w) : BitVec v :=
  table.foldl (fun y e => if x &&& e.1 ≠ 0#w then y ||| e.2 else y) 0#v

theorem and_or_ne_zero {x y z : BitVec w} :
    x &&& (y ||| z) ≠ 0#w ↔ x &&& y ≠ 0#w ∨ x &&& z ≠ 0#w := by
  rw [BitVec.and_or_distrib_left, ne_eq, BitVec.or_eq_zero_iff, not_and_or]

theorem and_foldl_ne_zero (table : List (BitVec w × BitVec v)) (x : BitVec w) (y z : BitVec v) :
    y &&& table.foldl (fun y e => if x &&& e.1 ≠ 0#w then y ||| e.2 else y) z ≠ 0#v ↔
      y &&& z ≠ 0#v ∨ ∃ e ∈ table, x &&& e.1 ≠ 0#w ∧ y &&& e.2 ≠ 0#v := by
  induction table generalizing z with
  | nil => simp
  | cons e table ih =>
    rw [List.foldl_cons, ih]
    simp only [List.mem_cons, exists_eq_or_imp]
    by_cases he : x &&& e.1 ≠ 0#w
    · rw [if_pos he, and_or_ne_zero, or_assoc, and_iff_right he]
    · rw [if_neg he, ← or_assoc]
      simp only [he, false_and, or_false]

theorem and_translate_ne_zero (table : List (BitVec w × BitVec v)) (x : BitVec w) (y : BitVec v) :
    y &&& translate table x ≠ 0#v ↔ ∃ e ∈ table, x &&& e.1 ≠ 0#w ∧ y &&& e.2 ≠ 0#v := by
  rw [translate, and_foldl_ne_zero, BitVec.and_zero]
  simp only [ne_eq, not_true_eq_false, false_or]

/-- The translations there and back are adjoint. -/
theorem translate_swap (table : List (BitVec w × BitVec v)) (x : BitVec w) (y : BitVec v) :
    y &&& translate table x ≠ 0#v ↔ x &&& translate (table.map Prod.swap) y ≠ 0#w := by
  rw [and_translate_ne_zero, and_translate_ne_zero]
  constructor
  · rintro ⟨e, he, hx, hy⟩
    exact ⟨e.swap, List.mem_map_of_mem he, hy, hx⟩
  · rintro ⟨e, he, hy, hx⟩
    obtain ⟨e, hmem, rfl⟩ := List.mem_map.mp he
    exact ⟨e, hmem, hx, hy⟩

end Translations

end Loopy.Lib
