import Mathlib.Algebra.Order.BigOperators.Group.Finset

/-!
# What the threads hold together

`Total f n` says that finitely many of the amounts `f t` are not zero and that they add up to
`n`; there may be infinitely many threads. When one amount changes, so does the total.
-/

namespace Loopy.Lib

open Function (update update_of_ne update_self)

variable {T : Type*} {f : T → ℕ} {t : T} {n : ℕ}

/-- The amounts add up to `n`. -/
def Total (f : T → ℕ) (n : ℕ) : Prop :=
  ∃ F : Finset T, (∀ t ∉ F, f t = 0) ∧ ∑ t ∈ F, f t = n

theorem Total.zero : Total (fun _ : T => 0) 0 := ⟨∅, fun _ _ => rfl, rfl⟩

/-- A larger set of threads has the same total. -/
theorem sum_eq_of_subset {F G : Finset T} (h : F ⊆ G) (hzero : ∀ t ∉ F, f t = 0) :
    ∑ t ∈ G, f t = ∑ t ∈ F, f t :=
  (Finset.sum_subset h fun t _ ht => hzero t ht).symm

/-- Nobody holds more than all together. -/
theorem Total.le (h : Total f n) (t : T) : f t ≤ n := by
  obtain ⟨F, hF, rfl⟩ := h
  by_cases ht : t ∈ F
  · exact Finset.single_le_sum (fun _ _ => Nat.zero_le _) ht
  · rw [hF t ht]
    exact Nat.zero_le _

/-- If nobody holds anything, the total is zero. -/
theorem Total.eq_zero (h : Total f n) (hzero : ∀ t, f t = 0) : n = 0 := by
  obtain ⟨F, _, rfl⟩ := h
  exact Finset.sum_eq_zero fun t _ => hzero t

variable [DecidableEq T]

/-- A sum of which one term changes. -/
theorem sum_update {F : Finset T} (f : T → ℕ) (ht : t ∈ F) (x : ℕ) :
    ∑ u ∈ F, update f t x u + f t = ∑ u ∈ F, f u + x := by
  have hrest : ∑ u ∈ F.erase t, update f t x u = ∑ u ∈ F.erase t, f u :=
    Finset.sum_congr rfl fun u hu => update_of_ne (Finset.ne_of_mem_erase hu) _ _
  have hold := Finset.add_sum_erase F f ht
  have hnew := Finset.add_sum_erase F (update f t x) ht
  rw [update_self, hrest] at hnew
  omega

/-- The amount of one thread changes. -/
theorem Total.update (h : Total f n) (t : T) (x : ℕ) :
    Total (update f t x) (n - f t + x) := by
  have hle := h.le t
  obtain ⟨F, hF, rfl⟩ := h
  refine ⟨insert t F, fun u hu => ?_, ?_⟩
  · rw [Finset.mem_insert, not_or] at hu
    rw [update_of_ne hu.1]
    exact hF u hu.2
  · have hsame : ∑ u ∈ insert t F, f u = ∑ u ∈ F, f u :=
      sum_eq_of_subset (Finset.subset_insert t F) hF
    have hsum := sum_update f (Finset.mem_insert_self t F) x
    omega

/-- A sum over all threads in which the term of one thread changes. -/
theorem sum_univ_update [Fintype T] {f g : T → ℕ} (t : T) (h : ∀ u, u ≠ t → g u = f u) :
    ∑ u, g u + f t = ∑ u, f u + g t := by
  have hg : g = Function.update f t (g t) := Function.eq_update_iff.mpr ⟨rfl, h⟩
  rw [hg, sum_update f (Finset.mem_univ t), update_self]

end Loopy.Lib
