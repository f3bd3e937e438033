import Mathlib.Data.List.Basic

/-!
# Descriptor tables

The table of a process says which file every number refers to; only numbers below `size` are in
use. `open` takes the lowest number that is free, and `dup2` copies an entry over another one.
-/

namespace Loopy.Lib

open Function (update update_eq_self update_of_ne update_self)

/-- A descriptor table; `none` is a number that is free. -/
structure Descriptors (F : Type*) where
  file : ℕ → Option F
  size : ℕ
  free : ∀ n, size ≤ n → file n = none

namespace Descriptors

variable {F G : Type*} {t : Descriptors F} {m n : ℕ}

/-- The number `n` refers to `f`. -/
def set (t : Descriptors F) (n : ℕ) (f : F) : Descriptors F where
  file := update t.file n (some f)
  size := max t.size (n + 1)
  free m hm := by
    have hne : m ≠ n := by omega
    rw [update_of_ne hne]
    exact t.free m (by omega)

/-- `close`. -/
def close (t : Descriptors F) (n : ℕ) : Descriptors F where
  file := update t.file n none
  size := t.size
  free m hm := by
    by_cases hne : m = n
    · rw [hne, update_self]
    · rw [update_of_ne hne]
      exact t.free m hm

/-- `dup2`, which fails if `m` is free. -/
def dup2 (t : Descriptors F) (m n : ℕ) : Descriptors F :=
  match t.file m with
  | none => t
  | some f => t.set n f

/-- The lowest number that is free. -/
def lowest (t : Descriptors F) : ℕ :=
  ((List.range t.size).find? fun n => (t.file n).isNone).getD t.size

/-- The same numbers, with other files. -/
def map (f : F → G) (t : Descriptors F) : Descriptors G where
  file n := (t.file n).map f
  size := t.size
  free n hn := by rw [t.free n hn, Option.map_none]

theorem file_set (t : Descriptors F) (n : ℕ) (f : F) :
    (t.set n f).file = update t.file n (some f) := rfl

theorem file_close (t : Descriptors F) (n : ℕ) :
    (t.close n).file = update t.file n none := rfl

theorem file_map (f : F → G) (t : Descriptors F) (n : ℕ) :
    (t.map f).file n = (t.file n).map f := rfl

theorem file_dup2 (t : Descriptors F) (m n : ℕ) :
    (t.dup2 m n).file = update t.file n ((t.file m).or (t.file n)) := by
  unfold dup2
  cases t.file m with
  | none => rw [Option.none_or, update_eq_self]
  | some f => rw [Option.some_or, file_set]

theorem file_foldl_close (ns : List ℕ) (t : Descriptors F) (n : ℕ) :
    (ns.foldl close t).file n = if n ∈ ns then none else t.file n := by
  induction ns generalizing t with
  | nil => rfl
  | cons m ns ih =>
    rw [List.foldl_cons, ih, file_close]
    by_cases hn : n ∈ ns
    · rw [if_pos hn, if_pos (List.mem_cons_of_mem m hn)]
    · rw [if_neg hn]
      by_cases hm : n = m
      · rw [hm, update_self, if_pos List.mem_cons_self]
      · rw [update_of_ne hm, if_neg]
        intro hmem
        rcases List.mem_cons.mp hmem with hm' | hn'
        · exact hm hm'
        · exact hn hn'

theorem file_lowest (t : Descriptors F) : t.file t.lowest = none := by
  unfold lowest
  cases hfind : (List.range t.size).find? fun n => (t.file n).isNone with
  | none => exact t.free _ (Nat.le_refl _)
  | some n =>
    have hn := List.find?_some hfind
    exact Option.isNone_iff_eq_none.mp hn

theorem lowest_le (h : t.file n = none) : t.lowest ≤ n := by
  by_contra hlt
  unfold lowest at hlt
  cases hfind : (List.range t.size).find? fun n => (t.file n).isNone with
  | none =>
    rw [hfind, Option.getD_none] at hlt
    have hopen := List.find?_eq_none.mp hfind n (List.mem_range.mpr (by omega))
    rw [h] at hopen
    exact hopen rfl
  | some m =>
    rw [hfind, Option.getD_some] at hlt
    have hopen := (List.find?_range_eq_some.mp hfind).2.2 n (by omega)
    rw [h] at hopen
    cases hopen

theorem lowest_eq_iff : t.lowest = n ↔ t.file n = none ∧ ∀ m < n, t.file m ≠ none := by
  constructor
  · rintro rfl
    refine ⟨t.file_lowest, fun m hm hfree => ?_⟩
    have := lowest_le hfree
    omega
  · rintro ⟨hfree, hopen⟩
    have hle := lowest_le hfree
    by_contra hne
    exact hopen t.lowest (by omega) t.file_lowest

end Descriptors

end Loopy.Lib
