import Mathlib.Data.List.Lex
import Mathlib.Data.List.TakeWhile
import Mathlib.Order.Lattice

/-!
# Byte strings

The bytes of a C string in the order of `memcmp`, and the strings with one prefix.
-/

namespace Loopy.Lib

/-! ## Strings

The bytes of a C string, in the order of `memcmp`.
-/

section Strings

instance uint8LinearOrder : LinearOrder UInt8 where
  le_refl := UInt8.le_refl
  le_trans _ _ _ := UInt8.le_trans
  lt_iff_le_not_ge a b := by
    rw [UInt8.not_le]
    exact ⟨fun h => ⟨UInt8.le_of_lt h, h⟩, And.right⟩
  le_antisymm _ _ := UInt8.le_antisymm
  le_total := UInt8.le_total
  toDecidableLE := inferInstance
  toDecidableLT := inferInstance
  toDecidableEq := inferInstance

/-- The bytes of a C string. -/
abbrev CString := List UInt8

end Strings

/-! ## The range of a prefix

In lexicographic order the words that begin with `p` are an interval from `p` on. In a list of words
in order they are found by a search for the first one that is not below `p`, and end with the first
one that does not begin with it.
-/

section Prefixes

variable {α : Type*} [LinearOrder α] {p k k' : List α} {l : List (List α)}

theorem cons_le_cons_cases {a b : α} {k k' : List α} (h : a :: k ≤ b :: k') :
    a < b ∨ a = b ∧ k ≤ k' := by
  rcases lt_or_eq_of_le h with hlt | heq
  · rcases List.cons_lt_cons_iff.mp hlt with hlt | ⟨hab, hlt⟩
    · exact .inl hlt
    · exact .inr ⟨hab, le_of_lt hlt⟩
  · cases heq
    exact .inr ⟨rfl, le_refl k⟩

theorem le_of_begins (h : p <+: k) : p ≤ k := by
  induction p generalizing k with
  | nil =>
    cases k with
    | nil => exact le_refl []
    | cons b k => exact le_of_lt (List.nil_lt_cons b k)
  | cons a p ih =>
    cases k with
    | nil => exact absurd (List.prefix_nil.mp h) (List.cons_ne_nil a p)
    | cons b k =>
      obtain ⟨rfl, hp⟩ := List.cons_prefix_cons.mp h
      exact List.cons_le_cons a (ih hp)

/-- What lies between `p` and a word that begins with `p` begins with `p`. -/
theorem prefix_of_between (hp : p ≤ k) (hk : k ≤ k') (h : p <+: k') : p <+: k := by
  induction p generalizing k k' with
  | nil => exact List.nil_prefix
  | cons a p ih =>
    cases k with
    | nil => exact absurd hp (not_le_of_gt (List.nil_lt_cons a p))
    | cons b k =>
      cases k' with
      | nil => exact absurd (List.prefix_nil.mp h) (List.cons_ne_nil a p)
      | cons c k' =>
        obtain ⟨rfl, hpk'⟩ := List.cons_prefix_cons.mp h
        rcases cons_le_cons_cases hp with hab | ⟨rfl, hpk⟩
        · rcases cons_le_cons_cases hk with hba | ⟨rfl, -⟩
          · exact absurd hba (not_lt_of_gt hab)
          · exact absurd hab (lt_irrefl _)
        · rcases cons_le_cons_cases hk with haa | ⟨-, hkk'⟩
          · exact absurd haa (lt_irrefl _)
          · exact List.cons_prefix_cons.mpr ⟨rfl, ih hpk hkk' hpk'⟩

/-- A list in order from the first word on that is not below `p`. -/
theorem le_of_mem_dropWhile (hsorted : l.Pairwise (· < ·)) (hk : k ∈ l.dropWhile (· < p)) :
    p ≤ k := by
  induction l with
  | nil => cases hk
  | cons a l ih =>
    rw [List.pairwise_cons] at hsorted
    rw [List.dropWhile_cons] at hk
    split at hk
    · exact ih hsorted.2 hk
    · next ha =>
      have hap : p ≤ a := not_lt.mp fun hlt => ha (decide_eq_true hlt)
      rcases List.mem_cons.mp hk with rfl | hk
      · exact hap
      · exact le_of_lt (lt_of_le_of_lt hap (hsorted.1 k hk))

/-- The words below `p` do not begin with `p`. -/
theorem mem_dropWhile_of_begins (hk : k ∈ l) (h : p <+: k) : k ∈ l.dropWhile (· < p) := by
  induction l with
  | nil => cases hk
  | cons a l ih =>
    rw [List.dropWhile_cons]
    split
    · next ha =>
      refine ih ((List.mem_cons.mp hk).resolve_left ?_)
      rintro rfl
      exact not_lt_of_ge (le_of_begins h) (of_decide_eq_true ha)
    · exact hk

end Prefixes

end Loopy.Lib
