import Mathlib.Data.List.Lex
import Mathlib.Data.List.Nodup
import Mathlib.Data.List.Sort

/-!
# Records by key

A map that is visited in the order of its keys, and a list of records with different keys.
-/

namespace Loopy.Lib

open Function (update update_of_ne update_self)

/-! ## Ordered maps

A finite map that is visited in the order of its keys, as a radix tree is. The keys and the
lookup agree by construction.
-/

section Ordered

/-- A finite map with its keys in order. -/
structure OrderedMap (K V : Type*) [LinearOrder K] where
  keys : List K
  find : K → Option V
  sorted : keys.Pairwise (· < ·)
  mem_keys : ∀ k, k ∈ keys ↔ (find k).isSome = true

namespace OrderedMap

variable {K V : Type*} [LinearOrder K] {m : OrderedMap K V} {k k' : K} {v : V}

theorem nodup (m : OrderedMap K V) : m.keys.Nodup := m.sorted.imp ne_of_lt

theorem mem_keys_of_find (h : m.find k = some v) : k ∈ m.keys := by
  rw [m.mem_keys, h]
  rfl

/-- The empty map. -/
def empty (K V : Type*) [LinearOrder K] : OrderedMap K V :=
  { keys := [], find := fun _ => none, sorted := .nil, mem_keys := by simp }

/-- A new key keeps the order. -/
theorem sorted_orderedInsert {l : List K} (h : l.Pairwise (· < ·)) (hk : k ∉ l) :
    (l.orderedInsert (· ≤ ·) k).Pairwise (· < ·) := by
  have hle : (l.orderedInsert (· ≤ ·) k).Pairwise (· ≤ ·) := (h.imp le_of_lt).orderedInsert k l
  have hnodup : (l.orderedInsert (· ≤ ·) k).Nodup :=
    (List.perm_orderedInsert (· ≤ ·) k l).nodup_iff.mpr (List.nodup_cons.mpr ⟨hk, h.imp ne_of_lt⟩)
  exact (hle.and hnodup).imp fun hand => lt_of_le_of_ne hand.1 hand.2

/-- The value of a key is set. -/
def insert (m : OrderedMap K V) (k : K) (v : V) : OrderedMap K V where
  keys := if k ∈ m.keys then m.keys else m.keys.orderedInsert (· ≤ ·) k
  find := update m.find k (some v)
  sorted := by
    split
    · exact m.sorted
    · next hk => exact sorted_orderedInsert m.sorted hk
  mem_keys := by
    intro k'
    by_cases hkk : k' = k
    · subst hkk
      rw [update_self]
      split
      · next hk => exact iff_of_true hk rfl
      · exact iff_of_true ((List.mem_orderedInsert _).mpr (.inl rfl)) rfl
    · rw [update_of_ne hkk, ← m.mem_keys]
      split
      · exact Iff.rfl
      · rw [List.mem_orderedInsert]
        exact or_iff_right hkk

@[simp] theorem find_insert_self : (m.insert k v).find k = some v := update_self ..

@[simp] theorem find_insert_of_ne (h : k' ≠ k) : (m.insert k v).find k' = m.find k' :=
  update_of_ne h ..

/-- The lookup after an insertion, for any way to decide equality. -/
theorem find_insert [DecidableEq K] (m : OrderedMap K V) (k : K) (v : V) :
    (m.insert k v).find = update m.find k (some v) := by
  funext k'
  by_cases hk : k' = k
  · subst hk
    rw [find_insert_self, update_self]
  · rw [find_insert_of_ne hk, update_of_ne hk]

/-- A key is removed. -/
def erase (m : OrderedMap K V) (k : K) : OrderedMap K V where
  keys := m.keys.erase k
  find := update m.find k none
  sorted := m.sorted.sublist List.erase_sublist
  mem_keys := by
    intro k'
    rw [m.nodup.mem_erase_iff, m.mem_keys]
    by_cases hkk : k' = k
    · subst hkk
      simp
    · rw [update_of_ne hkk]
      exact and_iff_right hkk

@[simp] theorem find_erase_self : (m.erase k).find k = none := update_self ..

@[simp] theorem find_erase_of_ne (h : k' ≠ k) : (m.erase k).find k' = m.find k' :=
  update_of_ne h ..

/-- The lookup after a removal, for any way to decide equality. -/
theorem find_erase [DecidableEq K] (m : OrderedMap K V) (k : K) :
    (m.erase k).find = update m.find k none := by
  funext k'
  by_cases hk : k' = k
  · subst hk
    rw [find_erase_self, update_self]
  · rw [find_erase_of_ne hk, update_of_ne hk]

end OrderedMap

end Ordered

/-! ## Lists of records with a key

A list whose records have different keys, as a registry of handles has: one record can be removed
or changed, and all others stay where they are.
-/

section Records

variable {α κ : Type*} [DecidableEq κ] {key : α → κ} {k : κ} {l : List α}

/-- The list without its first record with the key `k`. -/
def removeKey (key : α → κ) (k : κ) : List α → List α
  | [] => []
  | x :: xs => if key x = k then xs else x :: removeKey key k xs

/-- The list with its first record with the key `k` changed. -/
def modifyKey (key : α → κ) (k : κ) (f : α → α) : List α → List α
  | [] => []
  | x :: xs => if key x = k then f x :: xs else x :: modifyKey key k f xs

theorem removeKey_sublist (key : α → κ) (k : κ) (l : List α) : (removeKey key k l).Sublist l := by
  induction l with
  | nil => exact .slnil
  | cons x xs ih =>
    rw [removeKey]
    split
    · exact List.sublist_cons_self x xs
    · exact ih.cons_cons x

/-- With different keys it is exactly that record that goes. -/
theorem mem_removeKey_iff (h : (l.map key).Nodup) {x : α} :
    x ∈ removeKey key k l ↔ x ∈ l ∧ key x ≠ k := by
  induction l with
  | nil => simp [removeKey]
  | cons y ys ih =>
    rw [List.map_cons, List.nodup_cons] at h
    rw [removeKey]
    split
    · rename_i hy
      refine ⟨fun hx => ⟨List.mem_cons_of_mem y hx, fun hxk => h.1 ?_⟩, fun ⟨hx, hxk⟩ => ?_⟩
      · rw [hy, ← hxk]
        exact List.mem_map_of_mem hx
      · rcases List.mem_cons.mp hx with rfl | hx
        · exact absurd hy hxk
        · exact hx
    · rename_i hy
      rw [List.mem_cons, ih h.2, List.mem_cons]
      constructor
      · rintro (rfl | ⟨hx, hxk⟩)
        · exact ⟨.inl rfl, hy⟩
        · exact ⟨.inr hx, hxk⟩
      · rintro ⟨rfl | hx, hxk⟩
        · exact .inl rfl
        · exact .inr ⟨hx, hxk⟩

/-- Anything of a record that the change leaves is the same all along the list. -/
theorem map_modifyKey {β : Type*} {g : α → β} {f : α → α}
    (hf : ∀ x ∈ l, key x = k → g (f x) = g x) : (modifyKey key k f l).map g = l.map g := by
  induction l with
  | nil => rfl
  | cons x xs ih =>
    rw [modifyKey]
    split
    · rename_i hx
      rw [List.map_cons, List.map_cons, hf x List.mem_cons_self hx]
    · rw [List.map_cons, List.map_cons, ih fun y hy => hf y (List.mem_cons_of_mem x hy)]

end Records

end Loopy.Lib
