import Mathlib.Data.List.Basic
import Mathlib.Tactic.Common

/-!
# Memory

Objects at addresses, and ranges of addresses.
-/

namespace Loopy.Lib

open Function (update update_of_ne update_self)

/-! ## A heap of objects

Objects have addresses. `cell p = none` says that nothing was allocated at `p`, or that it has
been freed; an address is never allocated twice, so that a stale address stays stale.
-/

section Objects

/-- A heap; everything from `next` on is still to be allocated. -/
structure Heap (V : Type*) where
  next : ℕ
  cell : ℕ → Option V
  fresh : ∀ p, next ≤ p → cell p = none

namespace Heap

variable {V : Type*} {h : Heap V} {p q : ℕ} {v w : V}

/-- Nothing is allocated. -/
def empty (V : Type*) : Heap V := { next := 0, cell := fun _ => none, fresh := fun _ _ => rfl }

theorem lt_next (hp : h.cell p = some v) : p < h.next := by
  by_contra hle
  rw [h.fresh p (Nat.le_of_not_lt hle)] at hp
  cases hp

theorem ne_next (hp : h.cell p = some v) : p ≠ h.next := Nat.ne_of_lt (lt_next hp)

/-- An object is allocated, at the address `next`. -/
def alloc (h : Heap V) (v : V) : Heap V where
  next := h.next + 1
  cell := update h.cell h.next (some v)
  fresh := by
    intro p hp
    rw [update_of_ne (Nat.ne_of_gt hp)]
    exact h.fresh p (Nat.le_of_succ_le hp)

@[simp] theorem cell_alloc_self : (h.alloc v).cell h.next = some v := update_self ..

theorem cell_alloc_of_ne (hp : p ≠ h.next) : (h.alloc v).cell p = h.cell p :=
  update_of_ne hp ..

/-- An allocation leaves every object. -/
theorem cell_alloc_of_some (hp : h.cell p = some w) : (h.alloc v).cell p = some w := by
  rw [cell_alloc_of_ne (ne_next hp), hp]

/-- An object is overwritten, if it is there. -/
def write (h : Heap V) (p : ℕ) (v : V) : Heap V where
  next := h.next
  cell := update h.cell p ((h.cell p).map fun _ => v)
  fresh := by
    intro q hq
    by_cases hqp : q = p
    · subst hqp
      rw [update_self, h.fresh q hq]
      rfl
    · rw [update_of_ne hqp]
      exact h.fresh q hq

theorem cell_write_self (hp : h.cell p = some w) : (h.write p v).cell p = some v := by
  show update h.cell p ((h.cell p).map fun _ => v) p = some v
  rw [update_self, hp]
  rfl

@[simp] theorem cell_write_of_ne (hq : q ≠ p) : (h.write p v).cell q = h.cell q :=
  update_of_ne hq ..

/-- An object is freed. -/
def free (h : Heap V) (p : ℕ) : Heap V where
  next := h.next
  cell := update h.cell p none
  fresh := by
    intro q hq
    by_cases hqp : q = p
    · subst hqp
      exact update_self ..
    · rw [update_of_ne hqp]
      exact h.fresh q hq

@[simp] theorem cell_free_self : (h.free p).cell p = none := update_self ..

@[simp] theorem cell_free_of_ne (hq : q ≠ p) : (h.free p).cell q = h.cell q :=
  update_of_ne hq ..

end Heap

end Objects

/-! ## Address ranges

A `Region` is a range of addresses. Two regions are `Apart` when no address is in both, and
a part of a region is apart from whatever the region is apart from.
-/

section Regions

/-- The `len` addresses from `addr` on. -/
structure Region where
  addr : ℕ
  len : ℕ
deriving DecidableEq, Repr

namespace Region

variable {r r' s : Region}

/-- One of them ends before the other begins. -/
def Apart (r s : Region) : Prop := r.addr + r.len ≤ s.addr ∨ s.addr + s.len ≤ r.addr

/-- The addresses of `r` are addresses of `s`. -/
def Within (r s : Region) : Prop := s.addr ≤ r.addr ∧ r.addr + r.len ≤ s.addr + s.len

instance (r s : Region) : Decidable (r.Apart s) := inferInstanceAs (Decidable (_ ∨ _))

theorem Apart.symm (h : r.Apart s) : s.Apart r := Or.symm h

theorem Apart.of_within (h : r.Apart s) (hin : r'.Within r) : r'.Apart s := by
  obtain ⟨hlo, hhi⟩ := hin
  rcases h with h | h
  · exact Or.inl (Nat.le_trans hhi h)
  · exact Or.inr (Nat.le_trans h hlo)

/-- The `i`-th element of an array of elements of `size` at `base`. -/
def elem (base size i : ℕ) : Region := ⟨base + i * size, size⟩

/-- An element lies within its array. -/
theorem elem_within (base size : ℕ) {i n : ℕ} (hi : i < n) :
    (elem base size i).Within ⟨base, size * n⟩ := by
  have hmul : size * (i + 1) ≤ size * n := Nat.mul_le_mul_left size hi
  have hsucc : size * (i + 1) = i * size + size := by rw [Nat.mul_succ, Nat.mul_comm]
  refine ⟨Nat.le_add_right base _, ?_⟩
  show base + i * size + size ≤ base + size * n
  omega

end Region

end Regions

end Loopy.Lib
