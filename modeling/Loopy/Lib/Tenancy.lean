import Mathlib.Data.List.Basic
import Loopy.Lib.Places

/-!
# Tenants of slots

Tenants are numbered in the order in which they come. A new one enters a free slot, and one that
leaves does not come back: every tenant is in exactly one slot, or has departed (`Tenancy.Wf`).
-/

namespace Loopy.Lib

open Function (update update_of_ne)

/-- The slots `K` with their tenants. -/
structure Tenancy (K : Type*) where
  count : ℕ
  tenant : K → Option ℕ
  departed : List ℕ

namespace Tenancy

variable {K : Type*} {t : Tenancy K} {k j : K} {n : ℕ}

/-- The places of a tenant. -/
inductive Place (K : Type*)
  | unborn
  | slot (k : K)
  | departed

/-- The tenant `n` is in the place. -/
def At (t : Tenancy K) : Place K → ℕ → Prop
  | .unborn, n => t.count ≤ n
  | .slot k, n => t.tenant k = some n
  | .departed, n => n ∈ t.departed

/-- Every tenant is in one place. -/
def Wf (t : Tenancy K) : Prop := Settled t.At

/-- The tenant `n` is in a slot. -/
def InPlace (t : Tenancy K) (n : ℕ) : Prop := ∃ k, t.tenant k = some n

/-- Nobody has come. -/
def empty (K : Type*) : Tenancy K := { count := 0, tenant := fun _ => none, departed := [] }

theorem Wf.empty : Wf (Tenancy.empty K) := by
  intro n
  refine ⟨.unborn, Nat.zero_le n, fun p hp => ?_⟩
  cases p with
  | unborn => rfl
  | slot | departed => cases hp

/-- A tenant that is in one place is in no other one. -/
theorem Wf.not_at {p q : Place K} (h : t.Wf) (hp : t.At p n) (hne : p ≠ q) : ¬ t.At q n :=
  fun hq => hne (h.unique hp hq)

theorem unborn_ne_slot : Place.unborn ≠ Place.slot k := by
  intro heq
  cases heq

theorem slot_ne_departed : Place.slot k ≠ Place.departed := by
  intro heq
  cases heq

theorem Wf.lt_count (h : t.Wf) (hk : t.tenant k = some n) : n < t.count := by
  have hat : t.At (.slot k) n := hk
  exact Nat.lt_of_not_le (h.not_at hat unborn_ne_slot.symm)

theorem Wf.slot_unique (h : t.Wf) (hk : t.tenant k = some n) (hj : t.tenant j = some n) :
    k = j := by
  have hat : t.At (.slot k) n := hk
  have hat' : t.At (.slot j) n := hj
  exact Place.slot.inj (h.unique hat hat')

theorem Wf.not_departed (h : t.Wf) (hk : t.tenant k = some n) : n ∉ t.departed := by
  have hat : t.At (.slot k) n := hk
  exact h.not_at hat slot_ne_departed

/-- Who has come is there or has departed. -/
theorem Wf.inPlace_or_departed (h : t.Wf) (hn : n < t.count) : t.InPlace n ∨ n ∈ t.departed := by
  obtain ⟨p, hp, -⟩ := h n
  cases p with
  | unborn => exact absurd hn (Nat.not_lt.mpr hp)
  | slot k => exact .inl ⟨k, hp⟩
  | departed => exact .inr hp

variable [DecidableEq K]

/-- A new tenant comes. -/
def enter (t : Tenancy K) (k : K) : Tenancy K :=
  { t with
    count := t.count + 1
    tenant := update t.tenant k (some t.count) }

/-- The tenant leaves. -/
def leave (t : Tenancy K) (k : K) (n : ℕ) : Tenancy K :=
  { t with
    tenant := update t.tenant k none
    departed := t.departed ++ [n] }

theorem Wf.enter (h : t.Wf) (hk : t.tenant k = none) : (t.enter k).Wf := by
  have hmove : Move t.At (t.enter k).At .unborn (.slot k) t.count := by
    refine ⟨Nat.le_refl _, unborn_ne_slot, fun m => ?_, fun m => ?_, fun q m hq hq' => ?_⟩
    · show t.count + 1 ≤ m ↔ t.count ≤ m ∧ m ≠ t.count
      omega
    · show update t.tenant k (some t.count) k = some m ↔ t.tenant k = some m ∨ m = t.count
      rw [update_some_iff hk, eq_self_iff_true, true_and]
    · -- the other slots and the departed are as they were
      cases q with
      | unborn => exact absurd rfl hq
      | slot j =>
        have hj : j ≠ k := fun heq => hq' (by rw [heq])
        show update t.tenant k (some t.count) j = some m ↔ t.tenant j = some m
        rw [update_of_ne hj]
      | departed => exact Iff.rfl
  exact hmove.settled h

theorem Wf.leave (h : t.Wf) (hk : t.tenant k = some n) : (t.leave k n).Wf := by
  have hmove : Move t.At (t.leave k n).At (.slot k) .departed n := by
    refine ⟨hk, slot_ne_departed, fun m => ?_, fun m => ?_, fun q m hq hq' => ?_⟩
    · show update t.tenant k none k = some m ↔ t.tenant k = some m ∧ m ≠ n
      rw [update_none_iff hk, eq_self_iff_true, true_and]
    · show m ∈ t.departed ++ [n] ↔ m ∈ t.departed ∨ m = n
      rw [List.mem_append, List.mem_singleton]
    · cases q with
      | departed => exact absurd rfl hq'
      | slot j =>
        have hj : j ≠ k := fun heq => hq (by rw [heq])
        show update t.tenant k none j = some m ↔ t.tenant j = some m
        rw [update_of_ne hj]
      | unborn => exact Iff.rfl
  exact hmove.settled h

end Tenancy

end Loopy.Lib
