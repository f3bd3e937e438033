import Loopy.Channel.Spsc

/-!
# The slots of an SPSC ring

`spscInit` asks `nextPowerOf2` for one slot more than the capacity. Up to `2 ^ 63` the result of
`nextPowerOf2` is the least power of two that is not below its argument. At capacity `2 ^ 63` the
argument is `2 ^ 63 + 1`, the next power of two is `2 ^ 64`, and as a `size_t` that is 0: the ring
gets no slot at all, and a mask of 64 ones.
-/

namespace Loopy.Channel

variable {α : Type}

/-! ## The least power of two -/

theorem le_nextPowerOf2 {n : ℕ} (hn : 1 ≤ n) (hn63 : n ≤ 2 ^ 63) : n ≤ nextPowerOf2 n := by
  have hlt : n - 1 < 2 ^ (n - 1).size := Nat.lt_size_self _
  rw [nextPowerOf2_eq_two_pow hn hn63]
  omega

theorem nextPowerOf2_lt_double {n : ℕ} (hn : 1 ≤ n) (hn63 : n ≤ 2 ^ 63) :
    nextPowerOf2 n < 2 * n := by
  rw [nextPowerOf2_eq_two_pow hn hn63]
  cases hsize : (n - 1).size with
  | zero => omega
  | succ k =>
    -- the highest bit of `n - 1` is bit `k`
    have hle : 2 ^ k ≤ n - 1 := Nat.lt_size.mp (by omega)
    rw [pow_succ]
    omega

/-- No smaller power of two will do. -/
theorem nextPowerOf2_le_of_le {n m : ℕ} (hn : 1 ≤ n) (hn63 : n ≤ 2 ^ 63) (hm : n ≤ 2 ^ m) :
    nextPowerOf2 n ≤ 2 ^ m := by
  rw [nextPowerOf2_eq_two_pow hn hn63]
  exact Nat.pow_le_pow_right (by omega) (Nat.size_le.mpr (by omega))

/-! ## The ring -/

theorem spscInit_mask_eq (capacity elementSize : ℕ) :
    (spscInit α capacity elementSize).mask = sizeSub (actualCapacity capacity) 1 := rfl

/-- The slots hold the capacity, and the mask puts any `capacity` consecutive running indices,
`size_t`s that wrap, on as many different slots. -/
structure RingOK (capacity : ℕ) (spsc : LoopyChannelSPSC α) : Prop where
  capacity_le : capacity ≤ actualCapacity capacity
  mask_eq : spsc.mask + 1 = actualCapacity capacity
  slot_lt : ∀ i, spsc.slot (i % 2 ^ 64) < actualCapacity capacity
  slot_injective : ∀ start i j, i < capacity → j < capacity →
    spsc.slot ((start + i) % 2 ^ 64) = spsc.slot ((start + j) % 2 ^ 64) → i = j

/-- Below `2 ^ 63` the ring is as it should be. -/
theorem RingOK.spscInit {capacity : ℕ} (hcap : capacity < 2 ^ 63) (elementSize : ℕ) :
    RingOK capacity (spscInit α capacity elementSize) := by
  have hactual : actualCapacity capacity = nextPowerOf2 (capacity + 1) := by
    rw [actualCapacity, Nat.mod_eq_of_lt (by omega)]
  have hpow := nextPowerOf2_eq_two_pow (n := capacity + 1) (by omega) (by omega)
  have hle := le_nextPowerOf2 (n := capacity + 1) (by omega) (by omega)
  have hlt := nextPowerOf2_lt_double (n := capacity + 1) (by omega) (by omega)
  have hmask : (Channel.spscInit α capacity elementSize).mask + 1 = actualCapacity capacity := by
    rw [spscInit_mask_eq, hactual, sizeSub]
    omega
  have hmask_pow : (Channel.spscInit α capacity elementSize).mask =
      2 ^ (capacity + 1 - 1).size - 1 := by
    omega
  have hshape : Shape (Channel.spscInit α capacity elementSize) := by
    refine ⟨⟨_, Nat.size_le.mpr (by omega), hmask_pow⟩, ?_⟩
    change capacity ≤ _
    omega
  refine ⟨by omega, hmask, fun i => ?_, fun start i j hi hj heq => ?_⟩
  · rw [LoopyChannelSPSC.slot, hmask_pow, and_mask, hactual, hpow]
    exact Nat.mod_lt _ (Nat.two_pow_pos _)
  · -- two different indices of the window are less than a mask apart
    rcases Nat.lt_trichotomy i j with hij | hij | hij
    · exact absurd heq (hshape.slot_ne (by omega) (by omega))
    · exact hij
    · exact absurd heq.symm (hshape.slot_ne (by omega) (by omega))

/-- `nextPowerOf2 (2 ^ 63 + 1)` wraps to 0. -/
theorem actualCapacity_two_pow_63 : actualCapacity (2 ^ 63) = 0 := by
  decide +kernel

/-- `nextPowerOf2` is the least power of two not below its argument, and the ring is right for
every capacity up to `2 ^ 63` but the last. -/
theorem nextPowerOf2_least :
    (∀ n, 1 ≤ n → n ≤ 2 ^ 63 →
      (∃ k, nextPowerOf2 n = 2 ^ k) ∧ n ≤ nextPowerOf2 n ∧ nextPowerOf2 n < 2 * n ∧
        ∀ m, n ≤ 2 ^ m → nextPowerOf2 n ≤ 2 ^ m) ∧
    ∀ capacity elementSize, 1 ≤ capacity → capacity ≤ 2 ^ 63 →
      (RingOK capacity (spscInit α capacity elementSize) ↔ capacity < 2 ^ 63) := by
  refine ⟨fun n hn hn63 => ?_, fun capacity elementSize _ hcap63 => ?_⟩
  · exact ⟨⟨_, nextPowerOf2_eq_two_pow hn hn63⟩, le_nextPowerOf2 hn hn63,
      nextPowerOf2_lt_double hn hn63, fun m hm => nextPowerOf2_le_of_le hn hn63 hm⟩
  · refine ⟨fun h => ?_, fun hcap => RingOK.spscInit hcap elementSize⟩
    by_contra hge
    obtain rfl : capacity = 2 ^ 63 := by omega
    have := h.capacity_le
    rw [actualCapacity_two_pow_63] at this
    omega

/-- Capacity 5 has 8 slots. -/
theorem nextPowerOf2_least_five :
    nextPowerOf2 5 < 10 ∧ RingOK 5 (spscInit ℕ 5 8) :=
  ⟨((nextPowerOf2_least (α := ℕ)).1 5 (by omega) (by omega)).2.2.1,
    ((nextPowerOf2_least (α := ℕ)).2 5 8 (by omega) (by omega)).mpr (by omega)⟩

/-- At capacity `2 ^ 63` the ring has no slot. -/
theorem ring_two_pow_63 :
    ¬ ∀ capacity elementSize, 1 ≤ capacity → capacity ≤ 2 ^ 63 →
      RingOK capacity (spscInit ℕ capacity elementSize) := by
  intro h
  have := (h (2 ^ 63) 8 (by omega) le_rfl).capacity_le
  rw [actualCapacity_two_pow_63] at this
  omega

end Loopy.Channel
