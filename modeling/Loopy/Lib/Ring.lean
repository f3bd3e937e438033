import Mathlib.Data.BitVec

/-!
# Ring buffers with free-running indices

A ring of `2 ^ bits` slots whose 32-bit `head` and `tail` run freely and are masked on use,
with an index array between ring positions and slots. The producer writes the slot behind
`tail` and publishes it, the consumer advances `head`. On a well-formed ring this is a
queue: `queued` is its contents, `queued_publish` and `queued_advance` its two operations.
-/

namespace Loopy.Lib

open Function (update update_idem update_of_ne update_self)

/-- A ring buffer. -/
structure Ring (α : Type*) where
  bits : ℕ
  head : BitVec 32
  tail : BitVec 32
  array : ℕ → ℕ
  slots : ℕ → α

namespace Ring

variable {α : Type*}

/-- The index mask. -/
def mask (r : Ring α) : BitVec 32 := BitVec.ofNat 32 (2 ^ r.bits - 1)

/-- The slot a running index stands for. -/
def index (r : Ring α) (i : BitVec 32) : ℕ := (i &&& r.mask).toNat

/-- The number of published entries. -/
def count (r : Ring α) : ℕ := (r.tail - r.head).toNat

/-- No slot is free. -/
def full (r : Ring α) : Bool := r.mask + 1#32 ≤ r.tail - r.head

/-- Write the slot behind the tail. -/
def write (r : Ring α) (a : α) : Ring α :=
  { r with slots := update r.slots (r.index r.tail) a }

/-- Publish the slot behind the tail. -/
def publish (r : Ring α) : Ring α :=
  { r with
    array := update r.array (r.index r.tail) (r.index r.tail)
    tail := r.tail + 1#32 }

/-- Consume `n` entries. -/
def advance (r : Ring α) (n : ℕ) : Ring α := { r with head := r.head + BitVec.ofNat 32 n }

/-- The published entries, oldest first. -/
def queued (r : Ring α) : List α :=
  (List.range r.count).map fun k => r.slots (r.array (r.index (r.head + BitVec.ofNat 32 k)))

/-- The published entry at a running index. -/
def entry (r : Ring α) (i : BitVec 32) : α := r.slots (r.array (r.index i))

/-- The invariant: at most as many entries as slots, and each published position holds its
own slot in the index array. -/
structure Wf (r : Ring α) : Prop where
  bits_le : r.bits ≤ 31
  count_le : r.count ≤ 2 ^ r.bits
  array_eq : ∀ k < r.count, r.array (r.index (r.head + BitVec.ofNat 32 k)) =
    r.index (r.head + BitVec.ofNat 32 k)

@[simp] theorem length_queued (r : Ring α) : r.queued.length = r.count := by simp [queued]

theorem getElem?_queued (r : Ring α) {k : ℕ} (hk : k < r.count) :
    r.queued[k]? = some (r.entry (r.head + BitVec.ofNat 32 k)) := by
  simp [queued, entry, hk]

/-! ## Indices -/

variable {r : Ring α}

theorem two_pow_le (h : r.bits ≤ 31) : 2 ^ r.bits ≤ 2 ^ 31 :=
  Nat.pow_le_pow_right (by omega) h

theorem index_eq (h : r.bits ≤ 31) (i : BitVec 32) : r.index i = i.toNat % 2 ^ r.bits := by
  have hle := two_pow_le h
  have hmask : r.mask.toNat = 2 ^ r.bits - 1 := by
    rw [mask, BitVec.toNat_ofNat]
    exact Nat.mod_eq_of_lt (by omega)
  rw [index, BitVec.toNat_and, hmask, Nat.and_two_pow_sub_one_eq_mod]

/-- The running index `k` positions behind the head. -/
theorem index_add (h : r.bits ≤ 31) (k : ℕ) :
    r.index (r.head + BitVec.ofNat 32 k) = (r.head.toNat + k) % 2 ^ r.bits := by
  have hdvd : 2 ^ r.bits ∣ 2 ^ 32 := Nat.pow_dvd_pow 2 (by omega)
  rw [index_eq h, BitVec.toNat_add, BitVec.toNat_ofNat, Nat.mod_mod_of_dvd _ hdvd, Nat.add_mod,
    Nat.mod_mod_of_dvd _ hdvd, ← Nat.add_mod]

theorem tail_eq (r : Ring α) : r.tail = r.head + BitVec.ofNat 32 r.count := by
  rw [count, BitVec.ofNat_toNat, BitVec.setWidth_eq, BitVec.add_comm, BitVec.sub_add_cancel]

/-- Positions less than a ring apart have different slots. -/
theorem index_add_ne (h : r.bits ≤ 31) {j k : ℕ} (hjk : j < k) (hk : k < 2 ^ r.bits) :
    r.index (r.head + BitVec.ofNat 32 j) ≠ r.index (r.head + BitVec.ofNat 32 k) := by
  rw [index_add h, index_add h]
  intro heq
  have hmod : j ≡ k [MOD 2 ^ r.bits] := Nat.ModEq.add_left_cancel' r.head.toNat heq
  have hlt := hmod.eq_of_lt_of_lt (by omega) hk
  omega

theorem full_iff (h : r.Wf) : r.full = true ↔ r.count = 2 ^ r.bits := by
  have hle := two_pow_le h.bits_le
  have hpos : 0 < 2 ^ r.bits := Nat.two_pow_pos _
  have hsize : (r.mask + 1#32).toNat = 2 ^ r.bits := by
    rw [mask, BitVec.toNat_add, BitVec.toNat_ofNat, BitVec.toNat_ofNat,
      Nat.mod_eq_of_lt (by omega : 2 ^ r.bits - 1 < 2 ^ 32),
      Nat.mod_eq_of_lt (by omega : 2 ^ r.bits - 1 + 1 % 2 ^ 32 < 2 ^ 32)]
    omega
  have hcount := h.count_le
  rw [full, decide_eq_true_iff, BitVec.le_def, hsize]
  unfold count at hcount ⊢
  omega

/-! ## The two operations -/

theorem count_publish (h : r.Wf) (hlt : r.count < 2 ^ r.bits) : r.publish.count = r.count + 1 := by
  have hle := two_pow_le h.bits_le
  have hsub : r.tail + 1#32 - r.head = r.tail - r.head + 1#32 := by
    rw [BitVec.sub_eq_add_neg, BitVec.sub_eq_add_neg, BitVec.add_assoc, BitVec.add_comm 1#32,
      ← BitVec.add_assoc]
  show (r.tail + 1#32 - r.head).toNat = _
  rw [hsub, BitVec.toNat_add]
  unfold count at hlt ⊢
  rw [BitVec.toNat_ofNat, Nat.mod_eq_of_lt (by omega)]

/-- Writing the free slot changes no entry. -/
theorem write_spec (h : r.Wf) (hlt : r.count < 2 ^ r.bits) (a : α) :
    (r.write a).Wf ∧ (r.write a).queued = r.queued := by
  refine ⟨⟨h.bits_le, h.count_le, h.array_eq⟩, ?_⟩
  refine List.map_congr_left fun k hk => ?_
  have hk' : k < r.count := List.mem_range.mp hk
  show update r.slots (r.index r.tail) a _ = _
  rw [update_of_ne]
  · rfl
  · show r.array (r.index (r.head + BitVec.ofNat 32 k)) ≠ _
    rw [h.array_eq k hk', tail_eq r]
    exact index_add_ne h.bits_le hk' hlt

/-- Writing a slot twice. -/
theorem write_write (r : Ring α) (a b : α) : (r.write a).write b = r.write b := by
  unfold write
  rw [show ({ r with slots := update r.slots (r.index r.tail) a } : Ring α).index
    r.tail = r.index r.tail from rfl, update_idem]

/-- Publishing the written slot appends it. -/
theorem publish_spec (h : r.Wf) (hlt : r.count < 2 ^ r.bits) (a : α) :
    (r.write a).publish.Wf ∧ (r.write a).publish.queued = r.queued ++ [a] := by
  obtain ⟨hwf, hqueued⟩ := write_spec h hlt a
  have hcount := count_publish hwf hlt
  have htail := tail_eq r
  have harray : ∀ k < r.count + 1, (r.write a).publish.array
      (r.index (r.head + BitVec.ofNat 32 k)) = r.index (r.head + BitVec.ofNat 32 k) := by
    intro k hk
    show update r.array (r.index r.tail) (r.index r.tail) _ = _
    by_cases hkc : k = r.count
    · rw [hkc, ← htail, update_self]
    · have hk' : k < r.count := by omega
      rw [update_of_ne, h.array_eq k hk']
      rw [htail]
      exact index_add_ne h.bits_le hk' hlt
  refine ⟨⟨h.bits_le, ?_, fun k hk => harray k ?_⟩, ?_⟩
  · rw [hcount]; exact hlt
  · rw [hcount] at hk; exact hk
  · have hsplit : (r.write a).publish.queued = (List.range (r.count + 1)).map fun k =>
        update r.slots (r.index r.tail) a (r.index (r.head + BitVec.ofNat 32 k)) := by
      unfold queued
      rw [hcount]
      refine List.map_congr_left fun k hk => ?_
      have hslot := harray k (List.mem_range.mp hk)
      show update r.slots (r.index r.tail) a ((r.write a).publish.array
        (r.index (r.head + BitVec.ofNat 32 k))) = _
      rw [hslot]
    rw [hsplit, List.range_succ, List.map_append]
    congr 1
    · refine List.map_congr_left fun k hk => ?_
      have hk' : k < r.count := List.mem_range.mp hk
      rw [update_of_ne, h.array_eq k hk']
      rw [htail]
      exact index_add_ne h.bits_le hk' hlt
    · rw [List.map_cons, ← htail, update_self]
      rfl

/-- Consuming drops the oldest entries. -/
theorem advance_spec (h : r.Wf) {n : ℕ} (hn : n ≤ r.count) :
    (r.advance n).Wf ∧ (r.advance n).queued = r.queued.drop n := by
  have hle := two_pow_le h.bits_le
  have hcle := h.count_le
  have hcount : (r.advance n).count = r.count - n := by
    show (r.tail - (r.head + BitVec.ofNat 32 n)).toNat = _
    have hsub : r.tail - (r.head + BitVec.ofNat 32 n) = r.tail - r.head - BitVec.ofNat 32 n := by
      rw [BitVec.sub_eq_add_neg, BitVec.sub_eq_add_neg, BitVec.sub_eq_add_neg, BitVec.neg_add,
        BitVec.sub_eq_add_neg, BitVec.add_assoc]
    rw [hsub, BitVec.toNat_sub, BitVec.toNat_ofNat]
    unfold count at hn hcle ⊢
    rw [Nat.mod_eq_of_lt (by omega : n < 2 ^ 32)]
    omega
  have hhead : ∀ k, (r.advance n).head + BitVec.ofNat 32 k = r.head + BitVec.ofNat 32 (n + k) := by
    intro k
    show r.head + BitVec.ofNat 32 n + BitVec.ofNat 32 k = _
    rw [BitVec.add_assoc, ← BitVec.ofNat_add]
  refine ⟨⟨h.bits_le, ?_, fun k hk => ?_⟩, ?_⟩
  · rw [hcount]
    show r.count - n ≤ 2 ^ r.bits
    omega
  · rw [hcount] at hk
    rw [hhead k]
    exact h.array_eq (n + k) (by omega)
  · apply List.ext_getElem?
    intro k
    by_cases hk : k < r.count - n
    · rw [List.getElem?_drop]
      simp only [queued, List.getElem?_map, List.getElem?_range, hcount, hk,
        (by omega : n + k < r.count), Option.map_some, hhead k]
      rfl
    · rw [List.getElem?_eq_none (by rw [length_queued, hcount]; omega),
        List.getElem?_eq_none (by rw [List.length_drop, length_queued]; omega)]

end Ring

/-! ## Buffers with a count

A buffer of `capacity` slots whose `count` entries start at `tail` and wrap around. On the list
of its entries, oldest first, advancing the tail drops the first and writing the slot behind
the last appends.
-/

section Circular

variable {α : Type*} {slots : ℕ → α} {capacity tail count : ℕ}

/-- The entries, oldest first. -/
def circular (slots : ℕ → α) (capacity tail count : ℕ) : List α :=
  (List.range count).map fun i => slots ((tail + i) % capacity)

@[simp] theorem length_circular : (circular slots capacity tail count).length = count := by
  simp [circular]

/-- The slot at the tail is the oldest entry. -/
theorem circular_cons (htail : tail < capacity) :
    circular slots capacity tail (count + 1) =
      slots tail :: circular slots capacity ((tail + 1) % capacity) count := by
  rw [circular, List.range_succ_eq_map, List.map_cons, List.map_map, Nat.add_zero,
    Nat.mod_eq_of_lt htail]
  congr 1
  apply List.map_congr_left
  intro i _
  show slots ((tail + (i + 1)) % capacity) = slots (((tail + 1) % capacity + i) % capacity)
  rw [Nat.mod_add_mod, Nat.add_assoc, Nat.add_comm 1 i]

/-- Writing the slot behind the last entry appends. -/
theorem circular_push (hcount : count < capacity) (a : α) :
    circular (update slots ((tail + count) % capacity) a) capacity tail (count + 1) =
      circular slots capacity tail count ++ [a] := by
  rw [circular, List.range_succ, List.map_append, List.map_singleton, update_self]
  congr 1
  apply List.map_congr_left
  intro i hi
  have hi : i < count := List.mem_range.mp hi
  apply update_of_ne
  intro heq
  have hmod : i ≡ count [MOD capacity] := Nat.ModEq.add_left_cancel' tail heq
  have hsame := hmod.eq_of_lt_of_lt (by omega) hcount
  omega

end Circular

end Loopy.Lib
