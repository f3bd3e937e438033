import Loopy.Lib.BinHeap
import Loopy.MaxHeap.Basic

/-!
# The fd max-heap keeps a set of descriptors

`FdHeap h` is the invariant of a heap whose values are distinct `int`s that are not negative,
which is how the event loop uses it: the cells are ordered and in their block, and the position
map is exactly the inverse of the cells. Under it `loopyMaxHeapInsert` and `loopyMaxHeapRemove` act
  on the
multiset of the cells (`insert_fdHeap`, `remove_fdHeap`) and `loopyMaxHeapPeek` returns a
maximum (`peek_spec`). The two bubble loops are the library's sifts on the cells.
-/

namespace Loopy.MaxHeap

open Loopy.Lib
open Function (update update_of_ne update_self)

/-- The multiset `{data[1..size]}`. -/
def LoopyMaxHeap.contents (h : LoopyMaxHeap) : Multiset ℤ :=
  BinHeap.contents h.size h.data

/-! ## What the helpers change -/

section

variable (h : LoopyMaxHeap)

@[simp] theorem setHeapIndex_data (v : ℤ) (i : ℕ) :
    (setHeapIndex h v i).data = h.data := by unfold setHeapIndex; split <;> rfl

@[simp] theorem setHeapIndex_size (v : ℤ) (i : ℕ) :
    (setHeapIndex h v i).size = h.size := by unfold setHeapIndex; split <;> rfl

@[simp] theorem setHeapIndex_capacity (v : ℤ) (i : ℕ) :
    (setHeapIndex h v i).capacity = h.capacity := by unfold setHeapIndex; split <;> rfl

@[simp] theorem setHeapIndex_dataLen (v : ℤ) (i : ℕ) :
    (setHeapIndex h v i).dataLen = h.dataLen := by unfold setHeapIndex; split <;> rfl

@[simp] theorem setHeapIndex_posMapSize (v : ℤ) (i : ℕ) :
    (setHeapIndex h v i).posMapSize = h.posMapSize := by unfold setHeapIndex; split <;> rfl

/-- The position map after a guarded write. -/
theorem setHeapIndex_heapIndex (v : ℤ) (i w : ℕ) :
    ((setHeapIndex h v i).posMap w).heapIndex =
      if (w : ℤ) = v ∧ w < h.posMapSize then i else (h.posMap w).heapIndex := by
  unfold setHeapIndex
  by_cases hg : 0 ≤ v ∧ v.toNat < h.posMapSize
  · rw [if_pos hg]
    by_cases hw : w = v.toNat
    · subst hw
      rw [if_pos ⟨by omega, hg.2⟩]
      simp
    · rw [if_neg (by omega)]
      simp [update_of_ne hw]
  · rw [if_neg hg, if_neg (by omega)]

@[simp] theorem heapSwap_data (i j : ℕ) : (heapSwap h i j).data = BinHeap.swapAt h.data i j := by
  funext k
  simp only [heapSwap, setHeapIndex_data, Function.update_apply, BinHeap.swapAt]
  by_cases hi : k = i
  · by_cases hj : k = j
    · rw [if_pos hj, if_pos hi, ← hj, ← hi]
    · rw [if_neg hj, if_pos hi, if_pos hi]
  · rw [if_neg hi, if_neg hi]

@[simp] theorem heapSwap_size (i j : ℕ) : (heapSwap h i j).size = h.size := by
  simp [heapSwap]

@[simp] theorem heapSwap_capacity (i j : ℕ) :
    (heapSwap h i j).capacity = h.capacity := by simp [heapSwap]

@[simp] theorem heapSwap_dataLen (i j : ℕ) :
    (heapSwap h i j).dataLen = h.dataLen := by simp [heapSwap]

@[simp] theorem heapSwap_posMapSize (i j : ℕ) :
    (heapSwap h i j).posMapSize = h.posMapSize := by simp [heapSwap]

end

/-! ## The bubble loops are the library's sifts -/

/-- On the values the loop is the sift of the library. -/
theorem heapBubbleUpLoop_data (fuel : ℕ) (h : LoopyMaxHeap) (i : ℕ) :
    (heapBubbleUpLoop fuel h i).data = BinHeap.siftUp fuel h.data i := by
  induction fuel generalizing h i with
  | zero => rfl
  | succ fuel ih =>
    simp only [heapBubbleUpLoop, BinHeap.siftUp]
    split
    · split
      · rfl
      · rw [ih, heapSwap_data]
    · rfl

/-- The child that is compared is the one of the library. -/
theorem heapLargest_eq (h : LoopyMaxHeap) (i : ℕ) :
    heapLargest h i = BinHeap.largest h.size h.data i := rfl

/-- So is the way down. -/
theorem heapBubbleDownLoop_data (fuel : ℕ) (h : LoopyMaxHeap) (i : ℕ) :
    (heapBubbleDownLoop fuel h i).data = BinHeap.siftDown h.size fuel h.data i := by
  induction fuel generalizing h i with
  | zero => rfl
  | succ fuel ih =>
    simp only [heapBubbleDownLoop, BinHeap.siftDown]
    by_cases hl : heapLargest h i = i
    · rw [if_pos hl, if_pos (heapLargest_eq h i ▸ hl)]
    · rw [if_neg hl, if_neg (heapLargest_eq h i ▸ hl), ih, heapSwap_data, heapSwap_size,
        heapLargest_eq]

/-! ## The position map -/

/-- An entry of the position map that is in use points to a cell with its value. -/
def Indexed (h : LoopyMaxHeap) : Prop :=
  ∀ v, v < h.posMapSize → (h.posMap v).heapIndex ≠ 0 →
    (h.posMap v).heapIndex ≤ h.size ∧ h.data (h.posMap v).heapIndex = v

/-- The position map is the inverse of the cells, and every cell holds a tracked value. -/
structure Tracked (h : LoopyMaxHeap) : Prop where
  cell : ∀ i, 1 ≤ i → i ≤ h.size → 0 ≤ h.data i ∧ h.data i < h.posMapSize ∧
    (h.posMap (h.data i).toNat).heapIndex = i
  entry : ∀ v, v < h.posMapSize → (h.posMap v).heapIndex ≠ 0 →
    (h.posMap v).heapIndex ≤ h.size ∧ h.data (h.posMap v).heapIndex = v

variable {h : LoopyMaxHeap} {i j n : ℕ} {value : ℤ}

/-- Under `Tracked` the cells are distinct. -/
theorem Tracked.inj (t : Tracked h) (hi : 1 ≤ i) (hin : i ≤ h.size) (hj : 1 ≤ j)
    (hjn : j ≤ h.size) (heq : h.data i = h.data j) : i = j := by
  have h1 := (t.cell i hi hin).2.2
  have h2 := (t.cell j hj hjn).2.2
  rw [heq] at h1
  exact h1.symm.trans h2

/-- A swap records both values under their new places. -/
theorem heapSwap_heapIndex (h : LoopyMaxHeap) (i j w : ℕ) :
    ((heapSwap h i j).posMap w).heapIndex =
      if (w : ℤ) = h.data j ∧ w < h.posMapSize then i
      else if (w : ℤ) = h.data i ∧ w < h.posMapSize then j
      else (h.posMap w).heapIndex := by
  simp only [heapSwap]
  rw [setHeapIndex_heapIndex, setHeapIndex_heapIndex, setHeapIndex_posMapSize]

/-- A swap keeps every recorded place inside the heap. -/
theorem Indexed.heapSwap (t : Indexed h) (hin : i ≤ h.size) (hjn : j ≤ h.size) :
    Indexed (heapSwap h i j) := by
  intro v hv hne
  rw [heapSwap_posMapSize] at hv
  rw [heapSwap_data, heapSwap_size]
  rw [heapSwap_heapIndex] at hne ⊢
  by_cases hvj : (v : ℤ) = h.data j ∧ v < h.posMapSize
  · rw [if_pos hvj, BinHeap.swapAt_left]
    exact ⟨hin, hvj.1.symm⟩
  · rw [if_neg hvj] at hne ⊢
    by_cases hvi : (v : ℤ) = h.data i ∧ v < h.posMapSize
    · rw [if_pos hvi, BinHeap.swapAt_right]
      exact ⟨hjn, hvi.1.symm⟩
    · rw [if_neg hvi] at hne ⊢
      obtain ⟨hle, hdata⟩ := t v hv hne
      have hpi : (h.posMap v).heapIndex ≠ i := by
        intro he; rw [he] at hdata; exact hvi ⟨hdata.symm, hv⟩
      have hpj : (h.posMap v).heapIndex ≠ j := by
        intro he; rw [he] at hdata; exact hvj ⟨hdata.symm, hv⟩
      rw [BinHeap.swapAt_other h.data hpi hpj]
      exact ⟨hle, hdata⟩

/-- It keeps the places of all values right. -/
theorem Tracked.heapSwap (t : Tracked h) (hi : 1 ≤ i) (hin : i ≤ h.size) (hj : 1 ≤ j)
    (hjn : j ≤ h.size) : Tracked (heapSwap h i j) := by
  obtain ⟨hi0, hip, hii⟩ := t.cell i hi hin
  obtain ⟨hj0, hjp, hjj⟩ := t.cell j hj hjn
  refine ⟨fun k hk hkn => ?_, Indexed.heapSwap t.entry hin hjn⟩
  rw [heapSwap_size] at hkn
  obtain ⟨hk0, hkp, hkk⟩ := t.cell k hk hkn
  rw [heapSwap_data, heapSwap_posMapSize, heapSwap_heapIndex]
  by_cases hki : k = i
  · subst hki
    rw [BinHeap.swapAt_left, if_pos (by omega)]
    exact ⟨hj0, hjp, rfl⟩
  · by_cases hkj : k = j
    · subst hkj
      have hne : h.data i ≠ h.data k := fun he => hki (t.inj hi hin hk hkn he).symm
      rw [BinHeap.swapAt_right, if_neg (by omega), if_pos (by omega)]
      exact ⟨hi0, hip, rfl⟩
    · have hne1 : h.data k ≠ h.data j := fun he => hkj (t.inj hk hkn hj hjn he)
      have hne2 : h.data k ≠ h.data i := fun he => hki (t.inj hk hkn hi hin he)
      rw [BinHeap.swapAt_other h.data hki hkj, if_neg (by omega), if_neg (by omega)]
      exact ⟨hk0, hkp, hkk⟩

/-! ## The loops keep everything but the arrangement -/

/-- The way up leaves the block and its size. -/
theorem heapBubbleUpLoop_frame (fuel : ℕ) (h : LoopyMaxHeap) (i : ℕ) :
    (heapBubbleUpLoop fuel h i).size = h.size ∧
      (heapBubbleUpLoop fuel h i).capacity = h.capacity ∧
      (heapBubbleUpLoop fuel h i).dataLen = h.dataLen := by
  induction fuel generalizing h i with
  | zero => exact ⟨rfl, rfl, rfl⟩
  | succ fuel ih =>
    simp only [heapBubbleUpLoop]
    split
    · split
      · exact ⟨rfl, rfl, rfl⟩
      · simpa using ih (heapSwap h i (i / 2)) (i / 2)
    · exact ⟨rfl, rfl, rfl⟩

/-- So does the way down. -/
theorem heapBubbleDownLoop_frame (fuel : ℕ) (h : LoopyMaxHeap) (i : ℕ) :
    (heapBubbleDownLoop fuel h i).size = h.size ∧
      (heapBubbleDownLoop fuel h i).capacity = h.capacity ∧
      (heapBubbleDownLoop fuel h i).dataLen = h.dataLen := by
  induction fuel generalizing h i with
  | zero => exact ⟨rfl, rfl, rfl⟩
  | succ fuel ih =>
    simp only [heapBubbleDownLoop]
    split
    · exact ⟨rfl, rfl, rfl⟩
    · simpa using ih (heapSwap h i (heapLargest h i)) (heapLargest h i)

section Swaps

/-! ### What swaps within the heap keep -/

variable {P : LoopyMaxHeap → Prop} (hswap : ∀ h i j, P h → 1 ≤ i → i ≤ h.size → 1 ≤ j →
  j ≤ h.size → P (heapSwap h i j)) {fuel : ℕ} {h : LoopyMaxHeap} {i : ℕ}

include hswap

/-- What every swap keeps, the way up keeps. -/
theorem heapBubbleUpLoop_swaps (hP : P h) (hin : i ≤ h.size) : P (heapBubbleUpLoop fuel h i) := by
  induction fuel generalizing h i with
  | zero => exact hP
  | succ fuel ih =>
    simp only [heapBubbleUpLoop]
    split
    · split
      · exact hP
      · apply ih
        · exact hswap h i (i / 2) hP (by omega) hin (by omega) (by omega)
        · rw [heapSwap_size]
          omega
    · exact hP

/-- The way down keeps it too. -/
theorem heapBubbleDownLoop_swaps (hP : P h) (hi : 1 ≤ i) (hin : i ≤ h.size) :
    P (heapBubbleDownLoop fuel h i) := by
  induction fuel generalizing h i with
  | zero => exact hP
  | succ fuel ih =>
    simp only [heapBubbleDownLoop]
    rcases BinHeap.largest_cases h.size h.data i with hl | ⟨hp, hn, _⟩
    · rw [heapLargest_eq, if_pos hl]
      exact hP
    · rw [← heapLargest_eq] at hp hn
      rw [if_neg (by omega)]
      apply ih
      · exact hswap h i _ hP hi hin (by omega) hn
      · omega
      · rw [heapSwap_size]
        exact hn

/-- The same of the whole bubbling. -/
theorem heapBubbleUp_swaps (hP : P h) (hin : i ≤ h.size) : P (heapBubbleUp h i) :=
  heapBubbleUpLoop_swaps hswap hP hin

/-- The same downwards. -/
theorem heapBubbleDown_swaps (hP : P h) (hi : 1 ≤ i) (hin : i ≤ h.size) :
    P (heapBubbleDown h i) := heapBubbleDownLoop_swaps hswap hP hi hin

end Swaps

/-! ## Order and contents -/

/-- `loopyMaxHeapPeek` returns a maximum, or the empty value. -/
theorem peek_of_ordered (ho : BinHeap.Ordered h.size h.data) :
    (h.contents = 0 ∧ loopyMaxHeapPeek h = heapEmptyValue) ∨
      (loopyMaxHeapPeek h ∈ h.contents ∧ ∀ v ∈ h.contents, v ≤ loopyMaxHeapPeek h) := by
  unfold loopyMaxHeapPeek
  by_cases h0 : h.size = 0
  · left
    rw [if_pos h0, LoopyMaxHeap.contents, h0, BinHeap.contents_zero]
    exact ⟨rfl, rfl⟩
  · right
    rw [if_neg h0]
    refine ⟨BinHeap.mem_contents.mpr ⟨1, le_rfl, by omega, rfl⟩, fun v hv => ?_⟩
    obtain ⟨i, hi, hin, rfl⟩ := BinHeap.mem_contents.mp hv
    exact ho.le_root i hi hin

/-- A heap within its capacity, and a block that has room for the capacity. -/
structure InBlock (h : LoopyMaxHeap) : Prop where
  size_le : h.size ≤ h.capacity
  dataLen : h.dataLen = h.capacity + 1
  fits : (h.capacity + 1) * 4 < 2 ^ 64

/-- A heap that has not grown stays in its block. -/
theorem InBlock.of_frame {g : LoopyMaxHeap} (hb : InBlock h) (hsize : g.size ≤ h.size)
    (hcapacity : g.capacity = h.capacity) (hlen : g.dataLen = h.dataLen) : InBlock g := by
  have hle := hb.size_le
  refine ⟨by omega, ?_, ?_⟩
  · rw [hlen, hcapacity]
    exact hb.dataLen
  · rw [hcapacity]
    exact hb.fits

/-- An ordered heap in its block. -/
structure Arranged (h : LoopyMaxHeap) : Prop extends InBlock h where
  ordered : BinHeap.Ordered h.size h.data

/-- Bubbling up repairs a heap whose order fails only above cell `i`. -/
theorem heapBubbleUp_arranged (hb : InBlock h) (ho : BinHeap.UpOrder h.size h.data i)
    (hin : i ≤ h.size) :
    Arranged (heapBubbleUp h i) ∧ (heapBubbleUp h i).contents = h.contents := by
  obtain ⟨hsize, hcapacity, hlen⟩ := heapBubbleUpLoop_frame i h i
  refine ⟨⟨hb.of_frame hsize.le hcapacity hlen, ?_⟩, ?_⟩
  · rw [heapBubbleUp, hsize, heapBubbleUpLoop_data]
    exact BinHeap.siftUp_ordered le_rfl hin ho
  · rw [LoopyMaxHeap.contents, heapBubbleUp, hsize, heapBubbleUpLoop_data,
      BinHeap.contents_siftUp hin, LoopyMaxHeap.contents]

/-- Bubbling down repairs a heap whose order fails only below cell `i`. -/
theorem heapBubbleDown_arranged (hb : InBlock h) (ho : BinHeap.DownOrder h.size h.data i)
    (hi : 1 ≤ i) (hin : i ≤ h.size) :
    Arranged (heapBubbleDown h i) ∧ (heapBubbleDown h i).contents = h.contents := by
  obtain ⟨hsize, hcapacity, hlen⟩ := heapBubbleDownLoop_frame h.size h i
  refine ⟨⟨hb.of_frame hsize.le hcapacity hlen, ?_⟩, ?_⟩
  · rw [heapBubbleDown, hsize, heapBubbleDownLoop_data]
    exact BinHeap.siftDown_ordered (by omega) hi ho
  · rw [LoopyMaxHeap.contents, heapBubbleDown, hsize, heapBubbleDownLoop_data,
      BinHeap.contents_siftDown hi hin, LoopyMaxHeap.contents]

/-- Inserting: the new cell bubbles up. -/
theorem appended_arranged (ha : Arranged h) (g : LoopyMaxHeap) (hsize : g.size = h.size + 1)
    (hdata : g.data = update h.data (h.size + 1) value) (hb : InBlock g) :
    Arranged (heapBubbleUp g (h.size + 1)) ∧
      (heapBubbleUp g (h.size + 1)).contents = value ::ₘ h.contents := by
  have hup : BinHeap.UpOrder g.size g.data (h.size + 1) := by
    rw [hsize, hdata]
    exact ha.ordered.upOrder_append value
  obtain ⟨harr, hcontents⟩ := heapBubbleUp_arranged hb hup hsize.ge
  refine ⟨harr, hcontents.trans ?_⟩
  have hsucc := BinHeap.contents_succ h.size (update h.data (h.size + 1) value)
  rw [update_self] at hsucc
  rw [LoopyMaxHeap.contents, hsize, hdata, hsucc]
  refine congrArg _ ?_
  exact BinHeap.contents_congr fun i _ hin => update_of_ne (by omega) _ _

/-! ## The invariant of the fd heap -/

/-- A heap of distinct `int`s that are not negative, whose position map is exact. -/
structure FdHeap (h : LoopyMaxHeap) : Prop extends Arranged h where
  tracked : Tracked h
  int : ∀ v ∈ h.contents, v < 2 ^ 31
  capacity_le : h.capacity ≤ 2 ^ 32

@[simp] theorem contents_init (n : ℕ) : (loopyMaxHeapInit n).contents = 0 :=
  BinHeap.contents_zero _

/-- A heap whose block has the size that was asked for starts in order. -/
theorem init_arranged (hfit : (n + 1) * 4 < 2 ^ 64) : Arranged (loopyMaxHeapInit n) := by
  refine ⟨⟨Nat.zero_le _, ?_, ?_⟩, fun i hi hin => absurd (hi.trans hin) (by simp [loopyMaxHeapInit])⟩
  all_goals
    simp only [loopyMaxHeapInit]
    split <;> omega

/-- No value is recorded in a new heap. -/
theorem init_indexed (n : ℕ) : Indexed (loopyMaxHeapInit n) := fun _ _ hne => absurd rfl hne

/-- A new heap of a possible size holds no descriptor. -/
theorem fdHeap_init (hn : n < 2 ^ 31) : FdHeap (loopyMaxHeapInit n) where
  toArranged := init_arranged (by omega)
  tracked :=
    { cell := fun i hi hin => absurd (hi.trans hin) (by simp [loopyMaxHeapInit])
      entry := init_indexed n }
  int := fun v hv => absurd hv (by simp)
  capacity_le := by
    simp only [loopyMaxHeapInit]
    split <;> omega

/-- Descriptors are not negative. -/
theorem FdHeap.nonneg (fh : FdHeap h) {v : ℤ} (hv : v ∈ h.contents) : 0 ≤ v := by
  obtain ⟨i, hi, hin, rfl⟩ := BinHeap.mem_contents.mp hv
  exact (fh.tracked.cell i hi hin).1

/-- No descriptor is in the heap twice. -/
theorem FdHeap.nodup (fh : FdHeap h) : h.contents.Nodup := by
  refine (Multiset.nodup_map_iff_of_inj_on ?_).mpr (Finset.Icc 1 h.size).nodup
  intro i hi j hj heq
  rw [Finset.mem_val, Finset.mem_Icc] at hi hj
  exact fh.tracked.inj hi.1 hi.2 hj.1 hj.2 heq

/-- There are no more cells than there are values for them. -/
theorem FdHeap.size_le_int (fh : FdHeap h) : h.size ≤ 2 ^ 31 := by
  have hcard : (Finset.Icc 1 h.size).card ≤ (Finset.range (2 ^ 31)).card := by
    refine Finset.card_le_card_of_injOn (fun i => (h.data i).toNat) (fun i hi => ?_) ?_
    · obtain ⟨hi, hin⟩ := Finset.mem_Icc.mp hi
      have hint := fh.int _ (BinHeap.mem_contents.mpr ⟨i, hi, hin, rfl⟩)
      have hnat : (h.data i).toNat < 2 ^ 31 := by omega
      simpa using hnat
    · intro i hi j hj heq
      obtain ⟨hi, hin⟩ := Finset.mem_Icc.mp hi
      obtain ⟨hj, hjn⟩ := Finset.mem_Icc.mp hj
      have hi0 := (fh.tracked.cell i hi hin).1
      have hj0 := (fh.tracked.cell j hj hjn).1
      dsimp only at heq
      exact fh.tracked.inj hi hin hj hjn (by omega)
  simpa using hcard

/-- **Peek** gives the largest value, or that there is none. -/
theorem peek_spec (fh : FdHeap h) :
    (h.contents = 0 ∧ loopyMaxHeapPeek h = heapEmptyValue) ∨
      (loopyMaxHeapPeek h ∈ h.contents ∧ ∀ v ∈ h.contents, v ≤ loopyMaxHeapPeek h) :=
  peek_of_ordered fh.ordered

/-! ## Insert -/

/-- Doubling reaches what is needed. -/
theorem le_doubleUntil {fuel newSize needed : ℕ} (hpos : 0 < newSize)
    (hfuel : needed ≤ fuel + newSize) : needed ≤ doubleUntil fuel newSize needed := by
  induction fuel generalizing newSize with
  | zero => simpa [doubleUntil] using hfuel
  | succ fuel ih =>
    rw [doubleUntil]
    split
    · exact ih (by omega) (by omega)
    · omega

/-- The grown position map holds `value` and keeps the old entries. -/
theorem ensurePosMapCapacity_spec (h : LoopyMaxHeap) (hv : 0 ≤ value) :
    ∃ pm n, ensurePosMapCapacity h value = { h with posMap := pm, posMapSize := n } ∧
      value < n ∧ h.posMapSize ≤ n ∧ (∀ v, v < h.posMapSize → pm v = h.posMap v) ∧
      (∀ v, h.posMapSize ≤ v → v < n → (pm v).heapIndex = 0) := by
  unfold ensurePosMapCapacity
  rw [if_neg (by omega)]
  by_cases hn : value.toNat + 1 ≤ h.posMapSize
  · refine ⟨h.posMap, h.posMapSize, ?_, by omega, le_rfl, fun _ _ => rfl, fun v h1 h2 => ?_⟩
    · simp only [if_pos hn]
    · omega
  · simp only [if_neg hn]
    set start := if h.posMapSize ≠ 0 then h.posMapSize * 2 else 16 with hstart
    have hpos : 0 < start := by rw [hstart]; split <;> omega
    have hle := @le_doubleUntil (value.toNat + 1) start (value.toNat + 1) hpos (by omega)
    refine ⟨_, _, rfl, by omega, by omega, fun v hv => ?_, fun v h1 h2 => ?_⟩
    · rw [if_neg (by omega)]
    · rw [if_pos ⟨h1, h2⟩]

/-- A grown position map has the old entries and unused ones. -/
theorem Indexed.grow (t : Indexed h) {cap len : ℕ} {pm : ℕ → LoopyHeapPosEntry}
    (hold : ∀ v, v < h.posMapSize → pm v = h.posMap v)
    (hzero : ∀ v, h.posMapSize ≤ v → v < n → (pm v).heapIndex = 0) :
    Indexed { h with dataLen := len, capacity := cap, posMap := pm, posMapSize := n } := by
  intro v hvn hne
  dsimp only at hvn hne ⊢
  by_cases hvs : v < h.posMapSize
  · rw [hold v hvs] at hne ⊢
    exact t v hvs hne
  · exact absurd (hzero v (by omega) hvn) hne

/-- Appending a value to the cells and to the position map. -/
theorem Indexed.append (t : Indexed h) (hv : 0 ≤ value) :
    Indexed { h with
      size := h.size + 1
      data := update h.data (h.size + 1) value
      posMap := update h.posMap value.toNat ⟨value, h.size + 1⟩ } := by
  intro v hvs hne
  dsimp only at hvs hne ⊢
  by_cases hval : v = value.toNat
  · subst hval
    rw [update_self]
    exact ⟨le_rfl, by rw [update_self]; omega⟩
  · rw [update_of_ne hval] at hne ⊢
    obtain ⟨hle, hdata⟩ := t v hvs hne
    rw [update_of_ne (by omega)]
    exact ⟨by omega, hdata⟩

/-- Appending an untracked value to the cells and to the position map. -/
theorem Tracked.append (t : Tracked h) (hv : 0 ≤ value) (hlt : value < h.posMapSize)
    (hnew : ∀ i, 1 ≤ i → i ≤ h.size → h.data i ≠ value) :
    Tracked { h with
      size := h.size + 1
      data := update h.data (h.size + 1) value
      posMap := update h.posMap value.toNat ⟨value, h.size + 1⟩ } := by
  refine ⟨fun i hi hin => ?_, Indexed.append t.entry hv⟩
  dsimp only at hin ⊢
  by_cases hlast : i = h.size + 1
  · subst hlast
    simp [hv, hlt]
  · obtain ⟨h0, hp, hidx⟩ := t.cell i hi (by omega)
    have hne := hnew i hi (by omega)
    rw [update_of_ne hlast, update_of_ne (by omega)]
    exact ⟨h0, hp, hidx⟩

/-- The capacity after an insertion has made room. -/
def insertCapacity (h : LoopyMaxHeap) : ℕ :=
  if h.size ≥ h.capacity then grownCapacity h else h.capacity

/-- The block of that capacity can be asked for. -/
def InsertFits (h : LoopyMaxHeap) : Prop := (insertCapacity h + 1) * 4 < 2 ^ 64

/-- With a size that fits, a block that grows has all its cells. -/
theorem reallocData_eq (hb : InBlock h) {capacity : ℕ} (hle : h.capacity ≤ capacity)
    (hfit : (capacity + 1) * 4 < 2 ^ 64) :
    reallocData h capacity = { h with dataLen := capacity + 1, capacity := capacity } := by
  have hcells : dataCells capacity = capacity + 1 := by
    unfold dataCells
    omega
  have hlen := hb.dataLen
  unfold reallocData
  rw [hcells, if_pos (by omega)]

/-- Making room for one more value. -/
theorem InBlock.grow (hb : InBlock h) (hfit : InsertFits h) :
    (if h.size ≥ h.capacity then heapGrow h else h) =
        { h with dataLen := insertCapacity h + 1, capacity := insertCapacity h } ∧
      h.size + 1 ≤ insertCapacity h := by
  obtain ⟨hle, hlen, hold⟩ := hb
  unfold InsertFits at hfit
  unfold insertCapacity at hfit ⊢
  by_cases hc : h.size ≥ h.capacity
  · rw [if_pos hc] at hfit
    have hgrown : h.size + 1 ≤ grownCapacity h := by
      unfold grownCapacity
      split <;> omega
    rw [if_pos hc, if_pos hc]
    exact ⟨reallocData_eq ⟨hle, hlen, hold⟩ (by omega) hfit, hgrown⟩
  · rw [if_neg hc, if_neg hc, ← hlen]
    exact ⟨rfl, by omega⟩

/-- The heap just before `loopyMaxHeapInsert` bubbles the new cell up. -/
theorem insert_eq (hb : InBlock h) (hfit : InsertFits h) (hv : 0 ≤ value) :
    ∃ pm n, loopyMaxHeapInsert h value = heapBubbleUp
        { h with
          size := h.size + 1
          data := update h.data (h.size + 1) value
          dataLen := insertCapacity h + 1
          capacity := insertCapacity h
          posMap := update pm value.toNat ⟨value, h.size + 1⟩
          posMapSize := n } (h.size + 1) ∧
      value < n ∧ h.posMapSize ≤ n ∧ (∀ v, v < h.posMapSize → pm v = h.posMap v) ∧
      (∀ v, h.posMapSize ≤ v → v < n → (pm v).heapIndex = 0) := by
  unfold loopyMaxHeapInsert
  rw [(hb.grow hfit).1]
  obtain ⟨pm, n, heq, hlt, hle, hold, hzero⟩ := ensurePosMapCapacity_spec
    { h with dataLen := insertCapacity h + 1, capacity := insertCapacity h } hv
  refine ⟨pm, n, ?_, hlt, hle, hold, hzero⟩
  have hguard : 0 ≤ value ∧ value.toNat < n := ⟨hv, by omega⟩
  simp only [heq, if_pos hguard]

/-- An fd heap grows to twice the number of its values at most. -/
theorem FdHeap.insertCapacity_le (fh : FdHeap h) : insertCapacity h ≤ 2 ^ 32 := by
  have hsize := fh.size_le_int
  have hcap := fh.capacity_le
  unfold insertCapacity grownCapacity
  split
  · split <;> omega
  · exact hcap

/-- **Insert** adds a new descriptor. -/
theorem insert_fdHeap (fh : FdHeap h) (hv : 0 ≤ value) (hint : value < 2 ^ 31)
    (hnew : value ∉ h.contents) :
    FdHeap (loopyMaxHeapInsert h value) ∧
      (loopyMaxHeapInsert h value).contents = value ::ₘ h.contents := by
  have hcap := fh.insertCapacity_le
  have hfit : InsertFits h := by
    unfold InsertFits
    omega
  have hroom := (fh.toInBlock.grow hfit).2
  obtain ⟨pm, n, heq, hlt, hle, hold, hzero⟩ := insert_eq fh.toInBlock hfit hv
  rw [heq]
  have hfresh : ∀ i, 1 ≤ i → i ≤ h.size → h.data i ≠ value := fun i hi hin he =>
    hnew (BinHeap.mem_contents.mpr ⟨i, hi, hin, he⟩)
  -- the grown position map still tracks the old cells
  have tgrown : Tracked { h with
      dataLen := insertCapacity h + 1
      capacity := insertCapacity h
      posMap := pm
      posMapSize := n } := by
    refine ⟨fun i hi hin => ?_, Indexed.grow fh.tracked.entry hold hzero⟩
    obtain ⟨h0, hp, hidx⟩ := fh.tracked.cell i hi hin
    dsimp only
    rw [hold _ (by omega)]
    exact ⟨h0, by omega, hidx⟩
  have tappended := tgrown.append hv hlt hfresh
  have tbubbled := heapBubbleUp_swaps (P := Tracked)
    (fun _ _ _ t hi hin hj hjn => t.heapSwap hi hin hj hjn) tappended le_rfl
  obtain ⟨harr, hcontents⟩ := appended_arranged fh.toArranged
    { h with
      size := h.size + 1
      data := update h.data (h.size + 1) value
      dataLen := insertCapacity h + 1
      capacity := insertCapacity h
      posMap := update pm value.toNat ⟨value, h.size + 1⟩
      posMapSize := n } rfl rfl ⟨hroom, rfl, hfit⟩
  refine ⟨⟨harr, tbubbled, fun v hin => ?_, ?_⟩, hcontents⟩
  · rw [hcontents] at hin
    rcases Multiset.mem_cons.mp hin with rfl | hold
    · exact hint
    · exact fh.int v hold
  · rw [heapBubbleUp, (heapBubbleUpLoop_frame _ _ _).2.1]
    exact hcap

/-! ## Remove -/

/-- A tracked value is found through the position map. -/
theorem removeIndex_spec (t : Tracked h) (hmem : value ∈ h.contents) :
    1 ≤ removeIndex h value ∧ removeIndex h value ≤ h.size ∧
      h.data (removeIndex h value) = value := by
  obtain ⟨i, hi, hin, rfl⟩ := BinHeap.mem_contents.mp hmem
  obtain ⟨h0, hp, hidx⟩ := t.cell i hi hin
  have heq : removeIndex h (h.data i) = i := by
    have hguard : 0 ≤ h.data i ∧ (h.data i).toNat < h.posMapSize := ⟨h0, by omega⟩
    have hvalid : ¬ (i = 0 ∨ i > h.size ∨ h.data i ≠ h.data i) := by
      rintro (h1 | h1 | h1)
      · omega
      · omega
      · exact h1 rfl
    simp only [removeIndex, if_pos hguard, hidx, if_neg hvalid]
  rw [heq]
  exact ⟨hi, hin, rfl⟩

/-- The last cell is dropped, and the position map forgets its value. -/
def dropLast (h : LoopyMaxHeap) : LoopyMaxHeap :=
  { setHeapIndex h (h.data h.size) 0 with size := h.size - 1 }

/-- The last cell moves into cell `i`, whose value the position map forgets. -/
def moveLast (h : LoopyMaxHeap) (i : ℕ) : LoopyMaxHeap :=
  setHeapIndex
    { setHeapIndex h (h.data i) 0 with
      data := update h.data i (h.data h.size)
      size := h.size - 1 } (h.data h.size) i

/-- Cell `i` is removed: the last cell takes its place and bubbles up or down. -/
def removeAt (h : LoopyMaxHeap) (i : ℕ) : LoopyMaxHeap :=
  if i = h.size then dropLast h
  else if i > 1 ∧ h.data h.size > h.data (i / 2) then heapBubbleUp (moveLast h i) i
  else heapBubbleDown (moveLast h i) i

@[simp] theorem moveLast_size (h : LoopyMaxHeap) (i : ℕ) : (moveLast h i).size = h.size - 1 := by
  simp [moveLast]

@[simp] theorem moveLast_data (h : LoopyMaxHeap) (i : ℕ) :
    (moveLast h i).data = update h.data i (h.data h.size) := by
  simp [moveLast]

@[simp] theorem moveLast_capacity (h : LoopyMaxHeap) (i : ℕ) :
    (moveLast h i).capacity = h.capacity := by
  simp [moveLast]

@[simp] theorem moveLast_dataLen (h : LoopyMaxHeap) (i : ℕ) :
    (moveLast h i).dataLen = h.dataLen := by
  simp [moveLast]

/-- A removal that has found its cell removes that cell. -/
theorem remove_eq (hi : 1 ≤ removeIndex h value) (hin : removeIndex h value ≤ h.size)
    (hval : h.data (removeIndex h value) = value) :
    loopyMaxHeapRemove h value = (true, removeAt h (removeIndex h value)) := by
  set i := removeIndex h value with hidef
  unfold loopyMaxHeapRemove removeAt
  rw [if_neg (by omega)]
  simp only [← hidef, if_neg (show ¬ i = 0 by omega), setHeapIndex_size, setHeapIndex_data]
  by_cases hlast : i = h.size
  · rw [if_pos hlast, if_pos hlast, dropLast, ← hlast, hval]
    simp only [setHeapIndex_data]
  · rw [if_neg hlast, if_neg hlast, update_self,
      update_of_ne (by omega : i / 2 ≠ i), moveLast, hval]
    simp only []
    split <;> rfl

/-- What dropping or moving the last cell and swaps within the heap keep, removing a cell
keeps. -/
theorem removeAt_swaps {P : LoopyMaxHeap → Prop}
    (hswap : ∀ h i j, P h → 1 ≤ i → i ≤ h.size → 1 ≤ j → j ≤ h.size → P (heapSwap h i j))
    (hi : 1 ≤ i) (hin : i ≤ h.size) (hdrop : P (dropLast h))
    (hmove : i < h.size → P (moveLast h i)) : P (removeAt h i) := by
  unfold removeAt
  split
  · exact hdrop
  · have hle : i ≤ (moveLast h i).size := by
      rw [moveLast_size]
      omega
    split
    · exact heapBubbleUp_swaps hswap (hmove (by omega)) hle
    · exact heapBubbleDown_swaps hswap (hmove (by omega)) hi hle

/-- Removing leaves the capacity. -/
theorem removeAt_capacity (h : LoopyMaxHeap) (i : ℕ) : (removeAt h i).capacity = h.capacity := by
  unfold removeAt
  split
  · exact setHeapIndex_capacity ..
  · split
    · exact (heapBubbleUpLoop_frame _ _ _).2.1.trans (moveLast_capacity h i)
    · exact (heapBubbleDownLoop_frame _ _ _).2.1.trans (moveLast_capacity h i)

/-- Removing a cell removes one copy of its value. -/
theorem removeAt_arranged (ha : Arranged h) (hi : 1 ≤ i) (hin : i ≤ h.size) :
    Arranged (removeAt h i) ∧ (removeAt h i).contents = h.contents.erase (h.data i) := by
  have hord : BinHeap.Ordered (h.size - 1) h.data := ha.ordered.mono (by omega)
  unfold removeAt
  by_cases hlast : i = h.size
  · -- the last cell: nothing to move
    rw [if_pos hlast, hlast]
    have hblock : InBlock (dropLast h) :=
      ha.toInBlock.of_frame (Nat.sub_le _ _) (setHeapIndex_capacity ..) (setHeapIndex_dataLen ..)
    refine ⟨⟨hblock, ?_⟩, ?_⟩
    · simpa only [dropLast, setHeapIndex_data] using hord
    · have hsucc := BinHeap.contents_succ (h.size - 1) h.data
      rw [show h.size - 1 + 1 = h.size by omega] at hsucc
      simp only [LoopyMaxHeap.contents, dropLast, setHeapIndex_data, hsucc,
        Multiset.erase_cons_head]
  · have hmove := BinHeap.contents_moveLast (n := h.size - 1) h.data hi (by omega)
    rw [show h.size - 1 + 1 = h.size by omega] at hmove
    have herase : (moveLast h i).contents = h.contents.erase (h.data i) := by
      rw [LoopyMaxHeap.contents, moveLast_size, moveLast_data, LoopyMaxHeap.contents, hmove,
        Multiset.erase_cons_head]
    have hle : i ≤ (moveLast h i).size := by
      rw [moveLast_size]
      omega
    have hblock : InBlock (moveLast h i) :=
      ha.toInBlock.of_frame (by simp) (moveLast_capacity h i) (moveLast_dataLen h i)
    rw [if_neg hlast]
    by_cases hup : i > 1 ∧ h.data h.size > h.data (i / 2)
    · rw [if_pos hup]
      have ho : BinHeap.UpOrder (moveLast h i).size (moveLast h i).data i := by
        rw [moveLast_size, moveLast_data]
        exact hord.upOrder_update (by omega) (by omega) hup.2.le
      obtain ⟨harr, hc⟩ := heapBubbleUp_arranged hblock ho hle
      exact ⟨harr, hc.trans herase⟩
    · rw [if_neg hup]
      have ho : BinHeap.DownOrder (moveLast h i).size (moveLast h i).data i := by
        rw [moveLast_size, moveLast_data]
        exact hord.downOrder_update (by omega) fun h2 => not_lt.mp fun hlt => hup ⟨h2, hlt⟩
      obtain ⟨harr, hc⟩ := heapBubbleDown_arranged hblock ho hi hle
      exact ⟨harr, hc.trans herase⟩

/-- The last value goes together with its place. -/
theorem Indexed.dropLast (t : Indexed h) : Indexed (dropLast h) := by
  intro v hv hne
  simp only [MaxHeap.dropLast, setHeapIndex_posMapSize] at hv
  simp only [MaxHeap.dropLast, setHeapIndex_data, setHeapIndex_heapIndex] at hne ⊢
  by_cases hvl : (v : ℤ) = h.data h.size ∧ v < h.posMapSize
  · rw [if_pos hvl] at hne; exact absurd rfl hne
  · rw [if_neg hvl] at hne ⊢
    obtain ⟨hle, hdata⟩ := t v hv hne
    have hlast : (h.posMap v).heapIndex ≠ h.size := by
      intro he; rw [he] at hdata; exact hvl ⟨hdata.symm, hv⟩
    exact ⟨by omega, hdata⟩

/-- The last value moves into the gap. -/
theorem Indexed.moveLast (t : Indexed h) (hin : i < h.size) : Indexed (moveLast h i) := by
  intro v hv hne
  simp only [MaxHeap.moveLast, setHeapIndex_posMapSize] at hv
  simp only [MaxHeap.moveLast, setHeapIndex_data, setHeapIndex_size, setHeapIndex_posMapSize,
    setHeapIndex_heapIndex] at hne ⊢
  by_cases hvl : (v : ℤ) = h.data h.size ∧ v < h.posMapSize
  · rw [if_pos hvl, update_self]
    exact ⟨by omega, hvl.1.symm⟩
  · rw [if_neg hvl] at hne ⊢
    by_cases hvi : (v : ℤ) = h.data i ∧ v < h.posMapSize
    · rw [if_pos hvi] at hne; exact absurd rfl hne
    · rw [if_neg hvi] at hne ⊢
      obtain ⟨hle, hdata⟩ := t v hv hne
      have hne1 : (h.posMap v).heapIndex ≠ i := by
        intro he; rw [he] at hdata; exact hvi ⟨hdata.symm, hv⟩
      have hne2 : (h.posMap v).heapIndex ≠ h.size := by
        intro he; rw [he] at hdata; exact hvl ⟨hdata.symm, hv⟩
      rw [update_of_ne hne1]
      exact ⟨by omega, hdata⟩

/-- The values that stay keep their places. -/
theorem Tracked.dropLast (t : Tracked h) (hpos : 0 < h.size) : Tracked (dropLast h) := by
  refine ⟨fun k hk hkn => ?_, Indexed.dropLast t.entry⟩
  have hkn' : k ≤ h.size - 1 := hkn
  have hne : h.data k ≠ h.data h.size := fun he => by
    have := t.inj hk (by omega) hpos le_rfl he
    omega
  simp only [MaxHeap.dropLast, setHeapIndex_data, setHeapIndex_posMapSize, setHeapIndex_heapIndex]
  obtain ⟨h0, hp, hidx⟩ := t.cell k hk (by omega)
  rw [if_neg (by omega)]
  exact ⟨h0, hp, hidx⟩

/-- The moved value has the place of the gap. -/
theorem Tracked.moveLast (t : Tracked h) (hi : 1 ≤ i) (hin : i < h.size) :
    Tracked (moveLast h i) := by
  obtain ⟨hl0, hlp, hlidx⟩ := t.cell h.size (by omega) le_rfl
  refine ⟨fun k hk hkn => ?_, Indexed.moveLast t.entry hin⟩
  rw [moveLast_size] at hkn
  simp only [MaxHeap.moveLast, setHeapIndex_data, setHeapIndex_posMapSize, setHeapIndex_heapIndex]
  by_cases hki : k = i
  · subst hki
    rw [update_self, if_pos (by omega)]
    exact ⟨hl0, hlp, rfl⟩
  · obtain ⟨h0, hp, hidx⟩ := t.cell k hk (by omega)
    have hne1 : h.data k ≠ h.data h.size := fun he => by
      have := t.inj hk (by omega) (by omega) le_rfl he
      omega
    have hne2 : h.data k ≠ h.data i := fun he => hki (t.inj hk (by omega) hi hin.le he)
    rw [update_of_ne hki, if_neg (by omega), if_neg (by omega)]
    exact ⟨h0, hp, hidx⟩

/-- **Remove** takes a descriptor out. -/
theorem remove_fdHeap (fh : FdHeap h) (hmem : value ∈ h.contents) :
    (loopyMaxHeapRemove h value).1 = true ∧ FdHeap (loopyMaxHeapRemove h value).2 ∧
      (loopyMaxHeapRemove h value).2.contents = h.contents.erase value := by
  obtain ⟨hi, hin, hval⟩ := removeIndex_spec fh.tracked hmem
  obtain ⟨harr, hcontents⟩ := removeAt_arranged fh.toArranged hi hin
  have ttracked := removeAt_swaps (P := Tracked) (fun _ _ _ t hi hin hj hjn => t.heapSwap hi hin hj hjn)
    hi hin (fh.tracked.dropLast (by omega)) (fh.tracked.moveLast hi)
  rw [hval] at hcontents
  rw [remove_eq hi hin hval]
  refine ⟨rfl, ⟨harr, ttracked, fun v hin => ?_, ?_⟩, hcontents⟩
  · rw [hcontents] at hin
    exact fh.int v (Multiset.mem_of_mem_erase hin)
  · rw [removeAt_capacity]
    exact fh.capacity_le

end Loopy.MaxHeap
