import Loopy.Lib.Run
import Loopy.MaxHeap.Theorems

/-!
# `loopyMaxHeap` as a multiset

The representation invariant of the heap for arbitrary values, negative ones and duplicates
included, and what each operation does to the multiset of its cells. The position map is
partial: a value that is in the heap need not have an entry, but an entry in use is right
(`Indexed`), so the linear search behind it finds exactly the values it misses. All of this is so
as long as no block is asked for whose size is past the range of a `size_t` (`HeapOp.Fits`).
-/

namespace Loopy.MaxHeap

open Loopy.Lib
open Function (update update_of_ne)

/-- The representation invariant. -/
structure RepInv (h : LoopyMaxHeap) : Prop extends Arranged h where
  indexed : Indexed h

/-! ## Operations -/

/-- A call on the heap that changes it. -/
inductive HeapOp
  | init (capacity : ℕ)
  | insert (value : ℤ)
  | pop
  | remove (value : ℤ)
  | reserve (capacity : ℕ)
  | clear
deriving DecidableEq, Repr

/-- The heap after a call. -/
def HeapOp.apply (h : LoopyMaxHeap) : HeapOp → LoopyMaxHeap
  | .init capacity => loopyMaxHeapInit capacity
  | .insert value => loopyMaxHeapInsert h value
  | .pop => (loopyMaxHeapPop h).2
  | .remove value => (loopyMaxHeapRemove h value).2
  | .reserve capacity => loopyMaxHeapReserve h capacity
  | .clear => loopyMaxHeapClear h

/-- The arguments of a call: a capacity is a `size_t`, a value an `int32_t`. -/
def HeapOp.Typed : HeapOp → Prop
  | .init capacity | .reserve capacity => capacity < 2 ^ 64
  | .insert value | .remove value => -2 ^ 31 ≤ value ∧ value < 2 ^ 31
  | .pop | .clear => True

/-- The block that the call asks for, if it asks for one, has a size below `2 ^ 64`. -/
def HeapOp.Fits (h : LoopyMaxHeap) : HeapOp → Prop
  | .init capacity => (capacity + 1) * 4 < 2 ^ 64
  | .insert _ => InsertFits h
  | .reserve capacity => h.capacity < capacity → (capacity + 1) * 4 < 2 ^ 64
  | .pop | .remove _ | .clear => True

instance : (op : HeapOp) → Decidable op.Typed
  | .init _ | .reserve _ => inferInstanceAs (Decidable (_ < _))
  | .insert _ | .remove _ => inferInstanceAs (Decidable (_ ∧ _))
  | .pop | .clear => isTrue trivial

instance (h : LoopyMaxHeap) : (op : HeapOp) → Decidable (op.Fits h)
  | .init _ | .insert _ => inferInstanceAs (Decidable (_ < _))
  | .reserve _ => inferInstanceAs (Decidable (_ → _))
  | .pop | .remove _ | .clear => isTrue trivial

theorem RepInv.init {n : ℕ} (hfit : (n + 1) * 4 < 2 ^ 64) : RepInv (loopyMaxHeapInit n) :=
  ⟨init_arranged hfit, init_indexed n⟩

theorem Indexed.swaps (h : LoopyMaxHeap) (i j : ℕ) (t : Indexed h) (_ : 1 ≤ i) (hin : i ≤ h.size)
    (_ : 1 ≤ j) (hjn : j ≤ h.size) : Indexed (MaxHeap.heapSwap h i j) := t.heapSwap hin hjn

/-! ## Insert -/

variable {h : LoopyMaxHeap} {value : ℤ}

/-- A negative value gets no entry in the position map. -/
theorem insert_neg_eq (hb : InBlock h) (hfit : InsertFits h) (hv : value < 0) :
    loopyMaxHeapInsert h value = heapBubbleUp
        { h with
          size := h.size + 1
          data := update h.data (h.size + 1) value
          dataLen := insertCapacity h + 1
          capacity := insertCapacity h } (h.size + 1) := by
  have hguard : ¬ (0 ≤ value ∧ value.toNat < h.posMapSize) := by omega
  unfold loopyMaxHeapInsert ensurePosMapCapacity
  rw [(hb.grow hfit).1]
  simp only [if_pos hv]
  rw [if_neg hguard]

/-- A cell appended without an entry in the position map. -/
theorem Indexed.appendCell (t : Indexed h) (value : ℤ) (len cap : ℕ) :
    Indexed { h with
      size := h.size + 1
      data := update h.data (h.size + 1) value
      dataLen := len
      capacity := cap } := by
  intro v hvs hne
  obtain ⟨hle, hdata⟩ := t v hvs hne
  dsimp only
  rw [update_of_ne (by omega)]
  exact ⟨by omega, hdata⟩

theorem RepInv.insert (hr : RepInv h) (hfit : InsertFits h) (value : ℤ) :
    RepInv (loopyMaxHeapInsert h value) ∧
      (loopyMaxHeapInsert h value).contents = value ::ₘ h.contents := by
  have hroom := (hr.toInBlock.grow hfit).2
  by_cases hv : 0 ≤ value
  · obtain ⟨pm, n, heq, hlt, hle, hold, hzero⟩ := insert_eq hr.toInBlock hfit hv
    rw [heq]
    have tgrown : Indexed { h with
        dataLen := insertCapacity h + 1
        capacity := insertCapacity h
        posMap := pm
        posMapSize := n } := hr.indexed.grow hold hzero
    have tbubbled := heapBubbleUp_swaps Indexed.swaps (tgrown.append hv) le_rfl
    obtain ⟨harr, hcontents⟩ := appended_arranged hr.toArranged
      { h with
        size := h.size + 1
        data := update h.data (h.size + 1) value
        dataLen := insertCapacity h + 1
        capacity := insertCapacity h
        posMap := update pm value.toNat ⟨value, h.size + 1⟩
        posMapSize := n } rfl rfl ⟨hroom, rfl, hfit⟩
    exact ⟨⟨harr, tbubbled⟩, hcontents⟩
  · rw [insert_neg_eq hr.toInBlock hfit (not_le.mp hv)]
    have tbubbled := heapBubbleUp_swaps Indexed.swaps
      (hr.indexed.appendCell value (insertCapacity h + 1) (insertCapacity h)) le_rfl
    obtain ⟨harr, hcontents⟩ := appended_arranged hr.toArranged
      { h with
        size := h.size + 1
        data := update h.data (h.size + 1) value
        dataLen := insertCapacity h + 1
        capacity := insertCapacity h } rfl rfl ⟨hroom, rfl, hfit⟩
    exact ⟨⟨harr, tbubbled⟩, hcontents⟩

/-! ## Searching -/

/-- The linear search finds a cell with the value. -/
theorem linearSearch_some {data : ℕ → ℤ} {size j : ℕ} (h : linearSearch data value size = some j) :
    1 ≤ j ∧ j ≤ size ∧ data j = value := by
  unfold linearSearch at h
  have hpred := List.find?_some h
  obtain ⟨k, hk, rfl⟩ := List.mem_map.mp (List.mem_of_find?_eq_some h)
  have hlt := List.mem_range.mp hk
  exact ⟨by omega, by omega, by simpa using hpred⟩

/-- The linear search fails only if no cell has the value. -/
theorem linearSearch_none {data : ℕ → ℤ} {size : ℕ} (h : linearSearch data value size = none)
    {i : ℕ} (hi : 1 ≤ i) (hin : i ≤ size) : data i ≠ value := by
  unfold linearSearch at h
  have hmem : i ∈ (List.range size).map (· + 1) :=
    List.mem_map.mpr ⟨i - 1, List.mem_range.mpr (by omega), by omega⟩
  simpa using List.find?_eq_none.mp h i hmem

theorem linearSearch_isSome :
    (linearSearch h.data value h.size).isSome = true ↔ value ∈ h.contents := by
  constructor
  · intro hsome
    obtain ⟨j, hj⟩ := Option.isSome_iff_exists.mp hsome
    obtain ⟨h1, h2, h3⟩ := linearSearch_some hj
    exact BinHeap.mem_contents.mpr ⟨j, h1, h2, h3⟩
  · intro hmem
    obtain ⟨i, hi, hin, hval⟩ := BinHeap.mem_contents.mp hmem
    by_contra hnone
    rw [Bool.not_eq_true, Option.isSome_eq_false_iff, Option.isNone_iff_eq_none] at hnone
    exact linearSearch_none hnone hi hin hval

/-- The cell a removal settles on: one with the value, or none. -/
theorem removeIndex_cases (t : Indexed h) (value : ℤ) :
    (value ∈ h.contents ∧ 1 ≤ removeIndex h value ∧ removeIndex h value ≤ h.size ∧
        h.data (removeIndex h value) = value) ∨
      (value ∉ h.contents ∧ removeIndex h value = 0) := by
  unfold removeIndex
  set i := if 0 ≤ value ∧ value.toNat < h.posMapSize then (h.posMap value.toNat).heapIndex else 0
    with hi
  -- an entry in use is right
  have hentry : i ≠ 0 → i ≤ h.size ∧ h.data i = value := by
    intro hne
    by_cases hguard : 0 ≤ value ∧ value.toNat < h.posMapSize
    · rw [if_pos hguard] at hi
      rw [hi] at hne ⊢
      obtain ⟨hle, hdata⟩ := t value.toNat hguard.2 hne
      exact ⟨hle, by omega⟩
    · rw [if_neg hguard] at hi
      exact absurd hi hne
  by_cases hzero : i = 0
  · simp only [hzero, true_or, if_true]
    cases hsearch : linearSearch h.data value h.size with
    | some j =>
      left
      obtain ⟨h1, h2, h3⟩ := linearSearch_some hsearch
      exact ⟨BinHeap.mem_contents.mpr ⟨j, h1, h2, h3⟩, h1, h2, h3⟩
    | none =>
      right
      refine ⟨?_, rfl⟩
      rw [← linearSearch_isSome, hsearch]
      exact Bool.false_ne_true
  · obtain ⟨hle, hval⟩ := hentry hzero
    have hvalid : ¬ (i = 0 ∨ i > h.size ∨ h.data i ≠ value) := by
      rintro (h1 | h1 | h1)
      · exact hzero h1
      · omega
      · exact h1 hval
    left
    rw [if_neg hvalid]
    exact ⟨BinHeap.mem_contents.mpr ⟨i, by omega, hle, hval⟩, by omega, hle, hval⟩

/-- The position map only shortens the search. -/
theorem contains_iff (h : LoopyMaxHeap) (value : ℤ) :
    loopyMaxHeapContains h value = true ↔ value ∈ h.contents := by
  unfold loopyMaxHeapContains
  by_cases h0 : h.size = 0
  · rw [if_pos h0, LoopyMaxHeap.contents, h0, BinHeap.contents_zero]
    simp
  · rw [if_neg h0]
    set i := if 0 ≤ value ∧ value.toNat < h.posMapSize then (h.posMap value.toNat).heapIndex else 0
    by_cases hfound : i > 0 ∧ i ≤ h.size ∧ h.data i = value
    · simp only [if_pos hfound, true_iff]
      exact BinHeap.mem_contents.mpr ⟨i, hfound.1, hfound.2.1, hfound.2.2⟩
    · simp only [if_neg hfound]
      exact linearSearch_isSome

/-! ## Remove and Pop -/

theorem RepInv.removeAt (hr : RepInv h) {i : ℕ} (hi : 1 ≤ i) (hin : i ≤ h.size) :
    RepInv (removeAt h i) ∧ (removeAt h i).contents = h.contents.erase (h.data i) := by
  obtain ⟨harr, hcontents⟩ := removeAt_arranged hr.toArranged hi hin
  have tremoved := removeAt_swaps Indexed.swaps hi hin hr.indexed.dropLast hr.indexed.moveLast
  exact ⟨⟨harr, tremoved⟩, hcontents⟩

theorem RepInv.remove (hr : RepInv h) (value : ℤ) :
    (value ∈ h.contents ∧ (loopyMaxHeapRemove h value).1 = true ∧
        RepInv (loopyMaxHeapRemove h value).2 ∧
        (loopyMaxHeapRemove h value).2.contents = h.contents.erase value) ∨
      (value ∉ h.contents ∧ loopyMaxHeapRemove h value = (false, h)) := by
  rcases removeIndex_cases hr.indexed value with ⟨hmem, hi, hin, hval⟩ | ⟨hnot, hzero⟩
  · left
    obtain ⟨hinv, hcontents⟩ := hr.removeAt hi hin
    rw [hval] at hcontents
    rw [remove_eq hi hin hval]
    exact ⟨hmem, rfl, hinv, hcontents⟩
  · right
    refine ⟨hnot, ?_⟩
    unfold loopyMaxHeapRemove
    split
    · rfl
    · simp only [hzero, if_true]

/-- `loopyMaxHeapPop` removes the root cell. -/
theorem pop_eq (hpos : h.size ≠ 0) :
    loopyMaxHeapPop h = (loopyMaxHeapPeek h, MaxHeap.removeAt h 1) := by
  simp only [loopyMaxHeapPop, loopyMaxHeapPeek, MaxHeap.removeAt, if_neg hpos, setHeapIndex_size,
    setHeapIndex_data]
  by_cases hone : 1 = h.size
  · have hsmall : ¬ h.size > 1 := by omega
    have hempty : ¬ h.size - 1 > 0 := by omega
    simp only [if_neg hsmall, if_pos hone, setHeapIndex_size, if_neg hempty]
    rw [dropLast, ← hone]
  · have hlarge : h.size > 1 := by omega
    have hleft : h.size - 1 > 0 := by omega
    have hroot : ¬ (1 > 1 ∧ h.data h.size > h.data (1 / 2)) := by omega
    simp only [if_pos hlarge, if_neg hone, if_neg hroot, setHeapIndex_size, if_pos hleft]
    -- the source writes the position map before it shrinks the heap
    congr 2
    simp only [moveLast, setHeapIndex]
    split <;> split <;> simp_all

theorem RepInv.pop (hr : RepInv h) (hpos : h.size ≠ 0) :
    (loopyMaxHeapPop h).1 = loopyMaxHeapPeek h ∧ RepInv (loopyMaxHeapPop h).2 ∧
      (loopyMaxHeapPop h).2.contents = h.contents.erase (loopyMaxHeapPeek h) := by
  obtain ⟨hinv, hcontents⟩ := hr.removeAt le_rfl (by omega : 1 ≤ h.size)
  rw [pop_eq hpos]
  refine ⟨rfl, hinv, ?_⟩
  rw [loopyMaxHeapPeek, if_neg hpos]
  exact hcontents

theorem pop_empty (hsize : h.size = 0) : loopyMaxHeapPop h = (heapEmptyValue, h) := by
  rw [loopyMaxHeapPop, if_pos hsize]

/-! ## Reserve and Clear -/

theorem RepInv.reserve (hr : RepInv h) {capacity : ℕ}
    (hfit : h.capacity < capacity → (capacity + 1) * 4 < 2 ^ 64) :
    RepInv (loopyMaxHeapReserve h capacity) ∧
      (loopyMaxHeapReserve h capacity).contents = h.contents := by
  unfold loopyMaxHeapReserve
  split
  · exact ⟨hr, rfl⟩
  · next hmore =>
    have hfit := hfit (not_le.mp hmore)
    have hsize : h.size ≤ capacity := hr.size_le.trans (not_le.mp hmore).le
    rw [reallocData_eq hr.toInBlock (not_le.mp hmore).le hfit]
    exact ⟨⟨⟨⟨hsize, rfl, hfit⟩, hr.ordered⟩, hr.indexed⟩, rfl⟩

theorem RepInv.clear (hr : RepInv h) :
    RepInv (loopyMaxHeapClear h) ∧ (loopyMaxHeapClear h).contents = 0 := by
  have hblock : InBlock (loopyMaxHeapClear h) := hr.toInBlock.of_frame (Nat.zero_le _) rfl rfl
  refine ⟨⟨⟨hblock, ?_⟩, ?_⟩, BinHeap.contents_zero _⟩
  · intro i hi hin
    exact absurd (show i ≤ 0 from hin) (by omega)
  · intro v hv hne
    have hzero : ((loopyMaxHeapClear h).posMap v).heapIndex = 0 := by
      simp only [loopyMaxHeapClear]
      rw [if_pos (show v < h.posMapSize from hv)]
    exact absurd hzero hne

/-! ## Runs -/

/-- Every call that asks for a block of a possible size keeps the invariant. -/
theorem RepInv.apply (hr : RepInv h) {op : HeapOp} (hfit : op.Fits h) : RepInv (op.apply h) := by
  cases op with
  | init capacity => exact RepInv.init hfit
  | insert value => exact (hr.insert hfit value).1
  | pop =>
    show RepInv (loopyMaxHeapPop h).2
    by_cases hsize : h.size = 0
    · rw [pop_empty hsize]
      exact hr
    · exact (hr.pop hsize).2.1
  | remove value =>
    show RepInv (loopyMaxHeapRemove h value).2
    rcases hr.remove value with ⟨_, _, hinv, _⟩ | ⟨_, heq⟩
    · exact hinv
    · rw [heq]
      exact hr
  | reserve capacity => exact (hr.reserve hfit).1
  | clear => exact hr.clear.1

/-- A call. -/
def heapStep (h : LoopyMaxHeap) (op : HeapOp) : Option LoopyMaxHeap := some (op.apply h)

theorem RepInv.run {h' : LoopyMaxHeap} (hr : RepInv h) {ops : List HeapOp}
    (hrun : Run heapStep (fun h op => op.Fits h) h ops h') : RepInv h' := by
  refine hrun.invariant (fun h op h' hr hfit hstep => ?_) hr
  cases hstep
  exact hr.apply hfit

/-- What the calls do to the multiset of the cells, seen from the heap `h`; `ok` says of which
calls this is asked. -/
structure ActsOnMultiset (ok : HeapOp → Prop) (h : LoopyMaxHeap) : Prop where
  insert : ∀ v, ok (.insert v) → (loopyMaxHeapInsert h v).contents = v ::ₘ h.contents
  peek_empty : h.contents = 0 → loopyMaxHeapPeek h = -1
  peek : h.contents ≠ 0 →
    loopyMaxHeapPeek h ∈ h.contents ∧ ∀ v ∈ h.contents, v ≤ loopyMaxHeapPeek h
  pop_empty : h.contents = 0 → loopyMaxHeapPop h = (-1, h)
  pop : h.contents ≠ 0 → (loopyMaxHeapPop h).1 = loopyMaxHeapPeek h ∧
    (loopyMaxHeapPop h).2.contents = h.contents.erase (loopyMaxHeapPop h).1
  contains : ∀ v, loopyMaxHeapContains h v = true ↔ v ∈ h.contents
  remove : ∀ v, v ∈ h.contents → (loopyMaxHeapRemove h v).1 = true ∧
    (loopyMaxHeapRemove h v).2.contents = h.contents.erase v
  remove_absent : ∀ v, v ∉ h.contents → loopyMaxHeapRemove h v = (false, h)
  reserve : ∀ n, ok (.reserve n) → (loopyMaxHeapReserve h n).contents = h.contents
  clear : (loopyMaxHeapClear h).contents = 0

theorem contents_eq_zero : h.contents = 0 ↔ h.size = 0 := by
  constructor
  · intro hzero
    by_contra hne
    have hroot : h.data 1 ∈ h.contents :=
      BinHeap.mem_contents.mpr ⟨1, le_rfl, by omega, rfl⟩
    rw [hzero] at hroot
    exact Multiset.notMem_zero _ hroot
  · intro hsize
    rw [LoopyMaxHeap.contents, hsize, BinHeap.contents_zero]

theorem RepInv.actsOnMultiset (hr : RepInv h) :
    ActsOnMultiset (fun op => op.Fits h) h where
  insert v hfit := (hr.insert hfit v).2
  peek_empty hzero := by
    rw [loopyMaxHeapPeek, if_pos (contents_eq_zero.mp hzero), heapEmptyValue]
  peek hne := (peek_of_ordered hr.ordered).resolve_left fun hempty => hne hempty.1
  pop_empty hzero := MaxHeap.pop_empty (contents_eq_zero.mp hzero)
  pop hne := by
    obtain ⟨hmax, _, hcontents⟩ := hr.pop (mt contents_eq_zero.mpr hne)
    rw [hmax]
    exact ⟨rfl, hcontents⟩
  contains v := contains_iff h v
  remove v hmem := by
    obtain ⟨_, htrue, _, hcontents⟩ | ⟨hnot, _⟩ := hr.remove v
    · exact ⟨htrue, hcontents⟩
    · exact absurd hmem hnot
  remove_absent v hnot := by
    obtain ⟨hmem, _⟩ | ⟨_, heq⟩ := hr.remove v
    · exact absurd hmem hnot
    · exact heq
  reserve _ hfit := (hr.reserve hfit).2
  clear := hr.clear.2

/-- A well-formed heap, on which the calls that `ok` admits act as on the multiset of its cells. -/
structure HeapLaw (ok : HeapOp → Prop) (h : LoopyMaxHeap) : Prop where
  size_le : h.size ≤ h.capacity
  /-- The cells are in the block. -/
  block : h.size < h.dataLen
  ordered : ∀ i, 2 ≤ i → i ≤ h.size → h.data (i / 2) ≥ h.data i
  indexed : ∀ v, v < h.posMapSize → (h.posMap v).heapIndex ≠ 0 →
    (h.posMap v).heapIndex ≤ h.size ∧ h.data (h.posMap v).heapIndex = v
  acts : ActsOnMultiset ok h

/-- In every run in which no block is asked for whose size a `size_t` cannot hold, the heap is well
formed, and every further such call acts on the multiset of its cells. -/
theorem heap_refines_multiset (initialCapacity : ℕ) (hinit : (initialCapacity + 1) * 4 < 2 ^ 64)
    (ops : List HeapOp) (h : LoopyMaxHeap)
    (hrun : Run heapStep (fun h op => op.Fits h) (loopyMaxHeapInit initialCapacity) ops h) :
    HeapLaw (fun op => op.Fits h) h := by
  have hr := (RepInv.init hinit).run hrun
  have hlen := hr.dataLen
  have hsize := hr.size_le
  exact ⟨hsize, by omega, hr.ordered, hr.indexed, hr.actsOnMultiset⟩

/-- Duplicates and a negative value; the heap grows, and a larger one is reserved. -/
theorem heap_refines_multiset_grown :
    ∃ h, Run heapStep (fun h op => op.Fits h) (loopyMaxHeapInit 1)
        [.insert 3, .insert (-2), .insert 3, .reserve 1000, .remove 3] h ∧
      (h.size, h.capacity, loopyMaxHeapPeek h) = (2, 1000, 3) ∧ HeapLaw (fun op => op.Fits h) h := by
  refine Run.exists_of_exec (by decide +kernel) fun h hrun hval => ⟨hval, ?_⟩
  exact heap_refines_multiset 1 (by decide) _ h hrun

/-- `loopyMaxHeapReserve` for `2 ^ 62` values asks for four bytes, and the value in the heap is
lost. -/
theorem reserve_loses_value :
    ¬ ∀ (initialCapacity : ℕ) (ops : List HeapOp) (h : LoopyMaxHeap), initialCapacity < 2 ^ 64 →
      Run heapStep (fun _ op => op.Typed) (loopyMaxHeapInit initialCapacity) ops h →
      HeapLaw HeapOp.Typed h := by
  intro hall
  have hlaw := hall 16 [.insert 7] _ (by decide) (.single (by decide) rfl)
  have hlost := hlaw.acts.reserve (2 ^ 62) (by decide)
  have hmem : (7 : ℤ) ∈ (HeapOp.apply (loopyMaxHeapInit 16) (.insert 7)).contents := by decide
  rw [← hlost] at hmem
  revert hmem
  decide +kernel

end Loopy.MaxHeap
