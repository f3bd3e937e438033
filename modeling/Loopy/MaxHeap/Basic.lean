import Mathlib.Algebra.Group.Nat.Defs
import Mathlib.Data.Int.Basic
import Mathlib.Tactic.Common

/-!
# `loopyMaxHeap.c`: the fd max-heap

A binary heap over 1-indexed cells with a position map from values to cells. The arrays
are functions of the index. Allocation always succeeds, but the size that is asked for is a
`size_t` and wraps: `capacity` is what the heap believes it has, `dataLen` the number of cells
in the block of `data`. Every access of the code is to a cell up to `size`, so it is within the
block as long as `size < dataLen`. Every `while` loop carries an explicit bound on its
iterations, chosen so that the loop has always ended before the bound is used up. A
`loopyHeapValue` (an `int32_t`) is an integer.
-/

namespace Loopy.MaxHeap

open Function (update)

/-- `LOOPY_HEAP_EMPTY_VALUE`. -/
def heapEmptyValue : ℤ := -1

/-- `loopyHeapPosEntry`: `heapIndex` is a 1-based cell, 0 when unused. -/
structure LoopyHeapPosEntry where
  value : ℤ
  heapIndex : ℕ
deriving DecidableEq, Repr

/-- `loopyMaxHeap`. -/
structure LoopyMaxHeap where
  data : ℕ → ℤ
  dataLen : ℕ
  posMap : ℕ → LoopyHeapPosEntry
  size : ℕ
  capacity : ℕ
  posMapSize : ℕ

/-! ## Internal helpers -/

/-- The guarded write `posMap[v].heapIndex = i`: negative values and values past the map
are not tracked. -/
def setHeapIndex (h : LoopyMaxHeap) (v : ℤ) (i : ℕ) : LoopyMaxHeap :=
  if 0 ≤ v ∧ v.toNat < h.posMapSize then
    let entry := { h.posMap v.toNat with heapIndex := i }
    { h with posMap := update h.posMap v.toNat entry }
  else h

/-- `heapSwap`: swap two cells and update the position map. -/
def heapSwap (h : LoopyMaxHeap) (i j : ℕ) : LoopyMaxHeap :=
  let vi := h.data i
  let vj := h.data j
  let h := { h with data := update (update h.data i vj) j vi }
  setHeapIndex (setHeapIndex h vi j) vj i

/-- The loop of `heapBubbleUp`. -/
def heapBubbleUpLoop : ℕ → LoopyMaxHeap → ℕ → LoopyMaxHeap
  | 0, h, _ => h
  | fuel + 1, h, i =>
    if 1 < i then
      let p := i / 2
      if h.data p ≥ h.data i then h
      else heapBubbleUpLoop fuel (heapSwap h i p) p
    else h

/-- `heapBubbleUp`. -/
def heapBubbleUp (h : LoopyMaxHeap) (i : ℕ) : LoopyMaxHeap := heapBubbleUpLoop i h i

/-- The cell `heapBubbleDown` calls `largest`. -/
def heapLargest (h : LoopyMaxHeap) (i : ℕ) : ℕ :=
  let left := 2 * i
  let right := 2 * i + 1
  let largest := if left ≤ h.size ∧ h.data left > h.data i then left else i
  if right ≤ h.size ∧ h.data right > h.data largest then right else largest

/-- The loop of `heapBubbleDown`. -/
def heapBubbleDownLoop : ℕ → LoopyMaxHeap → ℕ → LoopyMaxHeap
  | 0, h, _ => h
  | fuel + 1, h, i =>
    let largest := heapLargest h i
    if largest = i then h
    else heapBubbleDownLoop fuel (heapSwap h i largest) largest

/-- `heapBubbleDown`. -/
def heapBubbleDown (h : LoopyMaxHeap) (i : ℕ) : LoopyMaxHeap := heapBubbleDownLoop h.size h i

/-- The doubling loop `while (newSize < needed) newSize *= 2`. -/
def doubleUntil : ℕ → ℕ → ℕ → ℕ
  | 0, newSize, _ => newSize
  | fuel + 1, newSize, needed =>
    if newSize < needed then doubleUntil fuel (newSize * 2) needed else newSize

/-- `ensurePosMapCapacity`: grow the position map to hold `value`, zeroing new entries. -/
def ensurePosMapCapacity (h : LoopyMaxHeap) (value : ℤ) : LoopyMaxHeap :=
  if value < 0 then h
  else
    let needed := value.toNat + 1
    if needed ≤ h.posMapSize then h
    else
      let newSize := doubleUntil needed (if h.posMapSize ≠ 0 then h.posMapSize * 2 else 16) needed
      { h with
        posMap := fun v =>
          if h.posMapSize ≤ v ∧ v < newSize then ⟨0, 0⟩ else h.posMap v
        posMapSize := newSize }

/-- The cells in a block of `(capacity + 1) * sizeof(*data)` bytes. -/
def dataCells (capacity : ℕ) : ℕ := (capacity + 1) * 4 % 2 ^ 64 / 4

/-- `zrealloc` of `data` for `capacity` values: a block that shrinks loses the cells behind it. -/
def reallocData (h : LoopyMaxHeap) (capacity : ℕ) : LoopyMaxHeap :=
  { h with
    data := if h.dataLen ≤ dataCells capacity then h.data
      else fun i => if i < dataCells capacity then h.data i else 0
    dataLen := dataCells capacity
    capacity := capacity }

/-- `newCapacity` of `heapGrow`. -/
def grownCapacity (h : LoopyMaxHeap) : ℕ := if h.capacity ≠ 0 then h.capacity * 2 % 2 ^ 64 else 16

/-- `heapGrow`. -/
def heapGrow (h : LoopyMaxHeap) : LoopyMaxHeap := reallocData h (grownCapacity h)

/-! ## Lifecycle and core operations -/

/-- `loopyMaxHeapInit`; `zcalloc` gets the number of cells, itself a `size_t`. -/
def loopyMaxHeapInit (initialCapacity : ℕ) : LoopyMaxHeap :=
  let initialCapacity := if initialCapacity = 0 then 16 else initialCapacity
  { data := fun _ => 0
    dataLen := (initialCapacity + 1) % 2 ^ 64
    posMap := fun _ => ⟨0, 0⟩
    size := 0
    capacity := initialCapacity
    posMapSize := initialCapacity }

/-- `loopyMaxHeapInsert`. -/
def loopyMaxHeapInsert (h : LoopyMaxHeap) (value : ℤ) : LoopyMaxHeap :=
  let h := if h.size ≥ h.capacity then heapGrow h else h
  let h := ensurePosMapCapacity h value
  let i := h.size + 1
  let h := { h with size := i, data := update h.data i value }
  let h :=
    if 0 ≤ value ∧ value.toNat < h.posMapSize then
      { h with posMap := update h.posMap value.toNat ⟨value, i⟩ }
    else h
  heapBubbleUp h i

/-- `loopyMaxHeapPeek`. -/
def loopyMaxHeapPeek (h : LoopyMaxHeap) : ℤ :=
  if h.size = 0 then heapEmptyValue else h.data 1

/-- `loopyMaxHeapPop`. -/
def loopyMaxHeapPop (h : LoopyMaxHeap) : ℤ × LoopyMaxHeap :=
  if h.size = 0 then (heapEmptyValue, h)
  else
    let max := h.data 1
    let h := setHeapIndex h max 0
    let h :=
      if h.size > 1 then
        let last := h.data h.size
        setHeapIndex { h with data := update h.data 1 last } last 1
      else h
    let h := { h with size := h.size - 1 }
    (max, if h.size > 0 then heapBubbleDown h 1 else h)

/-- The linear search `for (j = 1; j <= size; j++)`: the first cell holding `value`. -/
def linearSearch (data : ℕ → ℤ) (value : ℤ) (size : ℕ) : Option ℕ :=
  ((List.range size).map (· + 1)).find? fun j => data j = value

/-- The cell `loopyMaxHeapRemove` settles on; `0` when the value was not found. The
position-map entry survives a failed search. -/
def removeIndex (h : LoopyMaxHeap) (value : ℤ) : ℕ :=
  let i := if 0 ≤ value ∧ value.toNat < h.posMapSize then (h.posMap value.toNat).heapIndex else 0
  if i = 0 ∨ i > h.size ∨ h.data i ≠ value then
    (linearSearch h.data value h.size).getD i
  else i

/-- `loopyMaxHeapRemove`. -/
def loopyMaxHeapRemove (h : LoopyMaxHeap) (value : ℤ) : Bool × LoopyMaxHeap :=
  if h.size = 0 then (false, h)
  else
    let i := removeIndex h value
    if i = 0 then (false, h)
    else
      let h := setHeapIndex h value 0
      if i = h.size then (true, { h with size := h.size - 1 })
      else
        let last := h.data h.size
        let h := { h with data := update h.data i last, size := h.size - 1 }
        let h := setHeapIndex h last i
        if i > 1 ∧ h.data i > h.data (i / 2) then (true, heapBubbleUp h i)
        else (true, heapBubbleDown h i)

/-- `loopyMaxHeapContains`. -/
def loopyMaxHeapContains (h : LoopyMaxHeap) (value : ℤ) : Bool :=
  if h.size = 0 then false
  else
    let idx := if 0 ≤ value ∧ value.toNat < h.posMapSize then (h.posMap value.toNat).heapIndex else 0
    if idx > 0 ∧ idx ≤ h.size ∧ h.data idx = value then true
    else (linearSearch h.data value h.size).isSome

/-! ## Utility -/

/-- `loopyMaxHeapReserve`. -/
def loopyMaxHeapReserve (h : LoopyMaxHeap) (capacity : ℕ) : LoopyMaxHeap :=
  if capacity ≤ h.capacity then h else reallocData h capacity

/-- `loopyMaxHeapClear`. -/
def loopyMaxHeapClear (h : LoopyMaxHeap) : LoopyMaxHeap :=
  { h with
    posMap := fun v => if v < h.posMapSize then ⟨0, 0⟩ else h.posMap v
    size := 0 }

end Loopy.MaxHeap
