import Mathlib.Algebra.Group.Nat.Defs
import Mathlib.Tactic.Common

/-!
# `loopyChannel.c`: channels

The two implementations of a channel, the lock-free ring of SPSC channels and the
mutex-protected one of MPSC and MPMC channels, and the non-blocking calls on them. `α` is
the contents of one element (`elementSize` bytes); a slot that was never written, or is being
written, holds `none`. `bufferSize` is the number of bytes that were allocated; a copy to or from
a slot is within the buffer if these reach to its end (`InBuffer`). A `size_t` is a natural below
`2 ^ 64` with its arithmetic modulo `2 ^ 64`. The statistics are left out.
-/

namespace Loopy.Channel

/-- `loopyChannelStatus`. -/
inductive LoopyChannelStatus
  | OK
  | ERROR
  | INVALID
  | TIMEOUT
  | CLOSED
  | FULL
  | EMPTY
deriving DecidableEq, Repr

/-- The `ssize_t` of a receive: the number of bytes together with what was copied, or a
status. -/
inductive RecvResult (α : Type)
  | element (data : Option α) (n : ℕ)
  | status (status : LoopyChannelStatus)
deriving DecidableEq, Repr

variable {α : Type}

/-! ## Helper functions -/

/-- One step `n |= n >> s`. -/
def orShift (n s : ℕ) : ℕ := n ||| n >>> s

/-- `nextPowerOf2`. -/
def nextPowerOf2 (n : ℕ) : ℕ :=
  if n = 0 then 1
  else
    let n := n - 1
    let n := orShift n 1
    let n := orShift n 2
    let n := orShift n 4
    let n := orShift n 8
    let n := orShift n 16
    let n := orShift n 32
    (n + 1) % 2 ^ 64

/-- `a - b` on `size_t`. -/
def sizeSub (a b : ℕ) : ℕ := (a + (2 ^ 64 - b)) % 2 ^ 64

/-- The bytes of a slot are among the `bufferSize` bytes of a buffer. -/
def InBuffer (bufferSize elementSize slot : ℕ) : Prop := (slot + 1) * elementSize ≤ bufferSize

instance (bufferSize elementSize slot : ℕ) : Decidable (InBuffer bufferSize elementSize slot) :=
  inferInstanceAs (Decidable (_ ≤ _))

/-! ## SPSC implementation -/

/-- `loopyChannelSPSC`. -/
structure LoopyChannelSPSC (α : Type) where
  buffer : ℕ → Option α
  bufferSize : ℕ
  capacity : ℕ
  elementSize : ℕ
  mask : ℕ
  head : ℕ
  cachedTail : ℕ
  tail : ℕ
  cachedHead : ℕ

/-- `actualCapacity` of `spscInit`, the slots it allocates. -/
def actualCapacity (capacity : ℕ) : ℕ := nextPowerOf2 ((capacity + 1) % 2 ^ 64)

/-- `spscInit`. -/
def spscInit (α : Type) (capacity elementSize : ℕ) : LoopyChannelSPSC α :=
  { buffer := fun _ => none
    bufferSize := actualCapacity capacity * elementSize % 2 ^ 64
    capacity
    elementSize
    mask := sizeSub (actualCapacity capacity) 1
    head := 0
    cachedTail := 0
    tail := 0
    cachedHead := 0 }

/-- The test `((head - cachedTail) & mask) >= capacity`. -/
def LoopyChannelSPSC.looksFull (spsc : LoopyChannelSPSC α) (head cachedTail : ℕ) : Prop :=
  (sizeSub head cachedTail &&& spsc.mask) ≥ spsc.capacity

instance (spsc : LoopyChannelSPSC α) (head cachedTail : ℕ) :
    Decidable (spsc.looksFull head cachedTail) :=
  inferInstanceAs (Decidable ((sizeSub head cachedTail &&& spsc.mask) ≥ spsc.capacity))

/-- The slot of a running index. -/
def LoopyChannelSPSC.slot (spsc : LoopyChannelSPSC α) (i : ℕ) : ℕ := i &&& spsc.mask

/-- The copy into the slot of `head` and the store of `head`. -/
def LoopyChannelSPSC.push (spsc : LoopyChannelSPSC α) (data : α) (head : ℕ) :
    LoopyChannelSPSC α :=
  { spsc with
    buffer := Function.update spsc.buffer (spsc.slot head) (some data)
    head := (head + 1) % 2 ^ 64 }

/-- `spscTrySend`. -/
def spscTrySend (spsc : LoopyChannelSPSC α) (data : α) (len : ℕ) : Bool × LoopyChannelSPSC α :=
  if len ≠ spsc.elementSize then (false, spsc)
  else
    let head := spsc.head
    if spsc.looksFull head spsc.cachedTail then
      let spsc := { spsc with cachedTail := spsc.tail }
      if spsc.looksFull head spsc.cachedTail then (false, spsc)
      else (true, spsc.push data head)
    else (true, spsc.push data head)

/-- The copy out of the slot of `tail` and the store of `tail`. -/
def LoopyChannelSPSC.pop (spsc : LoopyChannelSPSC α) (tail : ℕ) :
    RecvResult α × LoopyChannelSPSC α :=
  (.element (spsc.buffer (spsc.slot tail)) spsc.elementSize,
    { spsc with tail := (tail + 1) % 2 ^ 64 })

/-- `spscTryRecv`. -/
def spscTryRecv (spsc : LoopyChannelSPSC α) (bufLen : ℕ) : RecvResult α × LoopyChannelSPSC α :=
  if bufLen < spsc.elementSize then (.status .INVALID, spsc)
  else
    let tail := spsc.tail
    if tail = spsc.cachedHead then
      let spsc := { spsc with cachedHead := spsc.head }
      if tail = spsc.cachedHead then (.status .EMPTY, spsc) else spsc.pop tail
    else spsc.pop tail

/-- `spscLen`. -/
def spscLen (spsc : LoopyChannelSPSC α) : ℕ := sizeSub spsc.head spsc.tail

/-- `spscIsFull`. -/
def spscIsFull (spsc : LoopyChannelSPSC α) : Bool := sizeSub spsc.head spsc.tail ≥ spsc.capacity

/-- `spscIsEmpty`. -/
def spscIsEmpty (spsc : LoopyChannelSPSC α) : Bool := spsc.head = spsc.tail

/-! ## MPMC implementation -/

/-- `loopyChannelMPMC`; its mutex is free between calls. -/
structure LoopyChannelMPMC (α : Type) where
  buffer : ℕ → Option α
  bufferSize : ℕ
  capacity : ℕ
  elementSize : ℕ
  head : ℕ
  tail : ℕ
  count : ℕ

/-- `mpmcInit`. -/
def mpmcInit (α : Type) (capacity elementSize : ℕ) : LoopyChannelMPMC α :=
  { buffer := fun _ => none
    bufferSize := capacity * elementSize % 2 ^ 64
    capacity
    elementSize
    head := 0
    tail := 0
    count := 0 }

/-- The copy into the slot of `head`. -/
def LoopyChannelMPMC.push (mpmc : LoopyChannelMPMC α) (data : α) : LoopyChannelMPMC α :=
  { mpmc with
    buffer := Function.update mpmc.buffer mpmc.head (some data)
    head := (mpmc.head + 1) % mpmc.capacity
    count := mpmc.count + 1 }

/-- The copy out of the slot of `tail`. -/
def LoopyChannelMPMC.pop (mpmc : LoopyChannelMPMC α) : Option α × LoopyChannelMPMC α :=
  (mpmc.buffer mpmc.tail,
    { mpmc with tail := (mpmc.tail + 1) % mpmc.capacity, count := mpmc.count - 1 })

/-- `mpmcTrySend`: `mpmcSend` with `blocking = false`. -/
def mpmcTrySend (mpmc : LoopyChannelMPMC α) (data : α) (len : ℕ) (closed : Bool) :
    LoopyChannelStatus × LoopyChannelMPMC α :=
  if len ≠ mpmc.elementSize then (.INVALID, mpmc)
  else if mpmc.count ≥ mpmc.capacity then (if closed then .CLOSED else .FULL, mpmc)
  else if closed then (.CLOSED, mpmc)
  else (.OK, mpmc.push data)

/-- `mpmcTryRecv`: `mpmcRecv` with `blocking = false`. -/
def mpmcTryRecv (mpmc : LoopyChannelMPMC α) (bufLen : ℕ) (closed : Bool) :
    RecvResult α × LoopyChannelMPMC α :=
  if bufLen < mpmc.elementSize then (.status .INVALID, mpmc)
  else if mpmc.count = 0 then (.status (if closed then .CLOSED else .EMPTY), mpmc)
  else (.element mpmc.pop.1 mpmc.elementSize, mpmc.pop.2)

/-- `mpmcLen`. -/
def mpmcLen (mpmc : LoopyChannelMPMC α) : ℕ := mpmc.count

/-- `mpmcIsFull`. -/
def mpmcIsFull (mpmc : LoopyChannelMPMC α) : Bool := mpmc.count ≥ mpmc.capacity

/-- `mpmcIsEmpty`. -/
def mpmcIsEmpty (mpmc : LoopyChannelMPMC α) : Bool := mpmc.count = 0

/-! ## Channels -/

/-- `loopyChannelType`. -/
inductive LoopyChannelType
  | SPSC
  | MPSC
  | MPMC
deriving DecidableEq, Repr

/-- The `union` of the implementations. -/
inductive Impl (α : Type)
  | spsc (spsc : LoopyChannelSPSC α)
  | mpmc (mpmc : LoopyChannelMPMC α)

/-- `loopyChannel`. -/
structure LoopyChannel (α : Type) where
  impl : Impl α
  closed : Bool

/-- `loopyChannelNew`, once its buffer is allocated; MPSC and MPMC channels are alike. -/
def loopyChannelNew (α : Type) (type : LoopyChannelType) (capacity elementSize : ℕ) :
    LoopyChannel α :=
  { impl :=
      match type with
      | .SPSC => .spsc (spscInit α capacity elementSize)
      | .MPSC | .MPMC => .mpmc (mpmcInit α capacity elementSize)
    closed := false }

/-- `loopyChannelClose`. -/
def loopyChannelClose (ch : LoopyChannel α) : LoopyChannel α := { ch with closed := true }

/-- `loopyChannelTrySend`. -/
def loopyChannelTrySend (ch : LoopyChannel α) (data : α) (len : ℕ) :
    LoopyChannelStatus × LoopyChannel α :=
  if ch.closed then (.CLOSED, ch)
  else
    match ch.impl with
    | .spsc spsc =>
      let (sent, spsc) := spscTrySend spsc data len
      (if sent then .OK else .FULL, { ch with impl := .spsc spsc })
    | .mpmc mpmc =>
      let (status, mpmc) := mpmcTrySend mpmc data len ch.closed
      (status, { ch with impl := .mpmc mpmc })

/-- `loopyChannelTryRecv`. -/
def loopyChannelTryRecv (ch : LoopyChannel α) (bufLen : ℕ) : RecvResult α × LoopyChannel α :=
  match ch.impl with
  | .spsc spsc =>
    let (result, spsc) := spscTryRecv spsc bufLen
    (result, { ch with impl := .spsc spsc })
  | .mpmc mpmc =>
    let (result, mpmc) := mpmcTryRecv mpmc bufLen ch.closed
    (result, { ch with impl := .mpmc mpmc })

/-- `loopyChannelLen`. -/
def loopyChannelLen (ch : LoopyChannel α) : ℕ :=
  match ch.impl with
  | .spsc spsc => spscLen spsc
  | .mpmc mpmc => mpmcLen mpmc

/-- `loopyChannelIsFull`. -/
def loopyChannelIsFull (ch : LoopyChannel α) : Bool :=
  match ch.impl with
  | .spsc spsc => spscIsFull spsc
  | .mpmc mpmc => mpmcIsFull mpmc

/-- `loopyChannelIsEmpty`. -/
def loopyChannelIsEmpty (ch : LoopyChannel α) : Bool :=
  match ch.impl with
  | .spsc spsc => spscIsEmpty spsc
  | .mpmc mpmc => mpmcIsEmpty mpmc

end Loopy.Channel
