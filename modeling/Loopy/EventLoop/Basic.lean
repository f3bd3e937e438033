import Mathlib.Algebra.Group.Int.Defs
import Mathlib.Algebra.Group.Nat.Defs
import Loopy.MaxHeap.Basic

/-!
# `loopy.c`: the event loop's tables and registrations

The platform adapter (`loopyInternalNew`, `loopyInternalAddEvent`, ...) is a parameter, as
it is in the source, where each adapter includes `loopy.c`. `σ` is the adapter's state
together with the kernel objects it drives, and `ε` the answers of the system calls made
by one operation.

* A pointer or callback is a natural number, `0` the NULL pointer.
* The table `events` is a function of the index, of which `setSize` entries are allocated;
  `eventsPtr` is its address (`none`: NULL), which `zrealloc` may change.
* `none` is the end of the program: a failed assertion, a NULL dereference, a table access
  out of bounds or a loop that never ends. Allocation succeeds.

The metrics, `userData` and `managementPipe` are left out: no function here reads them.
-/

namespace Loopy.EventLoop

open Loopy.MaxHeap

/-! ## Data -/

/-- `loopyAction`, a set of the two directions. -/
structure LoopyAction where
  read : Bool
  write : Bool
deriving DecidableEq, Repr

namespace LoopyAction

/-- `LOOPY_ACTION_NONE`. -/
def NONE : LoopyAction := ⟨false, false⟩

/-- `LOOPY_ACTION_READ`. -/
def READ : LoopyAction := ⟨true, false⟩

/-- `LOOPY_ACTION_WRITE`. -/
def WRITE : LoopyAction := ⟨false, true⟩

/-- `LOOPY_ACTION_READ | LOOPY_ACTION_WRITE`. -/
def ALL : LoopyAction := ⟨true, true⟩

/-- `a | b`. -/
def union (a b : LoopyAction) : LoopyAction := ⟨a.read || b.read, a.write || b.write⟩

/-- `a & ~b`. -/
def diff (a b : LoopyAction) : LoopyAction := ⟨a.read && !b.read, a.write && !b.write⟩

end LoopyAction

/-- `loopyFileEvent`: both directions share one `clientData`. -/
structure LoopyFileEvent where
  readCallback : ℕ
  writeCallback : ℕ
  clientData : ℕ
  mask : LoopyAction
deriving DecidableEq, Repr

/-- A zeroed `loopyFileEvent`. -/
def LoopyFileEvent.zero : LoopyFileEvent := ⟨0, 0, 0, .NONE⟩

/-- `loopyFiredEvent`. -/
structure LoopyFiredEvent where
  fd : ℕ
  mask : LoopyAction
deriving DecidableEq, Repr

/-- A zeroed `loopyFiredEvent`. -/
def LoopyFiredEvent.zero : LoopyFiredEvent := ⟨0, .NONE⟩

/-- One of the two sleep hooks: `cb` is 0 when none is installed. -/
structure SleepHook where
  cb : ℕ
  clientData : ℕ
deriving DecidableEq, Repr

/-- `struct loopyLoop`. -/
structure LoopyLoop (σ : Type) where
  state : Option σ
  events : ℕ → LoopyFileEvent
  eventsPtr : Option ℕ
  fired : ℕ → LoopyFiredEvent
  fdHeap : LoopyMaxHeap
  before : SleepHook
  after : SleepHook
  timer : Bool
  setSize : ℕ
  maxfd : ℤ
  processingDepth : ℤ
  stop : Bool
  deleting : Bool
  pendingDelete : Bool
  allocated : Bool

/-- A zeroed `loopyMaxHeap`. -/
def zeroHeap : LoopyMaxHeap :=
  { data := fun _ => 0, dataLen := 0, posMap := fun _ => ⟨0, 0⟩, size := 0, capacity := 0,
    posMapSize := 0 }

/-- `(loopyLoop){0}`. -/
def LoopyLoop.zero {σ : Type} : LoopyLoop σ :=
  { state := none
    events := fun _ => .zero
    eventsPtr := none
    fired := fun _ => .zero
    fdHeap := zeroHeap
    before := ⟨0, 0⟩
    after := ⟨0, 0⟩
    timer := false
    setSize := 0
    maxfd := 0
    processingDepth := 0
    stop := false
    deleting := false
    pendingDelete := false
    allocated := false }

/-- What each adapter defines for `loopy.c`. -/
structure Adapter (σ ε : Type) where
  /-- `loopyInternalNew`, when it succeeds. -/
  new : ℕ → σ
  /-- `loopyInternalResize`. -/
  resize : σ → ℕ → σ
  /-- `loopyInternalAddEvent`, reading the registration table. -/
  addEvent : ε → (ℕ → LoopyFileEvent) → σ → ℕ → LoopyAction → Bool × σ
  /-- `loopyInternalDelEvent`, reading the registration table. -/
  delEvent : ε → (ℕ → LoopyFileEvent) → σ → ℕ → LoopyAction → σ

/-- The surroundings of one call: the address `zrealloc` would return for the table, and
the answers of the system calls. -/
structure Env (ε : Type) where
  addr : ℕ
  sys : ε
deriving DecidableEq, Repr

/-! ## Storage -/

section

variable {σ ε : Type} (A : Adapter σ ε)

/-- Two's complement wrap of a 32-bit `int`. -/
def wrapInt (x : ℤ) : ℤ := (x + 2 ^ 31) % 2 ^ 32 - 2 ^ 31

/-- `fdStorageResize`. The assertion `setSize > l->setSize` ends the program. -/
def fdStorageResize (l : LoopyLoop σ) (setSize : ℤ) (addr : ℕ) : Option (Bool × LoopyLoop σ) :=
  if setSize = l.setSize then some (false, l)
  else if ¬ setSize > l.setSize then none
  else if l.maxfd ≥ setSize then some (false, l)
  else
    let n := setSize.toNat
    some (true,
      { l with
        events := fun i => if l.setSize ≤ i ∧ i < n then .zero else l.events i
        eventsPtr := some addr
        fired := fun i => if l.setSize ≤ i ∧ i < n then .zero else l.fired i
        setSize := n
        state := l.state.map fun s => A.resize s n })

/-- The loop `while (newSize <= fd) newSize *= 2`. A 32-bit `int` is 0 after at most 32
doublings and then stays 0, so a loop still running after 64 iterations never ends. -/
def conformLoop : ℕ → ℤ → ℤ → Option ℤ
  | 0, _, _ => none
  | fuel + 1, newSize, fd =>
    if newSize ≤ fd then conformLoop fuel (wrapInt (newSize * 2)) fd else some newSize

/-- `fdConformStorageBounds`. -/
def fdConformStorageBounds (l : LoopyLoop σ) (fd : ℤ) (addr : ℕ) : Option (LoopyLoop σ) :=
  if fd < l.setSize then some l
  else do
    let newSize ← conformLoop 64 l.setSize fd
    let (_, l) ← fdStorageResize A l newSize addr
    return l

/-- The index behind `l->events[fd]`; an access out of bounds ends the program. -/
def tableIndex (l : LoopyLoop σ) (fd : ℤ) : Option ℕ :=
  if 0 ≤ fd ∧ fd < l.setSize then some fd.toNat else none

/-- `loopyInit`, with the adapter's `loopyInternalNew` succeeding. -/
def loopyInit (l : LoopyLoop σ) (setSize : ℤ) (addr : ℕ) : Option (Bool × LoopyLoop σ) := do
  let (ok, l) ← fdStorageResize A l setSize addr
  if ok then
    return (true,
      { l with
        maxfd := -1
        fdHeap := loopyMaxHeapInit setSize.toNat
        state := some (A.new l.setSize) })
  else return (false, l)

/-- `loopyResizeSetSize`; the argument is converted to an `int`. -/
def loopyResizeSetSize (l : LoopyLoop σ) (setSize : ℤ) (addr : ℕ) :
    Option (Bool × LoopyLoop σ) := do
  let (_, l) ← fdStorageResize A l (wrapInt setSize) addr
  return (true, l)

/-! ## Registration -/

/-- `l->maxfd` as both registration paths recompute it from the heap. -/
def heapMaxfd (h : LoopyMaxHeap) : ℤ :=
  let heapMax := loopyMaxHeapPeek h
  if heapMax ≠ heapEmptyValue then heapMax else -1

/-- The record `_loopyNewFileEvent` leaves in the table. -/
def LoopyFileEvent.register (fe : LoopyFileEvent) (mask : LoopyAction) (cb clientData : ℕ) :
    LoopyFileEvent :=
  { readCallback := if mask.read then cb else fe.readCallback
    writeCallback := if mask.write then cb else fe.writeCallback
    clientData := clientData
    mask := fe.mask.union mask }

/-- `_loopyNewFileEvent`. -/
def loopyNewFileEvent (env : Env ε) (l : LoopyLoop σ) (fd : ℤ) (mask : LoopyAction)
    (cb clientData : ℕ) : Option (Bool × LoopyLoop σ) := do
  let l ← fdConformStorageBounds A l fd env.addr
  let i ← tableIndex l fd
  let s ← l.state
  let fe := l.events i
  let wasEmpty := fe.mask = .NONE
  let (ok, s) := A.addEvent env.sys l.events s i mask
  let l := { l with state := some s }
  if !ok then return (false, l)
  else
    let fdHeap := if wasEmpty then loopyMaxHeapInsert l.fdHeap i else l.fdHeap
    return (true,
      { l with
        events := Function.update l.events i (fe.register mask cb clientData)
        fdHeap := fdHeap
        maxfd := heapMaxfd fdHeap })

/-- `loopyRegisterRead`. -/
def loopyRegisterRead (env : Env ε) (l : LoopyLoop σ) (fd : ℤ) (cb clientData : ℕ) :
    Option (Bool × LoopyLoop σ) :=
  loopyNewFileEvent A env l fd .READ cb clientData

/-- `loopyRegisterWrite`. -/
def loopyRegisterWrite (env : Env ε) (l : LoopyLoop σ) (fd : ℤ) (cb clientData : ℕ) :
    Option (Bool × LoopyLoop σ) :=
  loopyNewFileEvent A env l fd .WRITE cb clientData

/-- `loopyRegisterWriteIfNoneExists`. -/
def loopyRegisterWriteIfNoneExists (env : Env ε) (l : LoopyLoop σ) (fd : ℤ) (cb clientData : ℕ) :
    Option (Bool × LoopyLoop σ) := do
  let l ← fdConformStorageBounds A l fd env.addr
  let i ← tableIndex l fd
  if (l.events i).mask.write then return (false, l)
  else loopyRegisterWrite A env l fd cb clientData

/-- `_loopyDeleteFileEvent`. -/
def loopyDeleteFileEvent (env : Env ε) (l : LoopyLoop σ) (fd : ℤ) (mask : LoopyAction) :
    Option (LoopyLoop σ) :=
  if ¬ fd < l.setSize then some l
  else do
    let i ← tableIndex l fd
    let fe := l.events i
    if fe.mask = .NONE then return l
    else
      let s ← l.state
      let s := A.delEvent env.sys l.events s i mask
      let fe := { fe with mask := fe.mask.diff mask }
      let l := { l with state := some s, events := Function.update l.events i fe }
      if fe.mask = .NONE then
        let fdHeap := (loopyMaxHeapRemove l.fdHeap i).2
        return { l with fdHeap := fdHeap, maxfd := heapMaxfd fdHeap }
      else return l

/-- `loopyUnregisterRead`. -/
def loopyUnregisterRead (env : Env ε) (l : LoopyLoop σ) (fd : ℤ) : Option (LoopyLoop σ) :=
  loopyDeleteFileEvent A env l fd .READ

/-- `loopyUnregisterWrite`. -/
def loopyUnregisterWrite (env : Env ε) (l : LoopyLoop σ) (fd : ℤ) : Option (LoopyLoop σ) :=
  loopyDeleteFileEvent A env l fd .WRITE

/-- `loopyUnregisterReadWrite`. -/
def loopyUnregisterReadWrite (env : Env ε) (l : LoopyLoop σ) (fd : ℤ) : Option (LoopyLoop σ) :=
  loopyDeleteFileEvent A env l fd .ALL

/-! ## Calls -/

/-- The table operations of the public interface. -/
inductive TableCall
  | registerRead (fd : ℤ) (cb clientData : ℕ)
  | registerWrite (fd : ℤ) (cb clientData : ℕ)
  | registerWriteIfNoneExists (fd : ℤ) (cb clientData : ℕ)
  | unregisterRead (fd : ℤ)
  | unregisterWrite (fd : ℤ)
  | unregisterReadWrite (fd : ℤ)
  | resizeSetSize (setSize : ℤ)
deriving DecidableEq, Repr

/-- Perform a table operation; a `void` function counts as returning `true`. -/
def TableCall.perform (env : Env ε) (l : LoopyLoop σ) : TableCall → Option (Bool × LoopyLoop σ)
  | .registerRead fd cb clientData => loopyRegisterRead A env l fd cb clientData
  | .registerWrite fd cb clientData => loopyRegisterWrite A env l fd cb clientData
  | .registerWriteIfNoneExists fd cb clientData =>
    loopyRegisterWriteIfNoneExists A env l fd cb clientData
  | .unregisterRead fd => (loopyUnregisterRead A env l fd).map fun l => (true, l)
  | .unregisterWrite fd => (loopyUnregisterWrite A env l fd).map fun l => (true, l)
  | .unregisterReadWrite fd => (loopyUnregisterReadWrite A env l fd).map fun l => (true, l)
  | .resizeSetSize setSize => loopyResizeSetSize A l setSize env.addr

end

end Loopy.EventLoop
