import Loopy.Epoll.Adapter
import Loopy.Lib.Ring

/-!
# `loopyAdapterIouring.c`: rings, operation tracking and poll registrations

The io_uring backend. The submission ring is a `Ring` of `io_uring_sqe`s shared with the
kernel; the kernel's side is `Kernel`: the polls it has armed and every `io_uring_cqe` it
has posted, so that a position in the completion queue is an index into that list, the
published head `cqHead` is the number of entries handed back and the tail is the length.

* `io_uring_enter` consumes the oldest queued entries when it succeeds and none when it
  fails; whether it succeeds is an input.
* The array `ops` lives at an address in memory, and `zrealloc` moves it: a pointer to a slot
  is an address with an index, and one into the old array does not refer to the new one.
* `tag`s, `origin`s, `consumed` and `reports` record which call an entry came from, what a
  completion stands for, what the kernel took and what the calls returned; no code reads
  them.

Operations beyond those below (`ioUringSubmitReadv` and so on) go through the same sequence
of slot, submission and `io_uring_enter` and are left out.
-/

namespace Loopy.IoUring

open Loopy.EventLoop Loopy.Lib Loopy.Epoll

/-! ## Entries -/

/-- The opcodes of the modelled operations. -/
inductive Opcode
  | NOP
  | READ
  | WRITE
  | ACCEPT
  | RECV
  | POLL_ADD
  | POLL_REMOVE
  | PROVIDE_BUFFERS
  | REMOVE_BUFFERS
  | OPENAT
  | CLOSE
  | FSYNC
  | LINK_TIMEOUT
deriving DecidableEq, Repr

/-- `struct io_uring_sqe`; `opFlags` is the union of `poll_events`, `msg_flags`, ... -/
structure Sqe where
  opcode : Opcode := .NOP
  flags : ℕ := 0
  ioprio : ℕ := 0
  fd : ℤ := 0
  off : ℕ := 0
  addr : ℕ := 0
  len : ℕ := 0
  opFlags : BitVec 32 := 0
  userData : ℕ := 0
  bufGroup : ℕ := 0
  tag : ℕ := 0
deriving DecidableEq, Repr

/-- `IORING_ACCEPT_MULTISHOT`. -/
def IORING_ACCEPT_MULTISHOT : ℕ := 1

/-- `IOSQE_BUFFER_SELECT`. -/
def IOSQE_BUFFER_SELECT : ℕ := 64

/-- `IORING_CQE_F_BUFFER`. -/
def IORING_CQE_F_BUFFER : BitVec 32 := 0x1#32

/-- `IORING_CQE_F_MORE`. -/
def IORING_CQE_F_MORE : BitVec 32 := 0x2#32

/-- `ECANCELED`. -/
def ECANCELED : ℤ := 125

/-- `ENOENT`. -/
def ENOENT : ℤ := 2

/-- Bit 63, which marks the user data of a file operation. -/
def fileBit : ℕ := 2 ^ 63

/-- `id | (1ULL << 63)`. -/
def markFile (id : ℕ) : ℕ := if id < fileBit then id + fileBit else id

/-- `(user_data & (1ULL << 63)) != 0`, on 64 bits. -/
def isFileOp (userData : ℕ) : Bool := fileBit ≤ userData

/-- `user_data & ~(1ULL << 63)`. -/
def fileOpId (userData : ℕ) : ℕ := userData % fileBit

/-- What a completion stands for: a poll of that interest that became ready or was canceled
or failed, the removal of a poll, or an operation. -/
inductive Origin
  | ready (interest : BitVec 32)
  | canceled
  | failed
  | removal
  | operation
deriving DecidableEq, Repr

/-- `struct io_uring_cqe`. -/
structure Cqe where
  userData : ℕ
  res : ℤ
  flags : BitVec 32
  origin : Origin
deriving DecidableEq, Repr

/-! ## The kernel -/

/-- A one-shot poll the kernel has armed. -/
structure ArmedPoll where
  userData : ℕ
  events : BitVec 32
deriving DecidableEq, Repr

/-- The kernel's side of the ring. -/
structure Kernel where
  polls : List ArmedPoll
  cq : List Cqe
  consumed : List ℕ

/-- Post a completion. -/
def Kernel.post (k : Kernel) (cqe : Cqe) : Kernel := { k with cq := k.cq ++ [cqe] }

/-- What the kernel does with a consumed entry. Operations are in flight from here on; their
completions arrive by themselves. -/
def Kernel.execute (k : Kernel) (sqe : Sqe) : Kernel :=
  let k := { k with consumed := k.consumed ++ [sqe.tag] }
  match sqe.opcode with
  | .POLL_ADD => { k with polls := k.polls ++ [⟨sqe.userData, sqe.opFlags⟩] }
  | .POLL_REMOVE =>
    match k.polls.find? (·.userData = sqe.addr) with
    | some p =>
      { k with polls := k.polls.erase p }.post ⟨sqe.addr, -ECANCELED, 0, .canceled⟩
        |>.post ⟨sqe.userData, 0, 0, .removal⟩
    | none => k.post ⟨sqe.userData, -ENOENT, 0, .removal⟩
  | _ => k

/-! ## Operation slots -/

/-- `loopyIoUringFileOp`. -/
structure FileOp where
  id : ℕ
  cb : ℕ
  userData : ℕ
  active : Bool
  multishot : Bool
  bufferCb : ℕ
  bufferGroup : ℕ
deriving DecidableEq, Repr

/-- A zeroed slot. -/
def FileOp.zero : FileOp := ⟨0, 0, 0, false, false, 0, 0⟩

/-- A pointer to a slot. -/
structure SlotPtr where
  addr : ℕ
  idx : ℕ
deriving DecidableEq, Repr

/-- `loopyIoUringFileState`, with the memory its arrays live in. -/
structure FileState where
  mem : ℕ → ℕ → FileOp
  ops : ℕ
  opsSize : ℕ
  nextId : ℕ

namespace FileState

/-- `u->fileState.ops[i]`. -/
def op (fs : FileState) (i : ℕ) : FileOp := fs.mem fs.ops i

/-- Write through a pointer. -/
def store (fs : FileState) (p : SlotPtr) (op : FileOp) : FileState :=
  { fs with mem := Function.update fs.mem p.addr (Function.update (fs.mem p.addr) p.idx op) }

/-- The first slot that is not active. -/
def freeSlot (fs : FileState) : Option ℕ := (List.range fs.opsSize).find? fun i => !(fs.op i).active

/-- `zrealloc` of the array to `newSize` slots at `addr`, with the new slots initialised. -/
def realloc (fs : FileState) (newSize addr : ℕ) : FileState :=
  let slots i := if i < fs.opsSize then fs.op i else .zero
  { fs with mem := Function.update fs.mem addr slots, ops := addr, opsSize := newSize }

/-- Fill a slot for a new operation; `op.id` is set here, and `nextId` counts on in 64 bits. -/
def place (fs : FileState) (i : ℕ) (op : FileOp) : ℕ × FileState :=
  let id := fs.nextId
  (markFile id,
    { fs.store ⟨fs.ops, i⟩ { op with id := id, active := true } with
      nextId := (fs.nextId + 1) % 2 ^ 64 })

end FileState

/-- `ioUringFileOpAllocate`; `addr` is what `zrealloc` would return (0: NULL). -/
def ioUringFileOpAllocate (fs : FileState) (cb userData addr : ℕ) : ℕ × FileState :=
  let op : FileOp := ⟨0, cb, userData, true, false, 0, 0⟩
  if cb = 0 then (0, fs)
  else
    match fs.freeSlot with
    | some i => fs.place i op
    | none =>
      if addr = 0 then (0, fs)
      else
        let newSize := fs.opsSize * 2
        (fs.realloc newSize addr).place (newSize / 2) op

/-- `ioUringBufferOpAllocate`. -/
def ioUringBufferOpAllocate (fs : FileState) (bufferCb userData groupId addr : ℕ) :
    ℕ × FileState :=
  let op : FileOp := ⟨0, 0, userData, true, false, bufferCb, groupId⟩
  match fs.freeSlot with
  | some i => fs.place i op
  | none =>
    if addr = 0 then (0, fs)
    else
      let newSize := if fs.opsSize ≠ 0 then fs.opsSize * 2 else 16
      (fs.realloc newSize addr).place fs.opsSize op

/-- `ioUringFileOpFind`. -/
def ioUringFileOpFind (fs : FileState) (id : ℕ) : Option SlotPtr :=
  ((List.range fs.opsSize).find? fun i =>
    (fs.op i).active && (fs.op i).id == fileOpId id).map fun i => ⟨fs.ops, i⟩

/-- Read through a pointer. -/
def FileState.load (fs : FileState) (p : SlotPtr) : FileOp := fs.mem p.addr p.idx

/-- `op->active = false`. -/
def FileState.deactivate (fs : FileState) (p : SlotPtr) : FileState :=
  fs.store p { fs.load p with active := false }

/-- `op->multishot = true`. -/
def FileState.setMultishot (fs : FileState) (p : SlotPtr) : FileState :=
  fs.store p { fs.load p with multishot := true }

/-! ## The backend's state -/

/-- `loopyIoUringBufferPool`. -/
structure BufferPool where
  buffers : ℕ
  bufferSize : ℕ
  bufferCount : ℕ
  groupId : ℕ
deriving DecidableEq, Repr

/-- What a submit function returned: the entry it published, the operation's slot id (0: a
poll has none) and whether it reported success. -/
structure Report where
  tag : ℕ
  id : ℕ
  ok : Bool
deriving DecidableEq, Repr

/-- `loopyInternalState` with the io_uring backend. -/
structure IoUringState where
  sq : Lib.Ring Sqe
  kernel : Kernel
  cqHead : ℕ
  fileState : FileState
  pollMasks : ℕ → BitVec 32
  pollMasksSize : ℕ
  bufferPoolGroups : ℕ → Option BufferPool
  nextTag : ℕ
  reports : List Report

/-- `u->maxBufferGroups`. -/
def maxBufferGroups : ℕ := 256

/-- `ioUringInit`, with a submission ring of `2 ^ bits` entries and the operation slots at
`addr`. -/
def ioUringInit (bits addr setSize : ℕ) : IoUringState where
  sq := { bits := bits, head := 0, tail := 0, array := fun _ => 0, slots := fun _ => {} }
  kernel := { polls := [], cq := [], consumed := [] }
  cqHead := 0
  fileState := { mem := fun _ _ => .zero, ops := addr, opsSize := 256, nextId := 1 }
  pollMasks := fun _ => 0
  pollMasksSize := setSize
  bufferPoolGroups := fun _ => none
  nextTag := 0
  reports := []

/-! ## Submission -/

namespace IoUringState

/-- `ioUringGetSqe`: the zeroed entry behind the tail, or NULL when the ring is full. -/
def ioUringGetSqe (u : IoUringState) : Option IoUringState :=
  if u.sq.full then none else some { u with sq := u.sq.write {} }

/-- The fields a submit function writes to its entry. -/
def fill (u : IoUringState) (sqe : Sqe) : IoUringState :=
  { u with sq := u.sq.write { sqe with tag := u.nextTag }, nextTag := u.nextTag + 1 }

/-- `ioUringSubmitSqe`. -/
def ioUringSubmitSqe (u : IoUringState) : IoUringState := { u with sq := u.sq.publish }

/-- `io_uring_enter(u->ringFd, n, ...)`. -/
def ioUringEnter (u : IoUringState) (n : ℕ) (ok : Bool) : IoUringState :=
  if ok then
    { u with sq := u.sq.advance n, kernel := (u.sq.queued.take n).foldl .execute u.kernel }
  else u

/-- Fill the entry, publish it and submit one entry, as every submit function does. -/
def submit (u : IoUringState) (sqe : Sqe) (ok : Bool) : IoUringState :=
  ((u.fill sqe).ioUringSubmitSqe).ioUringEnter 1 ok

/-- Record what a submit function returns for the entry it has just published. -/
def report (u : IoUringState) (id : ℕ) (ok : Bool) : IoUringState :=
  { u with reports := ⟨u.nextTag - 1, id, ok⟩ :: u.reports }

/-- `ioUringAddPoll`. -/
def ioUringAddPoll (u : IoUringState) (fd : ℕ) (events : BitVec 32) (ok : Bool) :
    Bool × IoUringState :=
  match u.ioUringGetSqe with
  | none => (false, u)
  | some u =>
    let sqe : Sqe := { opcode := .POLL_ADD, fd := fd, opFlags := events, userData := fd }
    (ok, (u.submit sqe ok).report 0 ok)

/-- `ioUringRemovePoll`. -/
def ioUringRemovePoll (u : IoUringState) (fd : ℕ) (ok : Bool) : IoUringState :=
  match u.ioUringGetSqe with
  | none => u
  | some u => u.submit { opcode := .POLL_REMOVE, fd := -1, addr := fd, userData := 0 } ok

/-- The body the submit functions of operations share: `valid` are the checks on the
arguments, `alloc` takes the slot and `sqe` gives the entry for the slot's id. -/
def submitOp (u : IoUringState) (valid : Bool) (alloc : FileState → ℕ × FileState)
    (multishot : Bool) (sqe : ℕ → Sqe) (ok : Bool) : ℕ × IoUringState :=
  match u.ioUringGetSqe with
  | none => (0, u)
  | some u =>
    if !valid then (0, u)
    else
      let (id, fs) := alloc u.fileState
      if id = 0 then (0, { u with fileState := fs })
      else
        let fs := if multishot then ((ioUringFileOpFind fs id).map fs.setMultishot).getD fs else fs
        let u := { u with fileState := fs }.submit (sqe id) ok
        if ok then (id, u.report (fileOpId id) true)
        else
          let fs := ((ioUringFileOpFind u.fileState id).map u.fileState.deactivate).getD u.fileState
          (0, { u with fileState := fs }.report (fileOpId id) false)

end IoUringState

/-- An operation to submit. -/
inductive OpRequest
  | read (fd : ℤ) (buf len offset cb userData : ℕ)
  | write (fd : ℤ) (buf len offset cb userData : ℕ)
  | acceptMultishot (sockfd : ℤ) (flags cb userData : ℕ)
  | recvPooled (sockfd : ℤ) (groupId flags cb userData : ℕ)
  | readPooled (fd : ℤ) (groupId offset cb userData : ℕ)
  | provideBuffers (buffers bufSize count groupId bufId cb userData : ℕ)
  | removeBuffers (count groupId cb userData : ℕ)
deriving DecidableEq, Repr

namespace IoUringState

/-- `ioUringSubmitRead`. -/
def ioUringSubmitRead (u : IoUringState) (fd : ℤ) (buf len offset cb userData : ℕ) (addr : ℕ)
    (ok : Bool) : ℕ × IoUringState :=
  u.submitOp (buf ≠ 0) (ioUringFileOpAllocate · cb userData addr) false
    (fun id => { opcode := .READ, fd := fd, addr := buf, len := len % 2 ^ 32,
                 off := offset % 2 ^ 64, userData := id }) ok

/-- `ioUringSubmitWrite`. -/
def ioUringSubmitWrite (u : IoUringState) (fd : ℤ) (buf len offset cb userData : ℕ) (addr : ℕ)
    (ok : Bool) : ℕ × IoUringState :=
  u.submitOp (buf ≠ 0) (ioUringFileOpAllocate · cb userData addr) false
    (fun id => { opcode := .WRITE, fd := fd, addr := buf, len := len % 2 ^ 32,
                 off := offset % 2 ^ 64, userData := id }) ok

/-- `ioUringSubmitAcceptMultishot`. -/
def ioUringSubmitAcceptMultishot (u : IoUringState) (sockfd : ℤ) (flags cb userData : ℕ)
    (addr : ℕ) (ok : Bool) : ℕ × IoUringState :=
  u.submitOp true (ioUringFileOpAllocate · cb userData addr) true
    (fun id => { opcode := .ACCEPT, fd := sockfd, opFlags := BitVec.ofNat 32 flags,
                 ioprio := IORING_ACCEPT_MULTISHOT, userData := id }) ok

/-- The pool of a buffer group, when there is one. -/
def bufferPool (u : IoUringState) (groupId : ℕ) : Option BufferPool :=
  if groupId < maxBufferGroups then u.bufferPoolGroups groupId else none

/-- `ioUringSubmitRecvPooled`. -/
def ioUringSubmitRecvPooled (u : IoUringState) (sockfd : ℤ) (groupId flags cb userData : ℕ)
    (addr : ℕ) (ok : Bool) : ℕ × IoUringState :=
  let pool := u.bufferPool groupId
  u.submitOp pool.isSome (ioUringBufferOpAllocate · cb userData groupId addr) false
    (fun id => { opcode := .RECV, fd := sockfd, len := (pool.map (·.bufferSize)).getD 0,
                 opFlags := BitVec.ofNat 32 flags, flags := IOSQE_BUFFER_SELECT,
                 bufGroup := groupId, userData := id }) ok

/-- `ioUringSubmitReadPooled`. -/
def ioUringSubmitReadPooled (u : IoUringState) (fd : ℤ) (groupId offset cb userData : ℕ)
    (addr : ℕ) (ok : Bool) : ℕ × IoUringState :=
  let pool := u.bufferPool groupId
  u.submitOp pool.isSome (ioUringBufferOpAllocate · cb userData groupId addr) false
    (fun id => { opcode := .READ, fd := fd, len := (pool.map (·.bufferSize)).getD 0,
                 off := offset % 2 ^ 64, flags := IOSQE_BUFFER_SELECT, bufGroup := groupId,
                 userData := id }) ok

/-- `ioUringSubmitProvideBuffers`; it checks its arguments before it takes the entry. -/
def ioUringSubmitProvideBuffers (u : IoUringState)
    (buffers bufSize count groupId bufId cb userData : ℕ) (addr : ℕ) (ok : Bool) :
    ℕ × IoUringState :=
  if buffers = 0 ∨ count = 0 ∨ bufSize = 0 then (0, u)
  else
    u.submitOp true (ioUringFileOpAllocate · cb userData addr) false
      (fun id => { opcode := .PROVIDE_BUFFERS, fd := wrapInt count, addr := buffers,
                   len := bufSize, off := bufId, bufGroup := groupId, userData := id }) ok

/-- `ioUringSubmitRemoveBuffers`. -/
def ioUringSubmitRemoveBuffers (u : IoUringState) (count groupId cb userData : ℕ) (addr : ℕ)
    (ok : Bool) : ℕ × IoUringState :=
  u.submitOp true (ioUringFileOpAllocate · cb userData addr) false
    (fun id => { opcode := .REMOVE_BUFFERS, fd := wrapInt count, bufGroup := groupId,
                 userData := id }) ok

/-- Submit an operation. -/
def submitRequest (u : IoUringState) (addr : ℕ) (ok : Bool) : OpRequest → ℕ × IoUringState
  | .read fd buf len offset cb userData => u.ioUringSubmitRead fd buf len offset cb userData addr ok
  | .write fd buf len offset cb userData =>
    u.ioUringSubmitWrite fd buf len offset cb userData addr ok
  | .acceptMultishot sockfd flags cb userData =>
    u.ioUringSubmitAcceptMultishot sockfd flags cb userData addr ok
  | .recvPooled sockfd groupId flags cb userData =>
    u.ioUringSubmitRecvPooled sockfd groupId flags cb userData addr ok
  | .readPooled fd groupId offset cb userData =>
    u.ioUringSubmitReadPooled fd groupId offset cb userData addr ok
  | .provideBuffers buffers bufSize count groupId bufId cb userData =>
    u.ioUringSubmitProvideBuffers buffers bufSize count groupId bufId cb userData addr ok
  | .removeBuffers count groupId cb userData =>
    u.ioUringSubmitRemoveBuffers count groupId cb userData addr ok

end IoUringState

/-! ## The adapter -/

/-- `IORING_POLL_IN` and `IORING_POLL_OUT` for a mask; they are the epoll bits. -/
def ioUringPollEvents (mask : LoopyAction) : BitVec 32 := epollEvents mask

/-- The outcomes of the up to two `io_uring_enter` calls of one registration call. -/
structure EnterOks where
  remove : Bool
  add : Bool
deriving DecidableEq, Repr

/-- `state->pollMasks[fd] = events`, within the table. -/
def IoUringState.setPollMask (u : IoUringState) (fd : ℕ) (events : BitVec 32) : IoUringState :=
  if fd < u.pollMasksSize then { u with pollMasks := Function.update u.pollMasks fd events } else u

/-- `state->pollMasks[fd]`, or 0 outside the table. -/
def IoUringState.pollMask (u : IoUringState) (fd : ℕ) : BitVec 32 :=
  if fd < u.pollMasksSize then u.pollMasks fd else 0

/-- `loopyInternalResize`. -/
def loopyInternalResize (u : IoUringState) (setSize : ℕ) : IoUringState :=
  if setSize > u.pollMasksSize then
    { u with
      pollMasks := fun i => if u.pollMasksSize ≤ i ∧ i < setSize then 0 else u.pollMasks i
      pollMasksSize := setSize }
  else u

/-- `loopyInternalAddEvent`. -/
def loopyInternalAddEvent (oks : EnterOks) (events : ℕ → LoopyFileEvent) (u : IoUringState)
    (fd : ℕ) (mask : LoopyAction) : Bool × IoUringState :=
  let fullMask := mask.union (events fd).mask
  let pollEvents := ioUringPollEvents fullMask
  let u := if u.pollMask fd ≠ 0 then u.ioUringRemovePoll fd oks.remove else u
  let (added, u) := u.ioUringAddPoll fd pollEvents oks.add
  if !added then (false, u) else (true, u.setPollMask fd pollEvents)

/-- `loopyInternalDelEvent`. -/
def loopyInternalDelEvent (oks : EnterOks) (events : ℕ → LoopyFileEvent) (u : IoUringState)
    (fd : ℕ) (delmask : LoopyAction) : IoUringState :=
  let mask := (events fd).mask.diff delmask
  let u := u.ioUringRemovePoll fd oks.remove
  if mask ≠ .NONE then
    let pollEvents := ioUringPollEvents mask
    (u.ioUringAddPoll fd pollEvents oks.add).2.setPollMask fd pollEvents
  else u.setPollMask fd 0

/-- The io_uring adapter of `loopy.c`, with a submission ring of `2 ^ bits` entries. -/
def ioUringAdapter (bits addr : ℕ) : Adapter IoUringState EnterOks where
  new := ioUringInit bits addr
  resize := loopyInternalResize
  addEvent := loopyInternalAddEvent
  delEvent := loopyInternalDelEvent

end Loopy.IoUring
