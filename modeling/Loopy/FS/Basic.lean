import Mathlib.Data.UInt
import Loopy.EventLoop.Basic

/-!
# `loopyFS.c`: the two back ends of a file request

A request is served by a thread of the work queue, with the system call of its type, or by the
ring, with one entry. What the system calls do to the files and to the memory of the program is a
parameter, over an arbitrary type of states; the ring has the effect of the corresponding system
call with the length and the offset of the entry.

* A buffer and a path are addresses, and the memory is a part of the state: the bytes that a read
  stores and a write takes are in the state that the call leaves.
* The work queue takes every request; whether the ring does is an input (an operation id that is
  not 0).

The types of requests that the ring does not serve are left out.
-/

namespace Loopy.FS

open Loopy.EventLoop

/-! ## The system calls -/

/-- What a system call returns: a value, or -1 with `errno`. -/
inductive Outcome
  | ok (value : ℕ)
  | error (errno : ℕ)
deriving DecidableEq, Repr

/-- The system calls over the states of the files and the memory; `atEnd` says that there is
nothing to read at an offset, or at the current position. -/
structure SystemCalls (σ : Type) where
  openat : Int32 → ℕ → Int32 → UInt32 → σ → Outcome × σ
  close : Int32 → σ → Outcome × σ
  read : Int32 → ℕ → UInt64 → σ → Outcome × σ
  pread : Int32 → ℕ → UInt64 → Int64 → σ → Outcome × σ
  write : Int32 → ℕ → UInt64 → σ → Outcome × σ
  pwrite : Int32 → ℕ → UInt64 → Int64 → σ → Outcome × σ
  fsync : Int32 → σ → Outcome × σ
  fdatasync : Int32 → σ → Outcome × σ
  atEnd : Int32 → Option Int64 → σ → Prop

/-- `AT_FDCWD`. -/
def AT_FDCWD : Int32 := -100

/-- `EPERM`. -/
def EPERM : ℕ := 1

/-- `EINVAL`. -/
def EINVAL : ℕ := 22

/-- `ECANCELED`. -/
def ECANCELED : ℕ := 125

/-! ## Requests -/

/-- `loopyFSType`, as far as the ring serves it. -/
inductive LoopyFSType
  | OPEN
  | CLOSE
  | READ
  | WRITE
  | FSYNC
  | FDATASYNC
deriving DecidableEq, Repr

/-- `loopyFSRequest`; `errorString` is the field and the number whose text it gives. -/
structure LoopyFSRequest where
  type : LoopyFSType
  cb : ℕ
  userData : ℕ
  path : ℕ := 0
  fd : Int32 := -1
  flags : Int32 := 0
  mode : Int32 := 0
  buf : ℕ := 0
  len : UInt64 := 0
  offset : Int64 := -1
  result : ℤ := -1
  savedErrno : ℕ := 0
  errorString : Option (String × ℕ) := none
  cancelled : Bool := false
  completed : Bool := false
  usingIoUring : Bool := false
deriving DecidableEq, Repr

/-- `fsRequestNew`. -/
def fsRequestNew (type : LoopyFSType) (cb userData : ℕ) : LoopyFSRequest :=
  { type := type, cb := cb, userData := userData }

/-- `loopyFSOpen`, up to `fsRunAsync`. -/
def loopyFSOpen (path : ℕ) (flags mode : Int32) (cb userData : ℕ) : Option LoopyFSRequest :=
  if path = 0 then none
  else some { fsRequestNew .OPEN cb userData with path := path, flags := flags, mode := mode }

/-- `loopyFSClose`, `loopyFSFsync` and `loopyFSFdatasync`, up to `fsRunAsync`. -/
def fdRequest (type : LoopyFSType) (fd : Int32) (cb userData : ℕ) : Option LoopyFSRequest :=
  if fd < 0 then none else some { fsRequestNew type cb userData with fd := fd }

/-- `loopyFSClose`. -/
def loopyFSClose (fd : Int32) (cb userData : ℕ) : Option LoopyFSRequest :=
  fdRequest .CLOSE fd cb userData

/-- `loopyFSFsync`. -/
def loopyFSFsync (fd : Int32) (cb userData : ℕ) : Option LoopyFSRequest :=
  fdRequest .FSYNC fd cb userData

/-- `loopyFSFdatasync`. -/
def loopyFSFdatasync (fd : Int32) (cb userData : ℕ) : Option LoopyFSRequest :=
  fdRequest .FDATASYNC fd cb userData

/-- `loopyFSRead` and `loopyFSWrite`, up to `fsRunAsync`. -/
def transferRequest (type : LoopyFSType) (fd : Int32) (buf : ℕ) (len : UInt64) (offset : Int64)
    (cb userData : ℕ) : Option LoopyFSRequest :=
  if fd < 0 ∨ buf = 0 ∨ len = 0 then none
  else
    some { fsRequestNew type cb userData with fd := fd, buf := buf, len := len, offset := offset }

/-- `loopyFSRead`. -/
def loopyFSRead (fd : Int32) (buf : ℕ) (len : UInt64) (offset : Int64) (cb userData : ℕ) :
    Option LoopyFSRequest :=
  transferRequest .READ fd buf len offset cb userData

/-- `loopyFSWrite`. -/
def loopyFSWrite (fd : Int32) (buf : ℕ) (len : UInt64) (offset : Int64) (cb userData : ℕ) :
    Option LoopyFSRequest :=
  transferRequest .WRITE fd buf len offset cb userData

/-- A call that makes a request. -/
inductive Call
  | open (path : ℕ) (flags mode : Int32)
  | close (fd : Int32)
  | read (fd : Int32) (buf : ℕ) (len : UInt64) (offset : Int64)
  | write (fd : Int32) (buf : ℕ) (len : UInt64) (offset : Int64)
  | fsync (fd : Int32)
  | fdatasync (fd : Int32)
deriving DecidableEq, Repr

/-- The request of a call. -/
def Call.request (cb userData : ℕ) : Call → Option LoopyFSRequest
  | .open path flags mode => loopyFSOpen path flags mode cb userData
  | .close fd => loopyFSClose fd cb userData
  | .read fd buf len offset => loopyFSRead fd buf len offset cb userData
  | .write fd buf len offset => loopyFSWrite fd buf len offset cb userData
  | .fsync fd => loopyFSFsync fd cb userData
  | .fdatasync fd => loopyFSFdatasync fd cb userData

/-- What the callback gets, the number that is saved for it, and the state it finds. -/
structure Served (σ : Type) where
  cb : ℕ
  result : ℤ
  savedErrno : ℕ
  userData : ℕ
  state : σ
deriving DecidableEq, Repr

/-- `req->cb(loop, req, req->result, req->userData)`. -/
def LoopyFSRequest.call {σ : Type} (req : LoopyFSRequest) (state : σ) : Served σ :=
  ⟨req.cb, req.result, req.savedErrno, req.userData, state⟩

variable {σ : Type} (K : SystemCalls σ)

/-! ## The work queue -/

/-- The system call of a request, as `fsWorkCallback` makes it. -/
def systemCall (req : LoopyFSRequest) : σ → Outcome × σ :=
  match req.type with
  | .OPEN => K.openat AT_FDCWD req.path req.flags req.mode.toUInt32
  | .CLOSE => K.close req.fd
  | .READ =>
    if req.offset ≥ 0 then K.pread req.fd req.buf req.len req.offset
    else K.read req.fd req.buf req.len
  | .WRITE =>
    if req.offset ≥ 0 then K.pwrite req.fd req.buf req.len req.offset
    else K.write req.fd req.buf req.len
  | .FSYNC => K.fsync req.fd
  | .FDATASYNC => K.fdatasync req.fd

/-- The field that `fsSetError` gets. -/
def LoopyFSType.field : LoopyFSType → String
  | OPEN => "open"
  | CLOSE => "close"
  | READ => "read"
  | WRITE => "write"
  | FSYNC => "fsync"
  | FDATASYNC => "fdatasync"

/-- `fsWorkCallback`. -/
def fsWorkCallback (req : LoopyFSRequest) (state : σ) : LoopyFSRequest × σ :=
  if req.cancelled then ({ req with savedErrno := ECANCELED, result := -1 }, state)
  else
    match systemCall K req state with
    | (.ok value, state) => ({ req with result := value }, state)
    | (.error errno, state) =>
      ({ req with
          result := -1
          savedErrno := errno
          errorString := some (req.type.field, errno) }, state)

/-- `fsAfterWorkCallback`, up to the callback. -/
def fsAfterWorkCallback (cancelled : Bool) (req : LoopyFSRequest) : LoopyFSRequest :=
  let req := { req with completed := true }
  if cancelled then { req with result := -1, savedErrno := ECANCELED } else req

/-! ## The ring -/

/-- The opcodes of the entries. -/
inductive Opcode
  | READ
  | WRITE
  | OPENAT
  | CLOSE
  | FSYNC
deriving DecidableEq, Repr

/-- `struct io_uring_sqe`; `opFlags` is the union of `open_flags` and `fsync_flags`. -/
structure Sqe where
  opcode : Opcode
  fd : Int32
  addr : ℕ := 0
  len : UInt32 := 0
  off : UInt64 := 0
  opFlags : UInt32 := 0
  userData : ℕ
deriving DecidableEq, Repr

/-- `IORING_FSYNC_DATASYNC`. -/
def IORING_FSYNC_DATASYNC : UInt32 := 1

/-- The entry of `ioUringSubmitRead` and `ioUringSubmitWrite`. -/
def transferSqe (opcode : Opcode) (fd : Int32) (buf : ℕ) (len : UInt64) (offset : Int64)
    (id : ℕ) : Sqe :=
  { opcode := opcode, fd := fd, addr := buf, len := len.toUInt32, off := offset.toUInt64,
    userData := id }

/-- The entry of `ioUringSubmitOpenat`. -/
def openatSqe (dirfd : Int32) (path : ℕ) (flags : Int32) (mode : UInt32) (id : ℕ) : Sqe :=
  { opcode := .OPENAT, fd := dirfd, addr := path, len := mode, opFlags := flags.toUInt32,
    userData := id }

/-- The entry of `ioUringSubmitClose`. -/
def closeSqe (fd : Int32) (id : ℕ) : Sqe := { opcode := .CLOSE, fd := fd, userData := id }

/-- The entry of `ioUringSubmitFsync`. -/
def fsyncSqe (fd : Int32) (datasync : Bool) (id : ℕ) : Sqe :=
  { opcode := .FSYNC, fd := fd, opFlags := if datasync then IORING_FSYNC_DATASYNC else 0,
    userData := id }

/-- The entry that `fsRunAsync` has submitted for a request. -/
def LoopyFSRequest.sqe (req : LoopyFSRequest) (id : ℕ) : Sqe :=
  match req.type with
  | .READ => transferSqe .READ req.fd req.buf req.len req.offset id
  | .WRITE => transferSqe .WRITE req.fd req.buf req.len req.offset id
  | .OPEN => openatSqe AT_FDCWD req.path req.flags req.mode.toUInt32 id
  | .CLOSE => closeSqe req.fd id
  | .FSYNC => fsyncSqe req.fd false id
  | .FDATASYNC => fsyncSqe req.fd true id

/-- The transfer at the offset of an entry: 2^64 - 1 is the current position, and what is negative
otherwise is an error. -/
def transfer (current : UInt64 → σ → Outcome × σ) (positioned : UInt64 → Int64 → σ → Outcome × σ)
    (len : UInt32) (off : UInt64) (state : σ) : Outcome × σ :=
  if off = 0xFFFFFFFFFFFFFFFF then current len.toUInt64 state
  else if off ≥ 0x8000000000000000 then (.error EINVAL, state)
  else positioned len.toUInt64 off.toInt64 state

/-- The kernel serves an entry. -/
def execute (sqe : Sqe) : σ → Outcome × σ :=
  match sqe.opcode with
  | .READ => transfer (K.read sqe.fd sqe.addr) (K.pread sqe.fd sqe.addr) sqe.len sqe.off
  | .WRITE => transfer (K.write sqe.fd sqe.addr) (K.pwrite sqe.fd sqe.addr) sqe.len sqe.off
  | .OPENAT => K.openat sqe.fd sqe.addr sqe.opFlags.toInt32 sqe.len
  | .CLOSE => K.close sqe.fd
  | .FSYNC =>
    if sqe.opFlags = IORING_FSYNC_DATASYNC then K.fdatasync sqe.fd else K.fsync sqe.fd

/-- `cqe->res`, on 32 bits. -/
def Outcome.res : Outcome → ℤ
  | ok value => wrapInt value
  | error errno => -errno

/-- `fsIoUringCompletionCallback`, up to the callback. -/
def fsIoUringCompletionCallback (req : LoopyFSRequest) (result : ℤ) : LoopyFSRequest :=
  let req := { req with completed := true, result := result }
  if result < 0 then { req with savedErrno := (-result).toNat } else req

/-! ## `fsRunAsync` -/

/-- A request in a thread of the work queue. -/
def runWork (req : LoopyFSRequest) (state : σ) : Served σ :=
  let (req, state) := fsWorkCallback K req state
  (fsAfterWorkCallback false req).call state

/-- A request in the ring. -/
def runIoUring (req : LoopyFSRequest) (id : ℕ) (state : σ) : Served σ :=
  let (outcome, state) := execute K (req.sqe id) state
  (fsIoUringCompletionCallback req outcome.res).call state

/-- `fsRunAsync`: `opId` is what the submission to the ring returns, if the loop uses one. -/
def fsRunAsync (loopyUsingIoUring : Bool) (opId : ℕ) (req : LoopyFSRequest) (state : σ) :
    Served σ :=
  if loopyUsingIoUring ∧ opId ≠ 0 then runIoUring K { req with usingIoUring := true } opId state
  else runWork K { req with usingIoUring := false } state

end Loopy.FS
