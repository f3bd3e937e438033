import Loopy.IoUring.Slots

/-!
# Link chains

`loopyIoUringLinkChainSubmit` takes one entry and one operation slot for each operation of a chain,
publishes the entry at once, and enters the kernel when all are published. It stops at the first
operation for which the ring has no entry or no slot can be had, and leaves what it has published.
-/

namespace Loopy.IoUring

open Loopy.Lib

/-! ## Chains -/

/-- `LinkOpType`, with the parameters of each; `ts` is the address of the timespec. -/
inductive LinkParams
  | read (fd : ℤ) (buf len offset : ℕ)
  | write (fd : ℤ) (buf len offset : ℕ)
  | openat (dirfd : ℤ) (path flags mode : ℕ)
  | close (fd : ℤ)
  | fsync (fd : ℤ) (datasync : Bool)
  | timeout (ts : ℕ) (count : ℤ)
deriving DecidableEq, Repr

/-- `LinkOp`. -/
structure LinkOp where
  cb : ℕ
  userData : ℕ
  params : LinkParams
deriving DecidableEq, Repr

/-- `loopyIoUringLinkMode`. -/
inductive LinkMode
  | soft
  | hard
deriving DecidableEq, Repr

/-- `loopyIoUringLinkChain`; `count` is the length of `ops`. -/
structure LinkChain where
  mode : LinkMode
  ops : List LinkOp
deriving DecidableEq, Repr

/-- `IOSQE_IO_LINK`. -/
def IOSQE_IO_LINK : ℕ := 4

/-- `IOSQE_IO_HARDLINK`. -/
def IOSQE_IO_HARDLINK : ℕ := 8

/-- `IORING_FSYNC_DATASYNC`. -/
def IORING_FSYNC_DATASYNC : BitVec 32 := 1

/-- The link flag of a mode. -/
def LinkMode.linkFlag : LinkMode → ℕ
  | .soft => IOSQE_IO_LINK
  | .hard => IOSQE_IO_HARDLINK

/-- The entry of an operation. -/
def LinkOp.sqe (op : LinkOp) (opId flags : ℕ) : Sqe :=
  let sqe : Sqe := { userData := opId, flags := flags }
  match op.params with
  | .read fd buf len offset =>
    { sqe with
      opcode := .READ, fd := fd, addr := buf, len := len % 2 ^ 32, off := offset % 2 ^ 64 }
  | .write fd buf len offset =>
    { sqe with
      opcode := .WRITE, fd := fd, addr := buf, len := len % 2 ^ 32, off := offset % 2 ^ 64 }
  | .openat dirfd path flags mode =>
    { sqe with
      opcode := .OPENAT, fd := dirfd, addr := path, len := mode % 2 ^ 32,
      opFlags := BitVec.ofNat 32 flags }
  | .close fd => { sqe with opcode := .CLOSE, fd := fd }
  | .fsync fd datasync =>
    { sqe with
      opcode := .FSYNC, fd := fd, opFlags := if datasync then IORING_FSYNC_DATASYNC else 0 }
  | .timeout ts count =>
    { sqe with opcode := .LINK_TIMEOUT, addr := ts, len := (count % 2 ^ 32).toNat }

/-! ## Submission -/

/-- Which statement a submission returned from: the chain was empty, the ring was full, an operation
could not be tracked, or the kernel was entered, with that outcome. -/
inductive LinkExit
  | empty
  | full
  | untracked
  | entered (ok : Bool)
deriving DecidableEq, Repr

/-- What it returned. -/
def LinkExit.result : LinkExit → Bool
  | .empty | .full | .untracked => false
  | .entered ok => ok

/-- The loop over the operations from index `i` on: none when all are published. `addrs i` is what
`zrealloc` would return in turn `i` (0: NULL). -/
def submitLinkOps (linkFlag : ℕ) (addrs : ℕ → ℕ) :
    List LinkOp → ℕ → IoUringState → Option LinkExit × IoUringState
  | [], _, u => (none, u)
  | op :: ops, i, u =>
    match u.ioUringGetSqe with
    | none => (some .full, u)
    | some u =>
      let (opId, fs) := ioUringFileOpAllocate u.fileState op.cb op.userData (addrs i)
      let u := { u with fileState := fs }
      if opId = 0 then (some .untracked, u)
      else
        let flags := if ops.isEmpty then 0 else linkFlag
        submitLinkOps linkFlag addrs ops (i + 1) (u.fill (op.sqe opId flags)).ioUringSubmitSqe

/-- `loopyIoUringLinkChainSubmit`; `ok` is whether `io_uring_enter` succeeds. -/
def loopyIoUringLinkChainSubmit (u : IoUringState) (chain : LinkChain) (addrs : ℕ → ℕ) (ok : Bool) :
    LinkExit × IoUringState :=
  if chain.ops.isEmpty then (.empty, u)
  else
    match submitLinkOps chain.mode.linkFlag addrs chain.ops 0 u with
    | (some stop, u) => (stop, u)
    | (none, u) => (.entered ok, u.ioUringEnter chain.ops.length ok)

end Loopy.IoUring
