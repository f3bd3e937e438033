import Loopy.IoUring.Basic
import Loopy.EventLoop.Theorems

/-!
# `loopyInternalPoll` of the io_uring backend as a machine

The completion loop calls user code in the middle of an iteration and holds a pointer to an
operation slot across the call, so it is run by a machine with a stack of activations, as
`loopyProcessEvents` is.

* A `Frame` is an activation: a completion callback, the completion loop, or
  `loopyIoUringBufferPoolNew` / `loopyIoUringBufferPoolFree`, which poll until their own
  operation has completed. The hooks, the dispatch loop and the timers of an enclosing
  `loopyProcessEvents` are user code to the ring: they call the library and poll.
* The kernel is an input: polls become ready or fail, operations complete, at any time. So is
  whether an `io_uring_enter` succeeds.
* `Event`s record what happened; no transition reads them.
-/

namespace Loopy.IoUring

open Loopy.EventLoop Loopy.Lib Loopy.Epoll
open Function (update)

/-! ## Frames -/

/-- A call of a completion callback; `buffer` is the buffer's id, address and size, for a
buffer callback. -/
structure Invocation where
  cb : ℕ
  userData : ℕ
  res : ℤ
  buffer : Option (ℕ × ℕ × ℕ)
deriving DecidableEq, Repr

/-- What the completion loop does with the slot when the callback has returned: the three
branches of a file operation's completion. -/
inductive After
  | buffer (hasMore : Bool)
  | more
  | complete
deriving DecidableEq, Repr

/-- Where an activation of the completion loop is: at the loop condition, or behind the
callback for `cqe`, with the pointer `fileOp`. -/
inductive PollPc
  | loop
  | returned (fileOp : SlotPtr) (after : After) (cqe : Cqe)
deriving DecidableEq, Repr

/-- An activation of `loopyInternalPoll`, behind its `io_uring_enter`. -/
structure Poll where
  head : ℕ
  tail : ℕ
  numevents : ℕ
  pc : PollPc
deriving DecidableEq, Repr

/-- An activation of `loopyIoUringBufferPoolNew` (`create`) or `loopyIoUringBufferPoolFree`,
in its polling loop; `ctx` is the address of its `BufferPoolOpContext`. -/
structure PoolCall where
  create : Bool
  pool : BufferPool
  ctx : ℕ
  iterations : ℕ
deriving DecidableEq, Repr

/-- An activation on the stack. -/
inductive Frame
  | callback (call : Invocation)
  | poll (p : Poll)
  | pool (p : PoolCall)
deriving DecidableEq, Repr

/-! ## Inputs and events -/

/-- What user code may call, with the outcome of the `io_uring_enter` and the address
`zrealloc` would return. -/
inductive Call
  | table (c : TableCall) (env : Env EnterOks)
  | submit (r : OpRequest) (addr : ℕ) (ok : Bool)
  | addPoll (fd : ℕ) (events : BitVec 32) (ok : Bool)
  | removePoll (fd : ℕ) (ok : Bool)
  | poolNew (pool : BufferPool) (ctx addr : ℕ) (ok : Bool)
  | poolFree (pool : BufferPool) (ctx addr : ℕ) (ok : Bool)
deriving DecidableEq, Repr

/-- The outcome of the `io_uring_enter` of a poll: success, one of the errors after which the
completion queue is looked at all the same (`EINTR`, `EAGAIN`, `ETIME`), or another one. -/
inductive PollOutcome
  | ok
  | soft
  | hard
deriving DecidableEq, Repr

/-- One interaction with the surroundings. -/
inductive Input
  /-- The machine runs on by itself; `ok` is the outcome of the `io_uring_enter` that re-arms
  a poll. -/
  | go (ok : Bool)
  /-- User code calls the library. -/
  | call (c : Call)
  /-- A completion callback returns. -/
  | ret
  /-- `loopyInternalPoll` is called. -/
  | poll (outcome : PollOutcome)
  /-- The `i`-th armed poll becomes ready. -/
  | ready (i : ℕ) (events : BitVec 32)
  /-- The `i`-th armed poll fails. -/
  | failed (i : ℕ) (err : ℕ)
  /-- An operation completes. -/
  | complete (id : ℕ) (res : ℤ) (flags : BitVec 32)
deriving DecidableEq, Repr

/-- What has happened. -/
inductive Event
  /-- A submit function has accepted a request, with that slot. -/
  | accepted (r : OpRequest) (op : FileOp)
  /-- An armed poll became ready. -/
  | ready (userData : ℕ) (events : BitVec 32)
  /-- The completion loop has read the entry at a position. -/
  | processed (pos : ℕ) (cqe : Cqe)
  /-- The entry was of an active operation, for which this callback is called. -/
  | completed (pos : ℕ) (cqe : Cqe) (id : ℕ) (call : Option Invocation)
  /-- The completion loop has gone past the entry. -/
  | consumed (pos : ℕ) (cqe : Cqe)
  /-- An entry was written to `l->fired`. -/
  | fired (ev : LoopyFiredEvent) (cqe : Cqe)
  /-- The completion queue's head was published. -/
  | published (head : ℕ)
deriving DecidableEq, Repr

/-- The machine: the loop in memory, the stack (innermost activation first), the contexts of
the pool functions (the result, once completed) and the events (latest first). -/
structure Machine where
  loop : LoopyLoop IoUringState
  frames : List Frame
  contexts : ℕ → Option ℤ
  events : List Event

/-! ## The completion of an operation -/

/-- The address of `bufferPoolOpCallback`. -/
def bufferPoolOpCallback : ℕ := 1

/-- The callback of an operation for a completion without buffer data. -/
def FileOp.plainCall (op : FileOp) (res : ℤ) : Option Invocation :=
  if op.bufferCb ≠ 0 then some ⟨op.bufferCb, op.userData, res, some (0, 0, 0)⟩
  else if op.cb ≠ 0 then some ⟨op.cb, op.userData, res, none⟩
  else none

/-- The callback of an operation for a completion with a buffer of the operation's group. -/
def IoUringState.bufferCall (u : IoUringState) (op : FileOp) (cqe : Cqe) : Option Invocation :=
  let bufferId := (cqe.flags >>> 16).toNat
  if op.bufferCb ≠ 0 then
    let pool := u.bufferPool op.bufferGroup
    let bufferSize := (pool.map (·.bufferSize)).getD 0
    let bufferAddr := (pool.map fun pool => pool.buffers + bufferId * bufferSize).getD 0
    some ⟨op.bufferCb, op.userData, cqe.res, some (bufferId, bufferAddr, bufferSize)⟩
  else if op.cb ≠ 0 then some ⟨op.cb, op.userData, cqe.res, none⟩
  else none

/-- `cqe->flags & IORING_CQE_F_MORE`. -/
def Cqe.hasMore (cqe : Cqe) : Bool := hasBit cqe.flags IORING_CQE_F_MORE

/-- `cqe->flags & IORING_CQE_F_BUFFER`. -/
def Cqe.hasBuffer (cqe : Cqe) : Bool := hasBit cqe.flags IORING_CQE_F_BUFFER

/-- The callback of a completion of `op`, and the branch the completion loop is in. -/
def IoUringState.completion (u : IoUringState) (op : FileOp) (cqe : Cqe) :
    Option Invocation × After :=
  if cqe.hasBuffer then (u.bufferCall op cqe, .buffer cqe.hasMore)
  else if op.multishot && cqe.hasMore then (op.plainCall cqe.res, .more)
  else (op.plainCall cqe.res, .complete)

/-- The rest of the branch, behind the callback. -/
def FileState.finish (fs : FileState) (fileOp : SlotPtr) : After → FileState
  | .buffer hasMore =>
    if !(fs.load fileOp).multishot || !hasMore then fs.deactivate fileOp else fs
  | .more => fs
  | .complete => fs.deactivate fileOp

/-- `u->bufferPoolGroups[groupId] = pool`, within the table. -/
def IoUringState.setBufferGroup (u : IoUringState) (groupId : ℕ) (pool : Option BufferPool) :
    IoUringState :=
  if groupId < maxBufferGroups then
    { u with bufferPoolGroups := update u.bufferPoolGroups groupId pool }
  else u

/-! ## The kernel by itself -/

/-- An armed poll is gone, with a completion. -/
def Kernel.firePoll (k : Kernel) (i : ℕ) (cqe : Cqe) : Kernel :=
  { k with polls := k.polls.eraseIdx i }.post cqe

/-- The kernel posts a completion. -/
def IoUringState.onKernel (u : IoUringState) (f : Kernel → Kernel) : IoUringState :=
  { u with kernel := f u.kernel }

namespace Machine

/-- Record an event. -/
def emit (m : Machine) (e : Event) : Machine := { m with events := e :: m.events }

/-- The machine with another adapter state. -/
def withState (m : Machine) (u : IoUringState) : Machine :=
  { m with loop := { m.loop with state := some u } }

/-- The machine with another stack. -/
def withFrames (m : Machine) (fs : List Frame) : Machine := { m with frames := fs }

/-! ## Calls of user code -/

/-- The slot a submit function has just filled. -/
def acceptedOp (u : IoUringState) (id : ℕ) : FileOp :=
  ((ioUringFileOpFind u.fileState id).map u.fileState.load).getD .zero

/-- Submit an operation, and record it when it is accepted. -/
def submitted (m : Machine) (u : IoUringState) (r : OpRequest) (addr : ℕ) (ok : Bool) : Machine :=
  let (id, u) := u.submitRequest addr ok r
  if id = 0 then m.withState u else (m.withState u).emit (.accepted r (acceptedOp u id))

/-- `loopyIoUringBufferPoolNew` up to its polling loop. The pool's memory is given; the
submission may be refused. -/
def loopyIoUringBufferPoolNew (m : Machine) (u : IoUringState) (pool : BufferPool)
    (ctx addr : ℕ) (ok : Bool) : Machine :=
  if pool.bufferSize = 0 ∨ pool.bufferCount = 0 ∨ (u.bufferPool pool.groupId).isSome then m
  else
    let r : OpRequest := .provideBuffers pool.buffers pool.bufferSize pool.bufferCount
      pool.groupId 0 bufferPoolOpCallback ctx
    let m := { m with contexts := update m.contexts ctx none }.submitted u r addr ok
    if (u.submitRequest addr ok r).1 = 0 then m
    else { m with frames := .pool ⟨true, pool, ctx, 0⟩ :: m.frames }

/-- `loopyIoUringBufferPoolFree` up to its polling loop. -/
def loopyIoUringBufferPoolFree (m : Machine) (u : IoUringState) (pool : BufferPool)
    (ctx addr : ℕ) (ok : Bool) : Machine :=
  let r : OpRequest := .removeBuffers pool.bufferCount pool.groupId bufferPoolOpCallback ctx
  let m := { m with contexts := update m.contexts ctx none }.submitted u r addr ok
  { m with frames := .pool ⟨false, pool, ctx, 0⟩ :: m.frames }

/-- A call of user code. -/
def userCall (m : Machine) (u : IoUringState) : Call → Option Machine
  | .table c env => do
    let (_, l) ← c.perform (ioUringAdapter u.sq.bits u.fileState.ops) env m.loop
    return { m with loop := l }
  | .submit r addr ok => some (m.submitted u r addr ok)
  | .addPoll fd events ok => some (m.withState (u.ioUringAddPoll fd events ok).2)
  | .removePoll fd ok => some (m.withState (u.ioUringRemovePoll fd ok))
  | .poolNew pool ctx addr ok => some (m.loopyIoUringBufferPoolNew u pool ctx addr ok)
  | .poolFree pool ctx addr ok => some (m.loopyIoUringBufferPoolFree u pool ctx addr ok)

/-! ## `loopyInternalPoll` -/

/-- `loopyInternalPoll` up to its completion loop: the pending entries are submitted, and
the head and the tail of the completion queue are read. -/
def startPoll (m : Machine) (u : IoUringState) (outcome : PollOutcome) : Machine :=
  let enter u := (m.withState u).withFrames (.poll ⟨u.cqHead, u.kernel.cq.length, 0, .loop⟩ :: m.frames)
  match outcome with
  | .ok => enter (u.ioUringEnter u.sq.count true)
  | .soft => enter u
  | .hard => m

/-- The completion of a poll: the entry it adds to `l->fired`, if any, and the re-armed
poll. -/
def pollCompletion (m : Machine) (u : IoUringState) (p : Poll) (cqe : Cqe) (ok : Bool)
    (fs : List Frame) : Machine :=
  let fd := cqe.userData
  let mask := firedMask (BitVec.ofInt 32 cqe.res)
  if (cqe.res ≥ 0 ∨ cqe.res = -ECANCELED) ∧ mask ≠ .NONE then
    let ev : LoopyFiredEvent := ⟨fd, mask⟩
    let pollEvents := u.pollMask fd
    let u := if pollEvents ≠ 0 then (u.ioUringAddPoll fd pollEvents ok).2 else u
    let m := { m with loop := { m.loop with fired := update m.loop.fired p.numevents ev } }
    ((m.withState u).emit (.fired ev cqe)).withFrames
      (.poll { p with head := p.head + 1, numevents := p.numevents + 1 } :: fs)
  else m.withFrames (.poll { p with head := p.head + 1 } :: fs)

/-- Call a completion callback. `bufferPoolOpCallback` stores the result in its context. -/
def invoke (m : Machine) (call : Invocation) : Machine :=
  let contexts := if call.cb = bufferPoolOpCallback then
    update m.contexts call.userData (some call.res) else m.contexts
  { m with contexts := contexts, frames := .callback call :: m.frames }

/-- The completion of a file operation, up to the callback. -/
def fileCompletion (m : Machine) (u : IoUringState) (p : Poll) (cqe : Cqe) (fs : List Frame) :
    Machine :=
  match ioUringFileOpFind u.fileState (fileOpId cqe.userData) with
  | none => (m.emit (.consumed p.head cqe)).withFrames (.poll { p with head := p.head + 1 } :: fs)
  | some fileOp =>
    let op := u.fileState.load fileOp
    let (call, after) := u.completion op cqe
    let m := (m.emit (.completed p.head cqe op.id call)).withFrames
      (.poll { p with pc := .returned fileOp after cqe } :: fs)
    match call with
    | some call => m.invoke call
    | none => m

/-- The completion loop from one of its points to the next; `fs` is the stack below. -/
def pollStep (m : Machine) (u : IoUringState) (p : Poll) (ok : Bool) (fs : List Frame) :
    Option Machine :=
  match p.pc with
  | .loop =>
    if p.head ≠ p.tail ∧ p.numevents < m.loop.setSize then
      match u.kernel.cq[p.head]? with
      | none => none
      | some cqe =>
        let m := m.emit (.processed p.head cqe)
        if isFileOp cqe.userData then some (m.fileCompletion u p cqe fs)
        else some ((m.pollCompletion u p cqe ok fs).emit (.consumed p.head cqe))
    else
      some (((m.withState { u with cqHead := p.head }).emit (.published p.head)).withFrames fs)
  | .returned fileOp after cqe =>
    let u := { u with fileState := u.fileState.finish fileOp after }
    some (((m.withState u).emit (.consumed p.head cqe)).withFrames
      (.poll { p with head := p.head + 1, pc := .loop } :: fs))

/-! ## The pool functions -/

/-- The polling loop of a pool function goes on. -/
def polls (m : Machine) (p : PoolCall) : Bool :=
  (m.contexts p.ctx).isNone && decide (p.iterations < if p.create then 1000 else 100)

/-- The end of a pool function: a pool whose buffers the kernel took is entered in its group,
a freed one is removed from it. -/
def poolDone (m : Machine) (u : IoUringState) (p : PoolCall) (fs : List Frame) : Machine :=
  let m := m.withFrames fs
  if p.create then
    match m.contexts p.ctx with
    | some res => if res < 0 then m else m.withState (u.setBufferGroup p.pool.groupId (some p.pool))
    | none => m
  else m.withState (u.setBufferGroup p.pool.groupId none)

/-! ## The step function -/

/-- User code runs when the stack is empty or its callback is innermost. -/
def userRuns (m : Machine) : Bool :=
  match m.frames with
  | [] => true
  | .callback call :: _ => call.cb != bufferPoolOpCallback
  | _ => false

/-- The `i`-th armed poll becomes ready: events it asked for, or an error or hangup. -/
def pollReady (m : Machine) (u : IoUringState) (i : ℕ) (events : BitVec 32) : Option Machine :=
  match u.kernel.polls[i]? with
  | none => none
  | some p =>
    if events ≠ 0 ∧ events &&& (p.events ||| EPOLLERR ||| EPOLLHUP) = events then
      let cqe : Cqe := ⟨p.userData, events.toInt, 0, .ready p.events⟩
      some ((m.withState (u.onKernel (·.firePoll i cqe))).emit (.ready p.userData events))
    else none

/-- The `i`-th armed poll fails, with an error other than `ECANCELED`. -/
def pollFailed (m : Machine) (u : IoUringState) (i err : ℕ) : Option Machine :=
  match u.kernel.polls[i]? with
  | none => none
  | some p =>
    if 0 < err ∧ (err : ℤ) ≠ ECANCELED then
      some (m.withState (u.onKernel (·.firePoll i ⟨p.userData, -err, 0, .failed⟩)))
    else none

/-- One step. -/
def step (m : Machine) (i : Input) : Option Machine :=
  match m.loop.state with
  | none => none
  | some u =>
    match i, m.frames with
    | .ready i events, _ => m.pollReady u i events
    | .failed i err, _ => m.pollFailed u i err
    | .complete id res flags, _ =>
      some (m.withState (u.onKernel (·.post ⟨markFile id, res, flags, .operation⟩)))
    | .call c, _ => if m.userRuns then m.userCall u c else none
    | .ret, .callback _ :: fs => some (m.withFrames fs)
    | .poll outcome, .pool p :: fs =>
      if m.polls p then
        let m := m.withFrames (.pool { p with iterations := p.iterations + 1 } :: fs)
        some (m.startPoll u outcome)
      else none
    | .poll outcome, _ => if m.userRuns then some (m.startPoll u outcome) else none
    | .go ok, .poll p :: fs => m.pollStep u p ok fs
    | .go _, .pool p :: fs => if m.polls p then none else some (m.poolDone u p fs)
    | _, _ => none

/-- User code with a loop of `loopyInit` for `n` descriptors, a submission ring of `2 ^ bits`
entries and the operation slots at `ops`. -/
def start (bits ops n addr : ℕ) : Machine :=
  { loop := .fresh (ioUringAdapter bits ops) n addr
    frames := []
    contexts := fun _ => none
    events := [] }

end Machine

end Loopy.IoUring
