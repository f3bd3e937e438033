import Loopy.Lib.Chain
import Loopy.Lib.Run

/-!
# `loopyStream.c`: a stream and its write queue

A stream as a machine. Callbacks are user code that may call the stream again, so the machine
stops where one runs: `pc` is the place in the function of the stream that called it, and `depth`
counts the callbacks that run on top of it and that nothing follows. User code does not close the
stream in a callback. What the kernel answers is an input.

Write requests are numbered in the order of their allocation, and no number is used twice. `watch`
is the write side of the table of the event loop. `accepted`, `wire` and `completed` are a record:
the bytes of the accepted writes in the order of the calls, the chunks that the kernel took, and
the requests that were completed, with status 0 (`true`) or -1 (`false`).
-/

namespace Loopy.Stream

open Loopy.Lib

/-- `loopyStreamType`. -/
inductive LoopyStreamType
  | tcp
  | pipe
  | unknown
deriving DecidableEq, Repr

/-- `LOOPY_STREAM_MAX_FDS`. -/
def maxFds : ℕ := 8

/-- `loopyWriteReq`; `cb` says whether there is a callback, and `nfds` is the length of `fds`. -/
structure LoopyWriteReq where
  data : List UInt8
  written : ℕ
  cb : Bool
  next : Option ℕ
  fds : List ℕ
  fdsSent : Bool
deriving DecidableEq, Repr

/-- What the event loop calls. -/
inductive Handler
  | streamWriteCallback
  | streamConnectCallback
deriving DecidableEq, Repr

/-- Where the stream is. -/
inductive Pc
  | idle
  /-- `streamConnectCallback`, before `getsockopt`. -/
  | connectCheck
  /-- `streamWriteCallback`, at the test of its loop. -/
  | writeLoop
  /-- In the callback of a request that is complete. -/
  | writeDone
  /-- `streamDrainWriteQueue`, at the test of its loop with the local `req`. -/
  | drain (closing : Bool) (req : Option ℕ)
  /-- In the callback of a drained request, with the local `next`. -/
  | drained (closing : Bool) (next : Option ℕ)
  /-- `streamWriteCallback`, in the shutdown callback. -/
  | shutdownDone
  /-- `loopyStreamClose` has closed the fd. -/
  | closed
deriving DecidableEq, Repr

/-- Bytes that the kernel took at once, the request they are from (`none` for a
`loopyStreamTryWrite`) and the fds that went with them. -/
structure Chunk where
  req : Option ℕ
  bytes : List UInt8
  fds : List ℕ
deriving DecidableEq, Repr

/-- `loopyStream`, its requests, the event loop's table and the record. -/
structure LoopyStream where
  type : LoopyStreamType
  fd : Option ℕ
  readable : Bool
  reading : Bool
  writable : Bool
  connected : Bool
  connecting : Bool
  shutdownPending : Bool
  closing : Bool
  writeHead : Option ℕ
  writeTail : Option ℕ
  writeQueueSize : ℕ
  writeQueueCount : ℕ
  connectCb : Bool
  shutdownCb : Bool
  closeCb : Bool
  req : ℕ → LoopyWriteReq
  allocated : ℕ
  watch : ℕ → Option Handler
  pc : Pc
  depth : ℕ
  accepted : List UInt8
  wire : List Chunk
  completed : List (ℕ × Bool)

/-- `streamNew`. -/
def LoopyStream.new (type : LoopyStreamType) (fd : Option ℕ) (connected : Bool) : LoopyStream :=
  { type
    fd
    readable := true
    reading := false
    writable := true
    connected
    connecting := false
    shutdownPending := false
    closing := false
    writeHead := none
    writeTail := none
    writeQueueSize := 0
    writeQueueCount := 0
    connectCb := false
    shutdownCb := false
    closeCb := false
    req := fun _ =>
      { data := [], written := 0, cb := false, next := none, fds := [], fdsSent := false }
    allocated := 0
    watch := fun _ => none
    pc := .idle
    depth := 0
    accepted := []
    wire := []
    completed := [] }

/-- `loopyStreamNewTcp`. -/
def LoopyStream.newTcp (fd : ℕ) : LoopyStream := .new .tcp (some fd) false

/-- `loopyStreamNewPipe`. -/
def LoopyStream.newPipe : LoopyStream := .new .pipe none false

/-- `loopyStreamFromFd`. -/
def LoopyStream.fromFd (fd : ℕ) (type : LoopyStreamType) : LoopyStream := .new type (some fd) true

/-- The functions that return a new stream. -/
inductive Created : LoopyStream → Prop
  | newTcp (fd : ℕ) : Created (.newTcp fd)
  | newPipe : Created .newPipe
  | fromFd (fd : ℕ) (type : LoopyStreamType) : Created (.fromFd fd type)

/-! ## The write queue -/

namespace LoopyStream

/-- The link of a request. -/
def next (s : LoopyStream) (n : ℕ) : Option ℕ := (s.req n).next

/-- A write to a request. -/
def setReq (s : LoopyStream) (n : ℕ) (req : LoopyWriteReq) : LoopyStream :=
  { s with req := Function.update s.req n req }

/-- `streamUpdateWriteWatcher`. -/
def updateWriteWatcher (s : LoopyStream) : LoopyStream :=
  match s.fd with
  | none => s
  | some fd =>
    { s with
      watch := Function.update s.watch fd
        (if s.writeHead.isSome || s.shutdownPending || s.connecting then
          some .streamWriteCallback
        else none) }

/-- `loopyUnregisterWrite(stream->loop, stream->fd)`. -/
def unregisterWrite (s : LoopyStream) : LoopyStream :=
  match s.fd with
  | none => s
  | some fd => { s with watch := Function.update s.watch fd none }

/-- A new request at the tail. -/
def enqueue (s : LoopyStream) (data : List UInt8) (fds : List ℕ) (cb : Bool) :
    LoopyStream :=
  let n := s.allocated
  let s :=
    { s.setReq n { data, written := 0, cb, next := none, fds, fdsSent := false } with
      allocated := n + 1 }
  let s :=
    match s.writeTail with
    | some tail =>
      { s.setReq tail { s.req tail with next := some n } with writeTail := some n }
    | none => { s with writeHead := some n, writeTail := some n }
  { s with
    writeQueueSize := s.writeQueueSize + data.length
    writeQueueCount := s.writeQueueCount + 1
    accepted := s.accepted ++ data }

/-- `loopyStreamWrite`; `alloc` says whether its allocations succeed. -/
def write (s : LoopyStream) (data : List UInt8) (cb alloc : Bool) : LoopyStream :=
  if data = [] then s
  else if s.fd = none ∨ s.writable = false ∨ s.closing = true then s
  else if alloc = false then s
  else (s.enqueue data [] cb).updateWriteWatcher

/-- `loopyStreamWriteWithFd`. -/
def writeWithFd (s : LoopyStream) (data : List UInt8) (fds : List ℕ)
    (cb alloc : Bool) : LoopyStream :=
  if data = [] ∨ fds = [] then s
  else if s.type ≠ .pipe then s
  else if fds.length > maxFds then s
  else if s.fd = none ∨ s.writable = false ∨ s.closing = true then s
  else if alloc = false then s
  else (s.enqueue data fds cb).updateWriteWatcher

end LoopyStream

/-- What `write` or `sendmsg` answers. -/
inductive KernelResult
  | took (bytes : ℕ)
  | again
  | error
deriving DecidableEq, Repr

/-- `loopyStreamTryWrite`. The kernel takes no more than it is offered. -/
def LoopyStream.tryWrite (s : LoopyStream) (data : List UInt8) (r : KernelResult) :
    Option LoopyStream :=
  if data = [] then some s
  else if s.fd = none ∨ s.writable = false ∨ s.connected = false then some s
  else if s.writeHead ≠ none then some s
  else
    match r with
    | .took bytes =>
      if bytes ≤ data.length then
        some { s with
          wire := s.wire ++ [{ req := none, bytes := data.take bytes, fds := [] }]
          accepted := s.accepted ++ data.take bytes }
      else none
    | .again | .error => some s

/-- One turn of the loop of `streamWriteCallback` for the request `n` at the head. -/
def LoopyStream.kernelWrite (s : LoopyStream) (n : ℕ) (r : KernelResult) : Option LoopyStream :=
  let req := s.req n
  let remaining := req.data.length - req.written
  -- the fds go with the first bytes
  let sendmsg := decide (req.fds ≠ []) && !req.fdsSent && decide (s.type = .pipe)
  match r with
  | .again => some { s with pc := .idle }
  | .error => some { s with pc := .drain false s.writeHead }
  | .took bytes =>
    if bytes ≤ remaining then
      let chunk : Chunk :=
        { req := some n
          bytes := (req.data.drop req.written).take bytes
          fds := if sendmsg then req.fds else [] }
      let req :=
        { req with
          fdsSent := req.fdsSent || (sendmsg && decide (bytes > 0))
          written := req.written + bytes }
      let s :=
        { s.setReq n req with
          writeQueueSize := s.writeQueueSize - bytes
          wire := if bytes > 0 then s.wire ++ [chunk] else s.wire }
      if req.written ≥ req.data.length then
        some { s with
          writeHead := req.next
          writeTail := if req.next = none then none else s.writeTail
          writeQueueCount := s.writeQueueCount - 1
          completed := s.completed ++ [(n, true)]
          pc := if req.cb then .writeDone else .writeLoop }
      else some s
    else none

/-- `streamWriteCallback` behind its loop. -/
def LoopyStream.finishWrite (s : LoopyStream) : LoopyStream :=
  -- the loop ends with an empty queue, so the test of `writeHead` is not made again
  if s.shutdownPending then
    let s := { s with writable := false, shutdownPending := false }
    if s.shutdownCb then { s with pc := .shutdownDone }
    else { s.updateWriteWatcher with pc := .idle }
  else { s.updateWriteWatcher with pc := .idle }

/-- One turn of the loop of `streamDrainWriteQueue`, or what is behind it: the rest of
`streamWriteCallback` or of `loopyStreamClose`. -/
def LoopyStream.drainStep (s : LoopyStream) (closing : Bool) (req : Option ℕ) : LoopyStream :=
  match req with
  | some n =>
    -- `next` is read before the callback may append to the list
    let next := s.next n
    { s with
      completed := s.completed ++ [(n, false)]
      pc := if (s.req n).cb then .drained closing next else .drain closing next }
  | none =>
    let s :=
      { s with writeHead := none, writeTail := none, writeQueueSize := 0, writeQueueCount := 0 }
    if closing then { s with fd := none, pc := .closed, depth := if s.closeCb then 1 else 0 }
    else { s.updateWriteWatcher with pc := .idle }

/-! ## Connect, shutdown, close -/

/-- What `inet_pton` makes of an address; for IPv6 also the new socket, and whether it could be
made non-blocking. -/
inductive Address
  | ipv4
  | ipv6 (fd : Option ℕ) (nonBlock : Bool)
  | invalid
deriving DecidableEq, Repr

/-- What `connect` answers. -/
inductive ConnectResult
  | done
  | inProgress
  | error
deriving DecidableEq, Repr

namespace LoopyStream

/-- `loopyStreamConnect` from the call of `connect` on. -/
def connectFd (s : LoopyStream) (r : ConnectResult) (cb : Bool) : LoopyStream :=
  match r with
  | .error => s
  | .done => { s with connected := true, depth := if cb then s.depth + 1 else s.depth }
  | .inProgress =>
    let s := { s with connecting := true, connectCb := cb }
    match s.fd with
    | none => s
    | some fd =>
      { s with watch := Function.update s.watch fd (some .streamConnectCallback) }

/-- `loopyStreamConnect`. -/
def connect (s : LoopyStream) (address : Address) (r : ConnectResult) (cb : Bool) :
    LoopyStream :=
  if s.type ≠ .tcp ∨ s.fd = none then s
  else
    match address with
    | .ipv4 => s.connectFd r cb
    | .ipv6 fd nonBlock =>
      -- the old fd is closed, but not unregistered
      let s := { s with fd }
      if fd = none then s
      else if nonBlock = false then s
      else s.connectFd r cb
    | .invalid => s

/-- `streamConnectCallback` from the answer of `getsockopt` on. -/
def finishConnect (s : LoopyStream) (ok : Bool) : LoopyStream :=
  let s := { s with connecting := false }
  let s :=
    if ok then { s with connected := true }.unregisterWrite.updateWriteWatcher
    else s.unregisterWrite -- whatever is queued
  { s with pc := .idle, depth := if s.connectCb then s.depth + 1 else s.depth }

/-- `loopyStreamShutdown`; `ok` says whether the system call succeeds. -/
def shutdown (s : LoopyStream) (ok cb : Bool) : LoopyStream :=
  if s.fd = none ∨ s.writable = false then s
  else
    let s := { s with shutdownCb := cb }
    if s.writeHead ≠ none then { s with shutdownPending := true }
    else if ok = false then s
    else { s with writable := false, depth := if cb then s.depth + 1 else s.depth }

/-- `loopyStreamClose` up to the loop of `streamDrainWriteQueue`. -/
def close (s : LoopyStream) (cb : Bool) : LoopyStream :=
  if s.closing then s
  else
    let s := { s with closing := true, closeCb := cb, reading := false }.unregisterWrite
    { s with pc := .drain true s.writeHead }

/-! ## The machine -/

/-- User code runs: outside the stream or in one of its callbacks. -/
def user (s : LoopyStream) : Bool :=
  decide (0 < s.depth) ||
    match s.pc with
    | .idle | .writeDone | .drained .. | .shutdownDone => true
    | .connectCheck | .writeLoop | .drain .. | .closed => false

/-- No function of the stream runs. -/
def quiet (s : LoopyStream) : Prop := s.pc = .idle ∧ s.depth = 0

end LoopyStream

instance (s : LoopyStream) : Decidable s.quiet :=
  inferInstanceAs (Decidable (_ ∧ _))

/-- The calls of user code, the events, and how the functions of the stream go on. -/
inductive Action
  | write (data : List UInt8) (cb alloc : Bool)
  | writeWithFd (data : List UInt8) (fds : List ℕ) (cb alloc : Bool)
  | tryWrite (data : List UInt8) (r : KernelResult)
  | connect (address : Address) (r : ConnectResult) (cb : Bool)
  | shutdown (ok cb : Bool)
  | readStart
  | readStop
  | close (cb : Bool)
  /-- The event loop finds the fd writable and calls what is registered. -/
  | writable
  /-- The peer has sent everything: `streamReadCallback` finds the end. -/
  | endOfFile
  | getsockopt (ok : Bool)
  | kernel (r : KernelResult)
  | run
  /-- The callback returns. -/
  | ret
deriving DecidableEq, Repr

/-- A callback returns to the function of the stream that called it. -/
def LoopyStream.callbackReturns (s : LoopyStream) : Option LoopyStream :=
  if 0 < s.depth then some { s with depth := s.depth - 1 }
  else
    match s.pc with
    | .writeDone => some { s with pc := .writeLoop }
    | .drained closing next => some { s with pc := .drain closing next }
    | .shutdownDone => some { s.updateWriteWatcher with pc := .idle }
    | .idle | .connectCheck | .writeLoop | .drain .. | .closed => none

/-- The event loop calls what is registered for the fd. -/
def LoopyStream.dispatch (s : LoopyStream) : Option LoopyStream :=
  match s.fd.bind s.watch with
  | some .streamWriteCallback =>
    some { s with pc := if s.connecting then .connectCheck else .writeLoop }
  | some .streamConnectCallback => some { s with pc := .connectCheck }
  | none => none

/-- One action. -/
def step (s : LoopyStream) : Action → Option LoopyStream
  | .write data cb alloc => if s.user then some (s.write data cb alloc) else none
  | .writeWithFd data fds cb alloc =>
    if s.user then some (s.writeWithFd data fds cb alloc) else none
  | .tryWrite data r => if s.user then s.tryWrite data r else none
  | .connect address r cb => if s.user then some (s.connect address r cb) else none
  | .shutdown ok cb => if s.user then some (s.shutdown ok cb) else none
  | .readStart =>
    if s.user then
      some { s with reading := s.reading || (s.fd.isSome && s.readable) }
    else none
  | .readStop => if s.user then some { s with reading := false } else none
  | .close cb => if s.quiet then some (s.close cb) else none
  | .writable => if s.quiet then s.dispatch else none
  | .endOfFile =>
    if s.quiet ∧ s.reading = true then some { s with readable := false } else none
  | .getsockopt ok => if s.pc = .connectCheck then some (s.finishConnect ok) else none
  | .kernel r =>
    if s.pc = .writeLoop then s.writeHead.bind fun n => s.kernelWrite n r else none
  | .run =>
    match s.pc with
    | .writeLoop => if s.writeHead = none then some s.finishWrite else none
    | .drain closing req => some (s.drainStep closing req)
    | .idle | .connectCheck | .writeDone | .drained .. | .shutdownDone | .closed => none
  | .ret => s.callbackReturns

/-- What a step does, and where the stream is when it does so. -/
inductive Stepped (s : LoopyStream) : Action → LoopyStream → Prop
  | write (data : List UInt8) (cb alloc : Bool) (huser : s.user = true) :
    Stepped s (.write data cb alloc) (s.write data cb alloc)
  | writeWithFd (data : List UInt8) (fds : List ℕ) (cb alloc : Bool) (huser : s.user = true) :
    Stepped s (.writeWithFd data fds cb alloc) (s.writeWithFd data fds cb alloc)
  | tryWrite {s' : LoopyStream} (data : List UInt8) (r : KernelResult) (huser : s.user = true)
    (h : s.tryWrite data r = some s') : Stepped s (.tryWrite data r) s'
  | connect (address : Address) (r : ConnectResult) (cb : Bool) (huser : s.user = true) :
    Stepped s (.connect address r cb) (s.connect address r cb)
  | shutdown (ok cb : Bool) (huser : s.user = true) :
    Stepped s (.shutdown ok cb) (s.shutdown ok cb)
  | readStart (huser : s.user = true) :
    Stepped s .readStart { s with reading := s.reading || (s.fd.isSome && s.readable) }
  | readStop (huser : s.user = true) : Stepped s .readStop { s with reading := false }
  | close (cb : Bool) (hquiet : s.quiet) : Stepped s (.close cb) (s.close cb)
  | writable {s' : LoopyStream} (hquiet : s.quiet) (h : s.dispatch = some s') :
    Stepped s .writable s'
  | endOfFile (hquiet : s.quiet) : Stepped s .endOfFile { s with readable := false }
  | getsockopt (ok : Bool) (hpc : s.pc = .connectCheck) :
    Stepped s (.getsockopt ok) (s.finishConnect ok)
  | kernel {s' : LoopyStream} (r : KernelResult) (n : ℕ) (hpc : s.pc = .writeLoop)
    (hhead : s.writeHead = some n) (h : s.kernelWrite n r = some s') : Stepped s (.kernel r) s'
  | finishWrite (hpc : s.pc = .writeLoop) (hhead : s.writeHead = none) :
    Stepped s .run s.finishWrite
  | drainStep (closing : Bool) (req : Option ℕ) (hpc : s.pc = .drain closing req) :
    Stepped s .run (s.drainStep closing req)
  | ret {s' : LoopyStream} (h : s.callbackReturns = some s') : Stepped s .ret s'

theorem stepped {s s' : LoopyStream} {a : Action} (hstep : step s a = some s') :
    Stepped s a s' := by
  cases a with
  | write data cb alloc =>
    obtain ⟨huser, rfl⟩ := of_guard hstep
    exact .write data cb alloc huser
  | writeWithFd data fds cb alloc =>
    obtain ⟨huser, rfl⟩ := of_guard hstep
    exact .writeWithFd data fds cb alloc huser
  | tryWrite data r =>
    obtain ⟨huser, hstep⟩ := Option.ite_none_right_eq_some.mp hstep
    exact .tryWrite data r huser hstep
  | connect address r cb =>
    obtain ⟨huser, rfl⟩ := of_guard hstep
    exact .connect address r cb huser
  | shutdown ok cb =>
    obtain ⟨huser, rfl⟩ := of_guard hstep
    exact .shutdown ok cb huser
  | readStart =>
    obtain ⟨huser, rfl⟩ := of_guard hstep
    exact .readStart huser
  | readStop =>
    obtain ⟨huser, rfl⟩ := of_guard hstep
    exact .readStop huser
  | close cb =>
    obtain ⟨hquiet, rfl⟩ := of_guard hstep
    exact .close cb hquiet
  | writable =>
    obtain ⟨hquiet, hstep⟩ := Option.ite_none_right_eq_some.mp hstep
    exact .writable hquiet hstep
  | endOfFile =>
    obtain ⟨hquiet, rfl⟩ := of_guard hstep
    exact .endOfFile hquiet.1
  | getsockopt ok =>
    obtain ⟨hpc, rfl⟩ := of_guard hstep
    exact .getsockopt ok hpc
  | kernel r =>
    obtain ⟨hpc, hstep⟩ := Option.ite_none_right_eq_some.mp hstep
    obtain ⟨n, hhead, hstep⟩ := Option.bind_eq_some_iff.mp hstep
    exact .kernel r n hpc hhead hstep
  | run =>
    rw [step] at hstep
    split at hstep
    next hpc =>
      obtain ⟨hhead, rfl⟩ := of_guard hstep
      exact .finishWrite hpc hhead
    next closing req hpc =>
      cases hstep
      exact .drainStep closing req hpc
    all_goals cases hstep
  | ret => exact .ret hstep

end Loopy.Stream
