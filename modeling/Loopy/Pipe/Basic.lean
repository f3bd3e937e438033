import Loopy.EventLoop.Basic
import Loopy.Lib.Run

/-!
# `loopyPipe.c`: pipes

The handle, the calls that work with the event loop and the two event callbacks. The callbacks are
user code, which makes the same calls, and in which a loop may run. Callbacks, user data and loops
are numbers, 0 is `NULL`.

* What a loop watches is a table of masks, as in `loopy.c`; a registration may fail.
* `write` answers after its retries, so that `EINTR` is not seen.
* The handle is not freed.
* `readEnd` and `writeEnd` are ghosts, the descriptors that the pipe has been made of. So are
  `reading` (a `loopyPipeReadStart` has not been stopped or closed) and `writing` (an asynchronous
  write waits for its event), and `asyncCalls`, the calls of `loopyPipeWriteAsync` that return
  `true`, with `waiting`, the one that `writeCallback` is of, and `called`, those whose callback has
  been called with the status 0.

The error texts, `userData`, the FIFO files and the synchronous calls are left out.
-/

namespace Loopy.Pipe

open Loopy.EventLoop

/-! ## Data -/

/-- A callback that runs, by the function that has called it. -/
inductive Frame
  | loopyPipeWriteAsync
  | pipeReadEventCallback
  | pipeWriteEventCallback
deriving DecidableEq, Repr

/-- A call of `loopyPipeWriteAsync` that returns `true`; `taken` counts the bytes that its `write`
has taken. -/
structure AsyncCall where
  buf : List UInt8
  cb : ℕ
  taken : ℕ
deriving DecidableEq, Repr

/-- `loopyPipe`, with the loops, the bytes that the kernel has been given and the callbacks that
run. -/
structure LoopyPipe where
  readFd : ℤ
  writeFd : ℤ
  loop : ℕ
  readCallback : ℕ
  readUserData : ℕ
  readBuffer : Bool
  readBufferSize : ℕ
  writeCallback : ℕ
  writeUserData : ℕ
  mask : ℕ → ℤ → LoopyAction
  kernel : List UInt8
  frames : List Frame
  readEnd : ℕ
  writeEnd : ℕ
  reading : Bool
  writing : Bool
  asyncCalls : List AsyncCall
  waiting : Option ℕ
  called : List ℕ

/-- What `write` answers. -/
inductive Written
  | bytes (n : ℕ)
  /-- `EAGAIN` or `EWOULDBLOCK`. -/
  | again
  | error
deriving DecidableEq, Repr

/-- A pipe of two descriptors, -1 for an end that is not open. -/
def LoopyPipe.of (readFd writeFd : ℤ) (readEnd writeEnd : ℕ) : LoopyPipe where
  readFd := readFd
  writeFd := writeFd
  loop := 0
  readCallback := 0
  readUserData := 0
  readBuffer := false
  readBufferSize := 0
  writeCallback := 0
  writeUserData := 0
  mask := fun _ _ => .NONE
  kernel := []
  frames := []
  readEnd := readEnd
  writeEnd := writeEnd
  reading := false
  writing := false
  asyncCalls := []
  waiting := none
  called := []

/-- A new pipe: of `loopyPipeCreate` or `loopyPipeFromFds`, or one end of a FIFO of
`loopyPipeOpenFifo`. -/
inductive Created : LoopyPipe → Prop
  | pair (r w : ℕ) (h : r ≠ w) : Created (.of r w r w)
  | fifoRead (r w : ℕ) (h : r ≠ w) : Created (.of r (-1) r w)
  | fifoWrite (r w : ℕ) (h : r ≠ w) : Created (.of (-1) w r w)

namespace LoopyPipe

/-! ## The loops -/

/-- The loop watches more of a descriptor. -/
def watch (p : LoopyPipe) (loop : ℕ) (fd : ℤ) (action : LoopyAction) : LoopyPipe :=
  let entry := Function.update (p.mask loop) fd ((p.mask loop fd).union action)
  { p with mask := Function.update p.mask loop entry }

/-- The loop watches less of a descriptor. -/
def unwatch (p : LoopyPipe) (loop : ℕ) (fd : ℤ) (action : LoopyAction) : LoopyPipe :=
  let entry := Function.update (p.mask loop) fd ((p.mask loop fd).diff action)
  { p with mask := Function.update p.mask loop entry }

/-- `loopyUnregisterReadWrite`. -/
def loopyUnregisterReadWrite (p : LoopyPipe) (loop : ℕ) (fd : ℤ) : LoopyPipe :=
  p.unwatch loop fd .ALL

/-- `loopyUnregisterWrite`. -/
def loopyUnregisterWrite (p : LoopyPipe) (loop : ℕ) (fd : ℤ) : LoopyPipe :=
  p.unwatch loop fd .WRITE

/-! ## The calls -/

/-- `zfree(pipe->readBuffer)`. -/
def freeBuffer (p : LoopyPipe) : LoopyPipe :=
  { p with
    readBuffer := false
    readBufferSize := 0 }

/-- `loopyPipeCloseRead`. -/
def loopyPipeCloseRead (p : LoopyPipe) : LoopyPipe :=
  let p := if p.loop ≠ 0 ∧ p.readFd ≥ 0 then p.loopyUnregisterReadWrite p.loop p.readFd else p
  let p := { p with readFd := -1 }
  let p := if p.readBuffer then p.freeBuffer else p
  { p with
    readCallback := 0
    readUserData := 0
    reading := false }

/-- `loopyPipeCloseWrite`. -/
def loopyPipeCloseWrite (p : LoopyPipe) : LoopyPipe :=
  let p := if p.loop ≠ 0 ∧ p.writeFd ≥ 0 then p.loopyUnregisterReadWrite p.loop p.writeFd else p
  { p with
    writeFd := -1
    writeCallback := 0
    writeUserData := 0
    waiting := none
    writing := false }

/-- `loopyPipeReadStart`; `alloc` and `register` say whether the buffer is allocated and whether
`loopyRegisterRead` succeeds. -/
def loopyPipeReadStart (p : LoopyPipe) (loop cb userData : ℕ) (alloc register : Bool) :
    Bool × LoopyPipe :=
  if loop = 0 ∨ cb = 0 then (false, p)
  else if p.readFd < 0 then (false, p)
  else if p.readBuffer = false ∧ alloc = false then (false, { p with readBufferSize := 4096 })
  else
    let p :=
      if p.readBuffer then p
      else
        { p with
          readBuffer := true
          readBufferSize := 4096 }
    if register = false then
      (false, { p.freeBuffer with
        loop := 0
        readCallback := 0
        readUserData := 0 })
    else
      let p :=
        { p with
          loop := loop
          readCallback := cb
          readUserData := userData
          reading := true }
      (true, p.watch loop p.readFd .READ)

/-- `loopyPipeReadStop`. -/
def loopyPipeReadStop (p : LoopyPipe) : LoopyPipe :=
  if p.loop = 0 ∨ p.readFd < 0 then { p with reading := false }
  else
    let p := p.loopyUnregisterReadWrite p.loop p.readFd
    let p := if p.readBuffer then p.freeBuffer else p
    { p with
      loop := 0
      readCallback := 0
      readUserData := 0
      reading := false }

/-- The callback of a call is called, if there is one. -/
def call (p : LoopyPipe) (cb : ℕ) (frame : Frame) : LoopyPipe :=
  if cb = 0 then p else { p with frames := frame :: p.frames }

/-- The status 0 is reported for a call of `loopyPipeWriteAsync`. -/
def report (p : LoopyPipe) (cb : ℕ) (n : Option ℕ) : LoopyPipe :=
  if cb = 0 then p else { p with called := p.called ++ n.toList }

/-- A call of `loopyPipeWriteAsync` whose `write` has taken a part of its buffer. -/
def took (p : LoopyPipe) (buf : List UInt8) (cb taken : ℕ) : LoopyPipe :=
  { p with
    kernel := p.kernel ++ buf.take taken
    asyncCalls := p.asyncCalls ++ [⟨buf, cb, taken⟩] }

/-- The end of `loopyPipeWriteAsync`, after a `write` that has not taken the whole buffer. -/
def waitForEvent (p : LoopyPipe) (loop : ℕ) (buf : List UInt8) (cb userData taken : ℕ)
    (register : Bool) : Bool × LoopyPipe :=
  if register = false then
    (false, { p with
      kernel := p.kernel ++ buf.take taken
      loop := 0
      writeCallback := 0
      writeUserData := 0
      waiting := none })
  else
    let n := p.asyncCalls.length
    let p :=
      { p.took buf cb taken with
        loop := loop
        writeCallback := cb
        writeUserData := userData
        waiting := some n
        writing := true }
    (true, p.watch loop p.writeFd .WRITE)

/-- `loopyPipeWriteAsync`, up to its callback; `none` is a `NULL` buffer. -/
def loopyPipeWriteAsync (p : LoopyPipe) (loop : ℕ) (buf : Option (List UInt8)) (cb userData : ℕ)
    (written : Written) (register : Bool) : Bool × LoopyPipe :=
  match buf with
  | none => (false, p)
  | some buf =>
    if loop = 0 then (false, p)
    else if p.writeFd < 0 then (false, p)
    else
      match written with
      | .bytes taken =>
        if taken = buf.length then
          let n := p.asyncCalls.length
          (true, ((p.took buf cb taken).report cb n).call cb .loopyPipeWriteAsync)
        else p.waitForEvent loop buf cb userData taken register
      | .error => (false, p.call cb .loopyPipeWriteAsync)
      | .again => p.waitForEvent loop buf cb userData 0 register

/-! ## The event callbacks -/

/-- `pipeReadEventCallback`, up to its callback. -/
def pipeReadEventCallback (p : LoopyPipe) (fd : ℤ) : LoopyPipe :=
  if p.readCallback = 0 ∨ fd ≠ p.readFd then p else p.call p.readCallback .pipeReadEventCallback

/-- The end of `pipeWriteEventCallback`. -/
def clearWrite (p : LoopyPipe) : LoopyPipe :=
  { p with
    writeCallback := 0
    writeUserData := 0
    waiting := none }

/-- `pipeWriteEventCallback`, up to its callback. -/
def pipeWriteEventCallback (p : LoopyPipe) : LoopyPipe :=
  let p := if p.loop ≠ 0 ∧ p.writeFd ≥ 0 then p.loopyUnregisterWrite p.loop p.writeFd else p
  let p := { p with writing := false }
  if p.writeCallback = 0 then p.clearWrite
  else (p.report p.writeCallback p.waiting).call p.writeCallback .pipeWriteEventCallback

end LoopyPipe

/-! ## The machine -/

/-- One step of the program. -/
inductive Action
  | readStart (loop cb userData : ℕ) (alloc register : Bool)
  | readStop
  | closeRead
  | closeWrite
  | writeAsync (loop : ℕ) (buf : Option (List UInt8)) (cb userData : ℕ) (written : Written)
    (register : Bool)
  /-- A loop dispatches an event of the read end. -/
  | readable (loop : ℕ)
  /-- A loop dispatches an event of the write end. -/
  | writable (loop : ℕ)
  /-- The callback that has been called last returns. -/
  | ret
deriving DecidableEq, Repr

namespace LoopyPipe

/-- `write` takes no more than it is offered. -/
def Answers (buf : Option (List UInt8)) : Written → Prop
  | .bytes taken => taken ≤ (buf.getD []).length
  | _ => True

instance (buf : Option (List UInt8)) : ∀ written, Decidable (Answers buf written)
  | .bytes _ => inferInstanceAs (Decidable (_ ≤ _))
  | .again | .error => isTrue trivial

/-- One step; `none` is a step that is not possible. -/
def step (p : LoopyPipe) : Action → Option LoopyPipe
  | .readStart loop cb userData alloc register =>
    some (p.loopyPipeReadStart loop cb userData alloc register).2
  | .readStop => some p.loopyPipeReadStop
  | .closeRead => some p.loopyPipeCloseRead
  | .closeWrite => some p.loopyPipeCloseWrite
  | .writeAsync loop buf cb userData written register =>
    if Answers buf written then
      some (p.loopyPipeWriteAsync loop buf cb userData written register).2
    else none
  | .readable loop =>
    if (p.mask loop p.readEnd).read then some (p.pipeReadEventCallback p.readEnd) else none
  | .writable loop => if (p.mask loop p.writeEnd).write then some p.pipeWriteEventCallback else none
  | .ret =>
    match p.frames with
    | [] => none
    | .pipeWriteEventCallback :: frames => some { p.clearWrite with frames := frames }
    | _ :: frames => some { p with frames := frames }

end LoopyPipe

end Loopy.Pipe
