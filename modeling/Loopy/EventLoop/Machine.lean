import Loopy.EventLoop.Basic

/-!
# `loopyDo` and `loopyProcessEvents` as a machine

The functions of `loopy.c` that call user code are run by a machine with an explicit stack
of activations, so that a callback may do anything, including running the loop again. Its
step function is the C code between two interactions with the surroundings; what the
surroundings do (return from a callback, call the library, what the poll reports, what the
clock and the timer wheel say) is the input of the step.

* A `Frame` is an activation: user code, `loopyDo` or `loopyProcessEvents`, the last two with
  a program counter and their local variables.
* `Turn`s and `Event`s record what was dispatched and what happened; no transition reads
  them.
* After `loopyDeinit` the memory of a caller-allocated loop reads as the zeroed struct, and
  that of a heap-allocated one is gone. An access to freed memory, one through a NULL or
  stale table pointer, or a poll without adapter state is an `Event.fault`, after which
  nothing more happens.

The timer wheel is outside this repository: the time of its next timer and the timer
callbacks it runs are inputs.
-/

namespace Loopy.EventLoop

/-! ## Frames -/

/-- One of the two directions of a descriptor. -/
inductive Dir
  | read
  | write
deriving DecidableEq, Repr

/-- `loopyActionIsRead` / `loopyActionIsWrite`. -/
def LoopyAction.has (a : LoopyAction) : Dir → Bool
  | .read => a.read
  | .write => a.write

/-- The callback of one direction. -/
def LoopyFileEvent.callback (fe : LoopyFileEvent) : Dir → ℕ
  | .read => fe.readCallback
  | .write => fe.writeCallback

/-- The flags `loopyDo` passes to `loopyProcessEvents`. -/
structure LoopyEvents where
  time : Bool
  nowait : Bool
deriving DecidableEq, Repr

/-- `LOOPY_EVENTS_ALL`, the flags of `loopyMain`. -/
def LoopyEvents.ALL : LoopyEvents := ⟨true, false⟩

/-- The callbacks the loop invokes. -/
inductive Callback
  | beforeSleep
  | file (fd : ℕ) (dir : Dir)
  | timer
  | afterSleep
deriving DecidableEq, Repr

/-- Where an activation of `loopyDo` is; `before`, `process` and `after` are the points after
the call of that name has returned. -/
inductive DoPc
  | enter
  | top
  | before
  | process
  | after
  | exit
deriving DecidableEq, Repr

/-- The local variables of one turn of the dispatch loop: `fe` is `&l->events[fd]`, of which
the table address is kept. -/
structure Entry where
  j : ℕ
  fd : ℕ
  mask : LoopyAction
  fe : Option ℕ
deriving DecidableEq, Repr

/-- Where an activation of `loopyProcessEvents` is. -/
inductive ProcessPc
  | start
  | polling
  | entry (j : ℕ)
  | testRead (e : Entry)
  | readReturned (e : Entry) (eventsBefore : Option ℕ)
  | testWrite (e : Entry)
  | timers
  | wheel
  | finish
deriving DecidableEq, Repr

/-- What the dispatch loop did with one direction of one entry: how many events had happened
when its turn came, whether that direction was registered then, and whether its callback was
invoked. -/
structure Turn where
  j : ℕ
  dir : Dir
  fd : ℕ
  mask : LoopyAction
  time : ℕ
  registered : Bool
  invoked : Bool
deriving DecidableEq, Repr

/-- What one poll returned (`batch`), how many events had happened by then (`since`), and
what was made of it. -/
structure Dispatch where
  batch : List LoopyFiredEvent
  since : ℕ
  turns : List Turn
deriving DecidableEq, Repr

/-- An activation of `loopyProcessEvents`. -/
structure Process where
  flags : LoopyEvents
  pc : ProcessPc
  hasTimers : Bool
  shortest : ℕ
  numevents : ℕ
  dispatch : Dispatch
deriving DecidableEq, Repr

/-- An activation on the stack. -/
inductive Frame
  | user (callback : Callback)
  | loopyDo (flags : LoopyEvents) (pc : DoPc)
  | process (p : Process)
deriving DecidableEq, Repr

/-! ## Inputs and events -/

/-- What user code may call. -/
inductive Call
  | table (c : TableCall)
  | stop
  | delete
  | main (flags : LoopyEvents)
  | setBeforeSleepCallback (cb clientData : ℕ)
  | setAfterSleepCallback (cb clientData : ℕ)
  | registerTimer
deriving DecidableEq, Repr

/-- One interaction with the surroundings. -/
inductive Input (ε π : Type)
  /-- The machine runs on by itself. -/
  | go
  /-- User code calls the library. -/
  | call (c : Call) (env : Env ε)
  /-- User code returns. -/
  | ret
  /-- The time of the next timer, and what the poll reports. -/
  | poll (shortest : ℕ) (answer : π)
  /-- The monotonic clock, read before the timers are run. -/
  | clock (now : ℕ)
  /-- The timer wheel invokes a timer callback. -/
  | fire
  /-- The timer wheel is done. -/
  | wheelDone

/-- What has happened. -/
inductive Event
  | called (c : Call) (result : Bool)
  | polled (batch : List LoopyFiredEvent)
  | invoked (callback : Callback) (cb clientData : ℕ)
  /-- A dispatch loop has ended. -/
  | dispatched (d : Dispatch)
  /-- `loopyDeinit`, under that many activations of `loopyProcessEvents`. -/
  | deinit (enclosing : ℕ)
  | fault
deriving DecidableEq, Repr

/-- The machine: the loop in memory, the stack (innermost activation first), the events
(latest first), whether the memory of the loop was freed and whether the program is over. -/
structure Machine (σ : Type) where
  loop : LoopyLoop σ
  frames : List Frame
  events : List Event
  freed : Bool
  crashed : Bool

/-- The activations of `loopyProcessEvents` on a stack. -/
def processDepth : List Frame → ℕ
  | [] => 0
  | .process _ :: fs => processDepth fs + 1
  | _ :: fs => processDepth fs

section

variable {σ ε π : Type}

namespace Machine

/-- Record an event. -/
def emit (m : Machine σ) (e : Event) : Machine σ := { m with events := e :: m.events }

/-- Undefined behaviour: nothing more happens. -/
def fault (m : Machine σ) : Machine σ := { m.emit .fault with crashed := true }

/-- `loopyInternalFree`, `loopyDeinit` and `zfree`, as both callers run them. -/
def loopyDeinit (m : Machine σ) : Machine σ :=
  { m.emit (.deinit (processDepth m.frames)) with loop := .zero, freed := m.loop.allocated }

/-- Invoke a user callback. -/
def invoke (m : Machine σ) (callback : Callback) (cb clientData : ℕ) (fs : List Frame) :
    Machine σ :=
  { m.emit (.invoked callback cb clientData) with frames := .user callback :: fs }

/-! ## Calls of user code -/

/-- `loopyDelete`. -/
def loopyDelete (m : Machine σ) : Machine σ :=
  if m.loop.state.isNone ∧ m.loop.timer = false ∧ m.loop.eventsPtr.isNone then m
  else if m.loop.processingDepth > 0 then
    { m with loop := { m.loop with pendingDelete := true, stop := true } }
  else m.loopyDeinit

/-- A call of user code. -/
def userCall (A : Adapter σ ε) (m : Machine σ) (c : Call) (env : Env ε) : Option (Machine σ) :=
  match c with
  | .table c => do
    let (result, l) ← c.perform A env m.loop
    return { m with loop := l }.emit (.called (.table c) result)
  | .stop => some ({ m with loop := { m.loop with stop := true } }.emit (.called .stop true))
  | .delete => some ((m.emit (.called .delete true)).loopyDelete)
  | .main flags =>
    some { m.emit (.called (.main flags) true) with frames := .loopyDo flags .enter :: m.frames }
  | .setBeforeSleepCallback cb clientData =>
    some ({ m with loop := { m.loop with before := ⟨cb, clientData⟩ } }.emit (.called c true))
  | .setAfterSleepCallback cb clientData =>
    some ({ m with loop := { m.loop with after := ⟨cb, clientData⟩ } }.emit (.called c true))
  | .registerTimer =>
    some ({ m with loop := { m.loop with timer := true } }.emit (.called c true))

/-! ## `loopyDo` -/

/-- A fresh activation of `loopyProcessEvents`. -/
def newProcess (flags : LoopyEvents) : Frame :=
  .process
    { flags := flags
      pc := .start
      hasTimers := false
      shortest := 0
      numevents := 0
      dispatch := ⟨[], 0, []⟩ }

/-- `loopyDo` from one of its points to the next call or point; `fs` is the stack below. -/
def doStep (m : Machine σ) (flags : LoopyEvents) (pc : DoPc) (fs : List Frame) : Machine σ :=
  let l := m.loop
  let goto pc := { m with frames := .loopyDo flags pc :: fs }
  let processEvents := { m with frames := newProcess flags :: .loopyDo flags .process :: fs }
  match pc with
  | .enter => { m with loop := { l with stop := false }, frames := .loopyDo flags .top :: fs }
  | .top =>
    if l.stop then goto .exit
    else if l.before.cb ≠ 0 then
      m.invoke .beforeSleep l.before.cb l.before.clientData (.loopyDo flags .before :: fs)
    else processEvents
  | .before => if l.stop ∨ l.deleting then goto .exit else processEvents
  | .process =>
    if l.deleting then goto .exit
    else if l.after.cb ≠ 0 ∧ ¬ l.stop then
      m.invoke .afterSleep l.after.cb l.after.clientData (.loopyDo flags .after :: fs)
    else goto .top
  | .after => if l.deleting then goto .exit else goto .top
  | .exit =>
    let m := { m with frames := fs }
    if l.pendingDelete then m.loopyDeinit else m

/-! ## `loopyProcessEvents` -/

/-- `l->fired` after the adapter wrote the entries of `batch`. -/
def writeFired (fired : ℕ → LoopyFiredEvent) (batch : List LoopyFiredEvent) (j : ℕ) :
    LoopyFiredEvent :=
  (batch[j]?).getD (fired j)

/-- Whether the table pointer `fe` of an entry may be read through. -/
def readable (l : LoopyLoop σ) (e : Entry) : Prop :=
  e.fe = l.eventsPtr ∧ l.eventsPtr.isSome ∧ e.fd < l.setSize

instance (l : LoopyLoop σ) (e : Entry) : Decidable (readable l e) :=
  inferInstanceAs (Decidable (_ ∧ _))

/-- One direction of one entry: `fe->mask & ...`, then the callback. The loop goes on at
`returned` after the callback and at `skipped` without it. -/
def dispatchDir (m : Machine σ) (p : Process) (e : Entry) (dir : Dir)
    (returned skipped : ProcessPc) (fs : List Frame) : Machine σ :=
  if ¬ readable m.loop e then m.fault
  else
    let fe := m.loop.events e.fd
    let registered := fe.mask.has dir
    let invoked := registered && e.mask.has dir
    let turn : Turn := ⟨e.j, dir, e.fd, e.mask, m.events.length, registered, invoked⟩
    let p := { p with dispatch := { p.dispatch with turns := p.dispatch.turns ++ [turn] } }
    if invoked then
      m.invoke (.file e.fd dir) (fe.callback dir) fe.clientData
        (.process { p with pc := returned } :: fs)
    else { m with frames := .process { p with pc := skipped } :: fs }

/-- `loopyProcessEvents` from one of its points to the next; `fs` is the stack below. The
adapter's poll, which is told `l->setSize`, gives the entries it writes to `l->fired`; their
number is what it returns. -/
def processStep (poll : π → ℕ → σ → List LoopyFiredEvent × σ) (m : Machine σ) (p : Process)
    (fs : List Frame) (i : Input ε π) : Option (Machine σ) :=
  let l := m.loop
  let goto p := { m with frames := .process p :: fs }
  let leave :=
    { m with loop := { l with processingDepth := l.processingDepth - 1 }, frames := fs }
  match p.pc, i with
  | .start, .go =>
    let hasTimers := l.timer && p.flags.time
    let waits := l.maxfd ≥ 0 ∨ (hasTimers ∧ ¬ p.flags.nowait)
    let pc := if waits then ProcessPc.polling else .timers
    some
      { m with
        loop := { l with processingDepth := l.processingDepth + 1 }
        frames := .process { p with hasTimers := hasTimers, pc := pc } :: fs }
  | .polling, .poll shortest answer =>
    match l.state with
    | none => some ((m.emit (.polled [])).fault)
    | some s =>
      let (batch, s) := poll answer l.setSize s
      let shortest := if p.hasTimers ∧ ¬ p.flags.nowait then shortest else 0
      let p :=
        { p with
          pc := .entry 0
          shortest := shortest
          numevents := batch.length
          dispatch := ⟨batch, m.events.length + 1, []⟩ }
      some
        { m.emit (.polled batch) with
          loop := { l with state := some s, fired := writeFired l.fired batch }
          frames := .process p :: fs }
  | .entry j, .go =>
    if j < p.numevents then
      if l.eventsPtr.isNone ∨ ¬ j < l.setSize then some m.fault
      else
        let e : Entry := ⟨j, (l.fired j).fd, (l.fired j).mask, l.eventsPtr⟩
        some (goto { p with pc := .testRead e })
    else some ((goto { p with pc := .timers }).emit (.dispatched p.dispatch))
  | .testRead e, .go =>
    some (m.dispatchDir p e .read (.readReturned e l.eventsPtr) (.testWrite e) fs)
  | .readReturned e eventsBefore, .go =>
    let e := if l.eventsPtr ≠ eventsBefore then { e with fe := l.eventsPtr } else e
    some (goto { p with pc := .testWrite e })
  | .testWrite e, .go =>
    some (m.dispatchDir p e .write (.entry (e.j + 1)) (.entry (e.j + 1)) fs)
  | .timers, .clock now =>
    let due := p.hasTimers ∧ ¬ l.stop ∧ p.shortest ≠ 0 ∧
      (p.numevents = 0 ∨ p.shortest + 10 ≤ now)
    some (goto { p with pc := if due then .wheel else .finish })
  | .wheel, .fire => some (m.invoke .timer 0 0 (.process p :: fs))
  | .wheel, .wheelDone => if l.deleting then some leave else some (goto { p with pc := .finish })
  | .finish, .go => some leave
  | _, _ => none

/-! ## The step function -/

/-- What the code does, unless the loop it works on was freed. -/
def guarded (m : Machine σ) (r : Option (Machine σ)) : Option (Machine σ) :=
  if m.freed then some m.fault else r

/-- One step. User code runs when the stack is empty or a callback is innermost. -/
def step (A : Adapter σ ε) (poll : π → ℕ → σ → List LoopyFiredEvent × σ) (m : Machine σ)
    (i : Input ε π) : Option (Machine σ) :=
  if m.crashed then none
  else
    match m.frames, i with
    | [], .call c env => m.guarded (m.userCall A c env)
    | .user _ :: _, .call c env => m.guarded (m.userCall A c env)
    | .user _ :: fs, .ret => some { m with frames := fs }
    | .loopyDo flags pc :: fs, .go => m.guarded (some (m.doStep flags pc fs))
    | .process p :: fs, i => m.guarded (m.processStep poll p fs i)
    | _, _ => none

/-- User code before any loop is run, on the given loop. -/
def start (l : LoopyLoop σ) : Machine σ :=
  { loop := l, frames := [], events := [], freed := false, crashed := false }

end Machine

end

end Loopy.EventLoop
