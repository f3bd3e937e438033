import Loopy.Lib.Run

/-!
# `loopyTimer.c`: timer handles

The handles of a program, and the timer wheels of its loops, which call the wrapper of a handle
when it expires. A user callback may cancel its own handle, cancel others and create new ones.

* Handles are numbered as they are allocated. A wheel is a list of registered ids, each with the
  handle that it is for; an id is given out only while it is not registered. An entry may expire
  while it is registered; it goes when its id is unregistered or its callback returns false.
* `running` are the activations of the wrapper on the stack, the innermost one first. A callback may
  run another loop, but not its own.
* `frees` counts how often a handle was freed, `misuse` are the uses of freed handles, and `log` are
  the starts of user callbacks and the cancellations, the last one last.

The variants in other units of time and `loopyTimerSetData` are left out.
-/

namespace Loopy.Timer

open Function (update)

/-! ## Data -/

/-- `loopyTimer`. -/
structure LoopyTimer where
  loop : ℕ
  timerId : ℕ
  cb : ℕ
  userData : ℕ
  isPeriodic : Bool
  isActive : Bool
  inCallback : Bool
deriving DecidableEq, Repr

/-- What is recorded. -/
inductive Event
  | started (n : ℕ)
  | cancelled (n : ℕ)
deriving DecidableEq, Repr

/-- An activation of the wrapper: the entry of the wheel that has expired, and its local variable. -/
structure Frame where
  loop : ℕ
  id : ℕ
  timer : ℕ
  isPeriodic : Bool
deriving DecidableEq, Repr

/-- The handles, the wheels and the records. -/
structure System where
  timer : ℕ → LoopyTimer
  allocated : ℕ
  lastError : String
  wheel : ℕ → List (ℕ × ℕ)
  running : List Frame
  frees : ℕ → ℕ
  misuse : List ℕ
  log : List Event

/-- No timer yet. -/
def System.start : System where
  timer := fun _ => ⟨0, 0, 0, 0, false, false, false⟩
  allocated := 0
  lastError := ""
  wheel := fun _ => []
  running := []
  frees := fun _ => 0
  misuse := []
  log := []

namespace System

/-! ## Memory and wheels -/

/-- A handle is read or written. -/
def touch (s : System) (n : ℕ) : System :=
  { s with misuse := s.misuse ++ if s.frees n = 0 then [] else [n] }

/-- Write a handle. -/
def setTimer (s : System) (n : ℕ) (t : LoopyTimer) : System :=
  { s with timer := update s.timer n t }

/-- `zfree(timer)`. -/
def zfree (s : System) (n : ℕ) : System :=
  { s with frees := update s.frees n (s.frees n + 1) }

/-- `setError`. -/
def setError (s : System) (msg : String) : System := { s with lastError := msg }

/-- `loopyRegisterTimer` with `timerWheelCallbackWrapper`. -/
def loopyRegisterTimer (s : System) (loop timerId n : ℕ) : System :=
  { s with wheel := update s.wheel loop ((timerId, n) :: s.wheel loop) }

/-- `loopyUnregisterTimer`. -/
def loopyUnregisterTimer (s : System) (loop timerId : ℕ) : System :=
  { s with wheel := update s.wheel loop ((s.wheel loop).filter (·.1 ≠ timerId)) }

/-- The wheel drops an entry whose callback has returned false. -/
def stop (s : System) (loop timerId n : ℕ) : System :=
  { s with wheel := update s.wheel loop ((s.wheel loop).erase (timerId, n)) }

/-! ## Creation and cancellation -/

/-- `createTimer`; `timerId` is what the wheel returns (0: failure). -/
def createTimer (s : System) (loop intervalUs cb userData timerId : ℕ) : System :=
  if loop = 0 then s.setError "NULL event loop"
  else if cb = 0 then s.setError "NULL callback"
  else
    let n := s.allocated
    let t : LoopyTimer := ⟨loop, timerId, cb, userData, intervalUs > 0, true, false⟩
    let s := { s.setTimer n t with allocated := n + 1 }
    if timerId = 0 then (s.setError "Failed to register timer with event loop").zfree n
    else (s.loopyRegisterTimer loop timerId n).setError ""

/-- `loopyTimerOneShot`. -/
def loopyTimerOneShot (s : System) (loop cb userData timerId : ℕ) : System :=
  s.createTimer loop 0 cb userData timerId

/-- `loopyTimerPeriodic`. -/
def loopyTimerPeriodic (s : System) (loop intervalUs cb userData timerId : ℕ) : System :=
  s.createTimer loop intervalUs cb userData timerId

/-- `loopyTimerCancel`. -/
def loopyTimerCancel (s : System) (n : ℕ) : System :=
  let s : System := { s.touch n with log := s.log ++ [.cancelled n] }
  let t := s.timer n
  let s :=
    if t.isActive then
      (s.loopyUnregisterTimer t.loop t.timerId).setTimer n { t with isActive := false }
    else s
  if t.inCallback then s else s.zfree n

/-! ## `timerWheelCallbackWrapper` -/

/-- The wrapper up to the user callback; for a cancelled timer it returns false. -/
def timerWheelCallbackWrapper (s : System) (loop id n : ℕ) : System :=
  let s := s.touch n
  let t := s.timer n
  if t.isActive = false then s.stop loop id n
  else
    { s.setTimer n { t with inCallback := true } with
      running := ⟨loop, id, n, t.isPeriodic⟩ :: s.running
      log := s.log ++ [.started n] }

/-- The wrapper after the user callback, in the activation `f`. -/
def callbackReturned (s : System) (f : Frame) : System :=
  let s := s.touch f.timer
  let t := { s.timer f.timer with inCallback := false }
  let s : System := { s.setTimer f.timer t with running := s.running.tail }
  if t.isActive = false then (s.zfree f.timer).stop f.loop f.id f.timer
  else if f.isPeriodic then s
  else
    ((s.setTimer f.timer { t with isActive := false }).zfree f.timer).stop f.loop f.id f.timer

end System

/-! ## The machine -/

/-- A call, an expiry, or the return of the innermost user callback. -/
inductive Action
  | create (loop intervalUs cb userData timerId : ℕ)
  | cancel (n : ℕ)
  | expire (loop timerId n : ℕ)
  | ret
deriving DecidableEq, Repr

namespace System

/-- The wheel can give out that id, or 0. -/
def fresh (s : System) (loop timerId : ℕ) : Bool :=
  (s.wheel loop).all fun e => decide (e.1 ≠ timerId)

/-- One step; `none` is a step that is not possible. A handle that was freed is not cancelled, and
no callback runs its own loop. -/
def step (s : System) : Action → Option System
  | .create loop intervalUs cb userData timerId =>
    if s.fresh loop timerId then some (s.createTimer loop intervalUs cb userData timerId) else none
  | .cancel n =>
    if n < s.allocated ∧ s.frees n = 0 then some (s.loopyTimerCancel n) else none
  | .expire loop timerId n =>
    if (timerId, n) ∈ s.wheel loop ∧ ∀ f ∈ s.running, f.loop ≠ loop then
      some (s.timerWheelCallbackWrapper loop timerId n)
    else none
  | .ret =>
    match s.running with
    | [] => none
    | f :: _ => some (s.callbackReturned f)

end System

end Loopy.Timer
