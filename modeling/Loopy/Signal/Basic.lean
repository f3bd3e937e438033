import Loopy.Lib.Run

/-!
# `loopySignal.c`: signals

A signal handler as it is on Linux, with a `signalfd`. The callbacks are user code, which registers
and unregisters signals; `signalEventCallback` reads one signal after the other. Callbacks and user
data are numbers, 0 is `NULL`.

* `sigaddset` and `sigdelset` do nothing for a signal that the C library does not take. Which ones
  it takes is a parameter; it does not take the signal 0.
* The system calls of `loopySignalUnregister` succeed, those of a registration may fail.
* The handler is not freed in a callback.
* Registrations are numbered. `registration`, `oneshot` and `calls` are ghosts: the last
  registration of a signal, whether a registration is a one-shot one, and how often its callback has
  been called; so is `removed`, the registrations that are gone, with what has removed them.

The self-pipe of the other systems, `loopySignalName` and the accessors are left out, and so is
`oldAction`, which is not used with a `signalfd`.
-/

namespace Loopy.Signal

open Function (update)

/-! ## Data -/

/-- What the platform fixes. -/
structure Platform where
  MAX_SIGNALS : ℤ
  /-- The signals that `sigaddset` and `sigdelset` take. -/
  valid : ℤ → Bool

/-- `loopySignalEntry`. -/
structure LoopySignalEntry where
  callback : ℕ
  userData : ℕ
  registered : Bool
  oneshot : Bool
deriving DecidableEq, Repr

/-- What has removed a registration: a call of the user, or the end of the callback of one. -/
inductive Cause
  | unregister
  | free
  | callback (registration : ℕ)
deriving DecidableEq, Repr

/-- A registration that is gone. -/
structure Removal where
  registration : ℕ
  cause : Cause
deriving DecidableEq, Repr

/-- Where `signalEventCallback` is; in a callback it has saved `isOneshot`. -/
inductive Pc
  | user
  | reading
  | callback (signum : ℤ) (isOneshot : Bool) (registration : ℕ)
  | freed
deriving DecidableEq, Repr

/-- `sigset_t`. -/
abbrev SigSet := ℤ → Bool

/-- `loopySignalHandler`, with the signals that its `signalfd` reports and those that are blocked. -/
structure System where
  signals : ℤ → LoopySignalEntry
  mask : SigSet
  signalFd : SigSet
  blocked : SigSet
  pc : Pc
  count : ℕ
  registration : ℤ → ℕ
  oneshot : ℕ → Bool
  calls : ℕ → ℕ
  removed : List Removal

/-- Whether the system calls of a registration succeed. -/
structure SysCalls where
  sigprocmask : Bool
  signalfd : Bool
deriving DecidableEq, Repr

/-- `sigemptyset`. -/
def sigemptyset : SigSet := fun _ => false

/-- `loopySignalNew`. -/
def System.new : System where
  signals := fun _ => ⟨0, 0, false, false⟩
  mask := sigemptyset
  signalFd := sigemptyset
  blocked := sigemptyset
  pc := .user
  count := 0
  registration := fun _ => 0
  oneshot := fun _ => false
  calls := fun _ => 0
  removed := []

variable (p : Platform)

/-- `sigaddset`. -/
def sigaddset (set : SigSet) (signum : ℤ) : SigSet :=
  if p.valid signum then update set signum true else set

/-- `sigdelset`. -/
def sigdelset (set : SigSet) (signum : ℤ) : SigSet :=
  if p.valid signum then update set signum false else set

/-- `sigprocmask` with `SIG_BLOCK`. -/
def block (blocked set : SigSet) : SigSet := fun k => blocked k || set k

/-- `sigprocmask` with `SIG_UNBLOCK`. -/
def unblock (blocked set : SigSet) : SigSet := fun k => blocked k && !set k

namespace System

/-! ## The calls -/

/-- The entry of a signal is filled in. -/
def fillEntry (s : System) (signum : ℤ) (cb userData : ℕ) (oneshot : Bool) : System :=
  { s with
    signals := update s.signals signum ⟨cb, userData, true, oneshot⟩
    count := s.count + 1
    registration := update s.registration signum s.count
    oneshot := update s.oneshot s.count oneshot
    calls := update s.calls s.count 0 }

/-- The entry of a signal is cleared. -/
def clearEntry (s : System) (signum : ℤ) (cause : Cause) : System :=
  let entry : LoopySignalEntry :=
    { s.signals signum with
      callback := 0
      userData := 0
      registered := false }
  { s with
    signals := update s.signals signum entry
    removed := s.removed ++ [⟨s.registration signum, cause⟩] }

/-- `signalRegisterInternal`. -/
def signalRegisterInternal (s : System) (signum : ℤ) (cb userData : ℕ) (oneshot : Bool)
    (sys : SysCalls) : Bool × System :=
  if cb = 0 ∨ signum < 0 ∨ signum ≥ p.MAX_SIGNALS then (false, s)
  else if (s.signals signum).registered then (false, s)
  else
    let mask := sigaddset p s.mask signum
    -- an error of `sigaddset` is not seen
    let blockSet := sigaddset p sigemptyset signum
    -- every failure leaves the mask as it was
    if sys.sigprocmask = false then (false, { s with mask := sigdelset p mask signum })
    else
      let blocked := block s.blocked blockSet
      if sys.signalfd = false then
        (false, { s with
          mask := sigdelset p mask signum
          blocked := unblock blocked blockSet })
      else
        let t : System :=
          { s with
            mask := mask
            blocked := blocked
            signalFd := mask }
        (true, t.fillEntry signum cb userData oneshot)

/-- `loopySignalRegister`. -/
def loopySignalRegister (s : System) (signum : ℤ) (cb userData : ℕ) (sys : SysCalls) :
    Bool × System :=
  s.signalRegisterInternal p signum cb userData false sys

/-- `loopySignalRegisterOneshot`. -/
def loopySignalRegisterOneshot (s : System) (signum : ℤ) (cb userData : ℕ) (sys : SysCalls) :
    Bool × System :=
  s.signalRegisterInternal p signum cb userData true sys

/-- `loopySignalUnregister`, with what calls it. -/
def loopySignalUnregister (s : System) (signum : ℤ) (cause : Cause) : Bool × System :=
  if signum < 0 ∨ signum ≥ p.MAX_SIGNALS then (false, s)
  else if (s.signals signum).registered = false then (false, s)
  else
    let mask := sigdelset p s.mask signum
    let blockSet := sigaddset p sigemptyset signum
    let t : System :=
      { s with
        mask := mask
        blocked := unblock s.blocked blockSet
        signalFd := mask }
    (true, t.clearEntry signum cause)

/-- The loop body of `loopySignalFree`. -/
def freeSignal (s : System) (i : ℕ) : System :=
  if (s.signals i).registered then (s.loopySignalUnregister p i .free).2 else s

/-- `loopySignalFree`. -/
def loopySignalFree (s : System) : System :=
  { (List.range p.MAX_SIGNALS.toNat).foldl (freeSignal p) s with pc := .freed }

/-! ## `signalEventCallback` -/

/-- The loop body up to the callback; `signum` is what `read` has found. -/
def dispatch (s : System) (signum : ℤ) : System :=
  if signum ≥ 0 ∧ signum < p.MAX_SIGNALS ∧ (s.signals signum).registered = true then
    let n := s.registration signum
    { s with
      calls := update s.calls n (s.calls n + 1)
      pc := .callback signum (s.signals signum).oneshot n }
  else s

/-- The loop body after the callback. -/
def autoUnregister (s : System) (signum : ℤ) (isOneshot : Bool) (registration : ℕ) : System :=
  -- the flag is that of the registration that has fired, the bit is that of the one there is now
  let t : System :=
    if isOneshot ∧ (s.signals signum).registered then
      (s.loopySignalUnregister p signum (.callback registration)).2
    else s
  { t with pc := .reading }

end System

/-! ## The machine -/

/-- One step of the program. -/
inductive Action
  | register (signum : ℤ) (cb userData : ℕ) (sys : SysCalls)
  | registerOneshot (signum : ℤ) (cb userData : ℕ) (sys : SysCalls)
  | unregister (signum : ℤ)
  | free
  /-- The `signalfd` is readable. -/
  | event
  | read (signum : ℤ)
  /-- The callback returns. -/
  | ret
  /-- Nothing is left to read. -/
  | drained
deriving DecidableEq, Repr

namespace System

/-- User code runs: outside of `signalEventCallback`, or in a callback. -/
def userRuns (s : System) : Bool :=
  match s.pc with
  | .user | .callback .. => true
  | _ => false

/-- One step; `none` is a step that is not possible. -/
def step (s : System) : Action → Option System
  | .register signum cb userData sys =>
    if s.userRuns then some (s.loopySignalRegister p signum cb userData sys).2 else none
  | .registerOneshot signum cb userData sys =>
    if s.userRuns then some (s.loopySignalRegisterOneshot p signum cb userData sys).2 else none
  | .unregister signum =>
    if s.userRuns then some (s.loopySignalUnregister p signum .unregister).2 else none
  | .free => if s.pc = .user then some (s.loopySignalFree p) else none
  | .event => if s.pc = .user then some { s with pc := .reading } else none
  | .read signum => if s.pc = .reading then some (s.dispatch p signum) else none
  | .ret =>
    match s.pc with
    | .callback signum isOneshot registration =>
      some (s.autoUnregister p signum isOneshot registration)
    | _ => none
  | .drained => if s.pc = .reading then some { s with pc := .user } else none

end System

end Loopy.Signal
