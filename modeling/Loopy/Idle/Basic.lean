import Loopy.Lib.DoublyLinked
import Loopy.Lib.Run

/-!
# `loopyIdle.c`: idle, prepare and check handles

The handles of any number of loops, the manager that a loop has while it has handles, the sleep
callbacks of the loops and the idle timers, under calls that are made outside of the dispatch. The
three kinds of handles have the same functions, apart from the idle timer: each is written once,
for a kind.

* Handles and managers are numbered as they are allocated, which succeeds. The `next` and `prev`
  fields of the handles are two maps, so that an insertion and a removal are those of
  `Lib.DList`.
* `loopyRegisterTimer` returns an id that no registered timer of the loop has; the timers of other
  code are left out.
* `installed` is what other code has set as the sleep callbacks of a loop. It sets them only while
  the loop has no manager.

The sleep callbacks themselves, which run the handles, and `userData` accessors are left out.
-/

namespace Loopy.Idle

open Loopy.Lib
open Function (update)

/-! ## Data -/

/-- The kinds of handles. -/
inductive Kind
  | idle
  | prepare
  | check
deriving DecidableEq, Repr

/-- `loopyIdleHandle`, `loopyPrepareHandle` or `loopyCheckHandle`, apart from its links. -/
structure Handle where
  kind : Kind
  loop : ℕ
  cb : ℕ
  userData : ℕ
  active : Bool
deriving DecidableEq, Repr

/-- A sleep callback with its data: one of other code, or one of this file with the manager. -/
inductive SleepCallback
  | other (cb data : ℕ)
  | idleBeforeSleepCallback (mgr : ℕ)
  | idleAfterSleepCallback (mgr : ℕ)
deriving DecidableEq, Repr

/-- `loop->sleep`. -/
structure Sleep where
  before : SleepCallback
  after : SleepCallback
deriving DecidableEq, Repr

/-- `loopyIdleManager`: `list` are `idleList`, `prepareList` and `checkList`, and `activeCount` the
three counts. -/
structure LoopyIdleManager where
  loop : ℕ
  list : Kind → Option ℕ
  activeCount : Kind → ℕ
  orig : Sleep
  idleTimerId : ℕ
  idleTimerActive : Bool

/-- The memory of the file, and what it changes in the loops. -/
structure System where
  handle : ℕ → Handle
  next : ℕ → Option ℕ
  prev : ℕ → Option ℕ
  live : ℕ → Bool
  allocated : ℕ
  manager : ℕ → LoopyIdleManager
  managers : List ℕ
  managerCount : ℕ
  sleep : ℕ → Sleep
  installed : ℕ → Sleep
  timers : ℕ → List ℕ

/-- No handle yet; the loops have any sleep callbacks. -/
def System.start (sleep : ℕ → Sleep) : System where
  handle := fun _ => ⟨.idle, 0, 0, 0, false⟩
  next := fun _ => none
  prev := fun _ => none
  live := fun _ => false
  allocated := 0
  manager := fun _ => ⟨0, fun _ => none, fun _ => 0, ⟨.other 0 0, .other 0 0⟩, 0, false⟩
  managers := []
  managerCount := 0
  sleep := sleep
  installed := sleep
  timers := fun _ => []

namespace System

/-! ## Memory -/

/-- Write a handle. -/
def setHandle (s : System) (n : ℕ) (h : Handle) : System :=
  { s with handle := update s.handle n h }

/-- `handle->active = active`. -/
def setActive (s : System) (n : ℕ) (active : Bool) : System :=
  s.setHandle n { s.handle n with active := active }

/-- Write a manager. -/
def setManager (s : System) (mgr : ℕ) (m : LoopyIdleManager) : System :=
  { s with manager := update s.manager mgr m }

/-- The list of a kind. -/
def links (s : System) (mgr : ℕ) (k : Kind) : DList ℕ :=
  ⟨s.next, s.prev, (s.manager mgr).list k⟩

/-- The links of the handles and the head of a list. -/
def setLinks (s : System) (mgr : ℕ) (k : Kind) (d : DList ℕ) : System :=
  let m := s.manager mgr
  { s.setManager mgr { m with list := update m.list k d.head } with
    next := d.next
    prev := d.prev }

/-- The count of a kind. -/
def setActiveCount (s : System) (mgr : ℕ) (k : Kind) (count : ℕ) : System :=
  let m := s.manager mgr
  s.setManager mgr { m with activeCount := update m.activeCount k count }

/-! ## Managers -/

/-- `idleGetManager`. -/
def idleGetManager (s : System) (loop : ℕ) : Option ℕ :=
  s.managers.find? fun mgr => (s.manager mgr).loop = loop

/-- `idleCreateManager`. -/
def idleCreateManager (s : System) (loop : ℕ) : ℕ × System :=
  match s.idleGetManager loop with
  | some mgr => (mgr, s)
  | none =>
    let mgr := s.managerCount
    let m : LoopyIdleManager := ⟨loop, fun _ => none, fun _ => 0, s.sleep loop, 0, false⟩
    let sleep : Sleep := ⟨.idleBeforeSleepCallback mgr, .idleAfterSleepCallback mgr⟩
    (mgr,
      { s.setManager mgr m with
        sleep := update s.sleep loop sleep
        managers := mgr :: s.managers
        managerCount := mgr + 1 })

/-- `loopyUnregisterTimer`. -/
def loopyUnregisterTimer (s : System) (loop timerId : ℕ) : System :=
  { s with timers := update s.timers loop ((s.timers loop).erase timerId) }

/-- `idleDestroyManager`. -/
def idleDestroyManager (s : System) (mgr : ℕ) : System :=
  let m := s.manager mgr
  let s := if m.idleTimerActive then s.loopyUnregisterTimer m.loop m.idleTimerId else s
  { s with
    sleep := update s.sleep m.loop m.orig
    managers := s.managers.erase mgr }

/-- `idleUpdateTimer`; `timerId` is what `loopyRegisterTimer` would return (0: failure). -/
def idleUpdateTimer (s : System) (mgr timerId : ℕ) : System :=
  let m := s.manager mgr
  if m.activeCount .idle > 0 ∧ m.idleTimerActive = false then
    if timerId ≠ 0 then
      { s.setManager mgr { m with idleTimerId := timerId, idleTimerActive := true } with
        timers := update s.timers m.loop (timerId :: s.timers m.loop) }
    else s.setManager mgr { m with idleTimerId := 0 }
  else if m.activeCount .idle = 0 ∧ m.idleTimerActive = true then
    (s.loopyUnregisterTimer m.loop m.idleTimerId).setManager mgr { m with idleTimerActive := false }
  else s

/-- What follows a change of a count: only that of the idle handles drives the timer. -/
def countChanged (s : System) (mgr : ℕ) (k : Kind) (timerId : ℕ) : System :=
  match k with
  | .idle => s.idleUpdateTimer mgr timerId
  | .prepare | .check => s

/-! ## Handles of a kind -/

/-- A new handle at the front of the list of its kind, and counted. -/
def insertHandle (s : System) (mgr : ℕ) (h : Handle) : System :=
  let n := s.allocated
  let s := { s.setHandle n h with live := update s.live n true, allocated := n + 1 }
  let s := s.setLinks mgr h.kind ((s.links mgr h.kind).push n)
  s.setActiveCount mgr h.kind ((s.manager mgr).activeCount h.kind + 1)

/-- A new handle of a kind; without a loop or a callback there is none. -/
def startHandle (s : System) (k : Kind) (loop cb userData timerId : ℕ) : System :=
  if loop = 0 ∨ cb = 0 then s
  else
    let (mgr, s) := s.idleCreateManager loop
    (s.insertHandle mgr ⟨k, loop, cb, userData, true⟩).countChanged mgr k timerId

/-- A handle of a kind is stopped. -/
def stopHandle (s : System) (k : Kind) (n timerId : ℕ) : System :=
  if (s.handle n).active = false then s
  else
    let s := s.setActive n false
    match s.idleGetManager (s.handle n).loop with
    | some mgr =>
      if (s.manager mgr).activeCount k > 0 then
        (s.setActiveCount mgr k ((s.manager mgr).activeCount k - 1)).countChanged mgr k timerId
      else s
    | none => s

/-- A handle of a kind is started again. -/
def restartHandle (s : System) (k : Kind) (n timerId : ℕ) : Bool × System :=
  if (s.handle n).active then (false, s)
  else
    let s := s.setActive n true
    match s.idleGetManager (s.handle n).loop with
    | some mgr =>
      (true,
        (s.setActiveCount mgr k ((s.manager mgr).activeCount k + 1)).countChanged mgr k timerId)
    | none => (true, s)

/-- A handle is taken out of the list of its kind. -/
def removeHandle (s : System) (mgr : ℕ) (k : Kind) (n : ℕ) : System :=
  s.setLinks mgr k ((s.links mgr k).remove n)

/-- `zfree(handle)`. -/
def zfree (s : System) (n : ℕ) : System := { s with live := update s.live n false }

/-- A handle of a kind is freed. -/
def freeHandle (s : System) (k : Kind) (n timerId : ℕ) : System :=
  let s := if (s.handle n).active then s.stopHandle k n timerId else s
  let s :=
    match s.idleGetManager (s.handle n).loop with
    | some mgr =>
      let s := s.removeHandle mgr k n
      let m := s.manager mgr
      if m.list .idle = none ∧ m.list .prepare = none ∧ m.list .check = none then
        s.idleDestroyManager mgr
      else s
    | none => s
  s.zfree n

/-- The active handles that the manager of a loop counts. -/
def activeCount (s : System) (k : Kind) (loop : ℕ) : ℕ :=
  ((s.idleGetManager loop).map fun mgr => (s.manager mgr).activeCount k).getD 0

/-! ## The functions of the three kinds -/

/-- `loopyIdleStart`. -/
def loopyIdleStart (s : System) (loop cb userData timerId : ℕ) : System :=
  s.startHandle .idle loop cb userData timerId

/-- `loopyIdleStop`. -/
def loopyIdleStop (s : System) (n timerId : ℕ) : System := s.stopHandle .idle n timerId

/-- `loopyIdleRestart`. -/
def loopyIdleRestart (s : System) (n timerId : ℕ) : Bool × System :=
  s.restartHandle .idle n timerId

/-- `loopyIdleFree`. -/
def loopyIdleFree (s : System) (n timerId : ℕ) : System := s.freeHandle .idle n timerId

/-- `loopyIdleCount`. -/
def loopyIdleCount (s : System) (loop : ℕ) : ℕ := s.activeCount .idle loop

/-- `loopyPrepareStart`. -/
def loopyPrepareStart (s : System) (loop cb userData : ℕ) : System :=
  s.startHandle .prepare loop cb userData 0

/-- `loopyPrepareStop`. -/
def loopyPrepareStop (s : System) (n : ℕ) : System := s.stopHandle .prepare n 0

/-- `loopyPrepareRestart`. -/
def loopyPrepareRestart (s : System) (n : ℕ) : Bool × System := s.restartHandle .prepare n 0

/-- `loopyPrepareFree`. -/
def loopyPrepareFree (s : System) (n : ℕ) : System := s.freeHandle .prepare n 0

/-- `loopyPrepareCount`. -/
def loopyPrepareCount (s : System) (loop : ℕ) : ℕ := s.activeCount .prepare loop

/-- `loopyCheckStart`. -/
def loopyCheckStart (s : System) (loop cb userData : ℕ) : System :=
  s.startHandle .check loop cb userData 0

/-- `loopyCheckStop`. -/
def loopyCheckStop (s : System) (n : ℕ) : System := s.stopHandle .check n 0

/-- `loopyCheckRestart`. -/
def loopyCheckRestart (s : System) (n : ℕ) : Bool × System := s.restartHandle .check n 0

/-- `loopyCheckFree`. -/
def loopyCheckFree (s : System) (n : ℕ) : System := s.freeHandle .check n 0

/-- `loopyCheckCount`. -/
def loopyCheckCount (s : System) (loop : ℕ) : ℕ := s.activeCount .check loop

end System

/-! ## The machine -/

/-- A call; `timerId` is the id that a timer gets, if one is registered. -/
inductive Action
  | start (k : Kind) (loop cb userData timerId : ℕ)
  | stop (k : Kind) (n timerId : ℕ)
  | restart (k : Kind) (n timerId : ℕ)
  | free (k : Kind) (n timerId : ℕ)
  /-- Other code sets a sleep callback of a loop. -/
  | setBeforeSleep (loop cb data : ℕ)
  | setAfterSleep (loop cb data : ℕ)
deriving DecidableEq, Repr

namespace System

/-- A handle of a kind that has not been freed. -/
def has (s : System) (k : Kind) (n : ℕ) : Bool :=
  n < s.allocated && s.live n && (s.handle n).kind = k

/-- `loopyRegisterTimer` can return that id for a loop. -/
def fresh (s : System) (loop timerId : ℕ) : Bool := timerId ≠ 0 && !(s.timers loop).contains timerId

/-- The sleep callbacks of a loop, set by other code. -/
def setSleep (s : System) (loop : ℕ) (sleep : Sleep) : System :=
  { s with
    sleep := update s.sleep loop sleep
    installed := update s.installed loop sleep }

/-- One call; `none` is a call that is not possible. -/
def step (s : System) : Action → Option System
  | .start k loop cb userData timerId =>
    if s.fresh loop timerId then
      match k with
      | .idle => some (s.loopyIdleStart loop cb userData timerId)
      | .prepare => some (s.loopyPrepareStart loop cb userData)
      | .check => some (s.loopyCheckStart loop cb userData)
    else none
  | .stop k n timerId =>
    if s.has k n ∧ s.fresh (s.handle n).loop timerId then
      match k with
      | .idle => some (s.loopyIdleStop n timerId)
      | .prepare => some (s.loopyPrepareStop n)
      | .check => some (s.loopyCheckStop n)
    else none
  | .restart k n timerId =>
    if s.has k n ∧ s.fresh (s.handle n).loop timerId then
      match k with
      | .idle => some (s.loopyIdleRestart n timerId).2
      | .prepare => some (s.loopyPrepareRestart n).2
      | .check => some (s.loopyCheckRestart n).2
    else none
  | .free k n timerId =>
    if s.has k n ∧ s.fresh (s.handle n).loop timerId then
      match k with
      | .idle => some (s.loopyIdleFree n timerId)
      | .prepare => some (s.loopyPrepareFree n)
      | .check => some (s.loopyCheckFree n)
    else none
  | .setBeforeSleep loop cb data =>
    if s.idleGetManager loop = none then
      some (s.setSleep loop { s.sleep loop with before := .other cb data })
    else none
  | .setAfterSleep loop cb data =>
    if s.idleGetManager loop = none then
      some (s.setSleep loop { s.sleep loop with after := .other cb data })
    else none

end System

end Loopy.Idle
