import Mathlib.Data.Fintype.Basic
import Loopy.Lib.DoublyLinked
import Loopy.Lib.Run

/-!
# `loopyProcess.c`: child processes

The handles of a program, the manager that reaps their children, and the kernel's side of a child:
it runs, is a zombie, and is reaped. A dispatch of the signal descriptor is run by a machine whose
inputs are the answers of the system calls; the exit callbacks are user code, which spawns and
frees.

* Handles and children are numbered by `loopyProcessSpawn`, which succeeds; the pid of a child is
  one that no other unreaped child has. Managers are numbered too, and the number of a manager
  stands for its signal handler and for the signal descriptor: each manager has its own, and they
  are closed and freed together.
* There is at most one manager, since `loopySignalNew` refuses a second signal handler; a spawn on
  another loop fails then.
* `misuse` records every use of a freed handle, of a destroyed manager and of a closed descriptor.

Pipes, `userData` accessors and what the child does before `execve` are left out.
-/

namespace Loopy.Process

open Loopy.Lib
open Function (update)

/-! ## Data -/

/-- What `waitpid` tells of a child: `WEXITSTATUS` or `WTERMSIG`. -/
inductive WaitStatus
  | exited (status : ℕ)
  | signaled (signum : ℕ)
deriving DecidableEq, Repr

/-- `exitStatus` for a `WaitStatus`. -/
def WaitStatus.exitStatus : WaitStatus → ℕ
  | exited status => status
  | signaled _ => 0

/-- `termSignal` for a `WaitStatus`. -/
def WaitStatus.termSignal : WaitStatus → ℕ
  | exited _ => 0
  | signaled signum => signum

/-- `loopyProcess`. -/
structure LoopyProcess where
  loop : ℕ
  pid : ℕ
  exitCb : ℕ
  userData : ℕ
  exited : Bool
  exitStatus : ℕ
  termSignal : ℕ
  next : Option ℕ
  prev : Option ℕ
deriving DecidableEq, Repr

/-- `loopyProcessManager`. -/
structure LoopyProcessManager where
  id : ℕ
  loop : ℕ
  processList : Option ℕ
deriving DecidableEq, Repr

/-- A child in the kernel; `held` tells whether its handle existed when it was reaped. -/
inductive Child
  | running
  | zombie (status : WaitStatus)
  | reaped (status : WaitStatus) (held : Bool)
deriving DecidableEq, Repr

/-- The child is out of the process table. -/
def Child.gone : Child → Bool
  | reaped _ _ => true
  | _ => false

/-- An invoked exit callback. -/
structure ExitCall where
  process : ℕ
  exitCb : ℕ
  exitStatus : ℕ
  termSignal : ℕ
  userData : ℕ
deriving DecidableEq, Repr

/-- A use of what is gone. -/
inductive Misuse
  | freedProcess (n : ℕ)
  | destroyedManager
  | closedDescriptor
deriving DecidableEq, Repr

/-- Where the dispatch of the signal descriptor of a manager is: at the `read`, at the `waitpid`
or in an exit callback. -/
inductive Pc
  | user
  | read (manager : ℕ)
  | waitpid (manager : ℕ)
  | callback (manager : ℕ)
  | crashed
deriving DecidableEq, Repr

/-- The system. -/
structure System where
  process : ℕ → LoopyProcess
  freed : ℕ → Bool
  child : ℕ → Child
  childPid : ℕ → ℕ
  spawned : ℕ
  manager : Option LoopyProcessManager
  managers : ℕ
  sigchld : Bool
  pc : Pc
  calls : List ExitCall
  misuse : List Misuse

/-- Nothing has been spawned. -/
def System.start : System where
  process := fun _ => ⟨0, 0, 0, 0, false, 0, 0, none, none⟩
  freed := fun _ => false
  child := fun _ => .running
  childPid := fun _ => 0
  spawned := 0
  manager := none
  managers := 0
  sigchld := false
  pc := .user
  calls := []
  misuse := []

namespace System

/-! ## Memory -/

/-- A write to a handle. -/
def setProcess (s : System) (n : ℕ) (p : LoopyProcess) : System :=
  { s with process := update s.process n p }

/-- `process->next = p`. -/
def setNext (s : System) (n : ℕ) (p : Option ℕ) : System :=
  s.setProcess n { s.process n with next := p }

/-- `process->prev = p`. -/
def setPrev (s : System) (n : ℕ) (p : Option ℕ) : System :=
  s.setProcess n { s.process n with prev := p }

/-- The handles of `ns` are read or written. -/
def touch (s : System) (ns : List ℕ) : System :=
  { s with misuse := s.misuse ++ (ns.filter s.freed).map .freedProcess }

/-- `mgr->processList = n`. -/
def setProcessList (s : System) (n : Option ℕ) : System :=
  { s with manager := s.manager.map fun mgr => { mgr with processList := n } }

/-- The list of the manager. -/
def processList (s : System) : Option ℕ := s.manager.bind (·.processList)

/-- `processGetManager`. -/
def processGetManager (s : System) (loop : ℕ) : Option LoopyProcessManager :=
  s.manager.filter (·.loop = loop)

/-- `processCreateManager`: `none` if another loop has the signal handler. -/
def processCreateManager (s : System) (loop : ℕ) : Option System :=
  match s.processGetManager loop with
  | some _ => some s
  | none =>
    if s.manager.isSome then none
    else some { s with manager := some ⟨s.managers, loop, none⟩, managers := s.managers + 1 }

/-- `processDestroyManager`: the signal is unblocked, which drops a pending one. -/
def processDestroyManager (s : System) : System :=
  { s with manager := none, sigchld := false }

/-! ## `loopyProcessSpawn` and `loopyProcessFree` -/

/-- `loopyProcessSpawn` adds a handle to the list. -/
def addToList (s : System) (n : ℕ) : System :=
  let s := s.setNext n s.processList
  let s := match s.processList with
    | some m => (s.touch [m]).setPrev m (some n)
    | none => s
  s.setProcessList (some n)

/-- A new handle, and the child that is forked for it. -/
def fork (s : System) (process : LoopyProcess) : System :=
  { s.setProcess s.spawned process with
    freed := update s.freed s.spawned false
    child := update s.child s.spawned .running
    childPid := update s.childPid s.spawned process.pid
    spawned := s.spawned + 1 }

/-- `loopyProcessSpawn`, when everything it calls succeeds and the child gets the pid `pid`. -/
def loopyProcessSpawn (s : System) (loop exitCb userData pid : ℕ) : Option System := do
  let s ← s.processCreateManager loop
  let process : LoopyProcess := ⟨loop, pid, exitCb, userData, false, 0, 0, none, none⟩
  return (s.fork process).addToList s.spawned

/-- `loopyProcessFree` removes a handle from the list. -/
def removeFromList (s : System) (n : ℕ) : System :=
  let process := s.process n
  let s := match process.prev with
    | some p => (s.touch [p]).setNext p process.next
    | none => s.setProcessList process.next
  match process.next with
  | some m => (s.touch [m]).setPrev m process.prev
  | none => s

/-- `loopyProcessFree`. -/
def loopyProcessFree (s : System) (n : ℕ) : System :=
  let s :=
    match s.processGetManager (s.process n).loop with
    | none => s
    | some _ =>
      let s := s.removeFromList n
      if s.processList = none then s.processDestroyManager else s
  { s with freed := update s.freed n true }

/-! ## `processCheckChildren` -/

/-- The handles of the manager's list. -/
def listed (s : System) : List ℕ := walk (fun n => (s.process n).next) s.spawned s.processList

/-- The search of `processCheckChildren`: the first handle of the list with that pid. -/
def findPid (s : System) (pid : ℕ) : Option ℕ := s.listed.find? fun n => (s.process n).pid = pid

/-- The handles that the search reads. -/
def searched (s : System) (pid : ℕ) : List ℕ :=
  (s.listed.takeWhile fun n => (s.process n).pid ≠ pid) ++ (s.findPid pid).toList

/-- The body of the loop of `processCheckChildren`, for the pid and the status that `waitpid`
has returned. -/
def checkChild (s : System) (manager pid : ℕ) (status : WaitStatus) : System :=
  let s := s.touch (s.searched pid)
  match s.findPid pid with
  | none => s
  | some n =>
    let process :=
      { s.process n with
        exited := true
        exitStatus := status.exitStatus
        termSignal := status.termSignal }
    let s := s.setProcess n process
    if process.exitCb ≠ 0 then
      { s with
        calls := s.calls ++
          [⟨n, process.exitCb, process.exitStatus, process.termSignal, process.userData⟩]
        pc := .callback manager }
    else s

/-- `waitpid` reaps a child. -/
def reap (s : System) (n : ℕ) (status : WaitStatus) : System :=
  { s with child := update s.child n (.reaped status (!s.freed n)) }

/-! ## The machine -/

/-- User code runs: outside of a dispatch, or in an exit callback. -/
def userRuns (s : System) : Bool :=
  match s.pc with
  | .user | .callback _ => true
  | _ => false

/-- The number of the manager. -/
def managerId (s : System) : Option ℕ := s.manager.map (·.id)

/-- The pid of a child that is still in the process table. -/
def pidTaken (s : System) (pid : ℕ) : Bool :=
  (List.range s.spawned).any fun n => !(s.child n).gone && s.childPid n = pid

end System

/-- One step of the program or the kernel. -/
inductive Action
  | spawn (loop exitCb userData pid : ℕ)
  | free (n : ℕ)
  /-- A child terminates. -/
  | exit (n : ℕ) (status : WaitStatus)
  /-- Another `SIGCHLD`, of a child that was stopped or continued. -/
  | stopped
  /-- The loop calls `signalEventCallback`. -/
  | dispatch
  /-- The `read` of `signalEventCallback`. -/
  | read
  /-- `waitpid` returns the child of a handle. -/
  | reap (n : ℕ)
  /-- `waitpid` returns nothing. -/
  | noChild
  /-- The exit callback returns. -/
  | ret
deriving DecidableEq, Repr

namespace System

/-- The kernel raises `SIGCHLD`; without a manager it is ignored. -/
def raise (s : System) : System := { s with sigchld := s.manager.isSome }

/-- One step; `none` is a step that is not possible. A handle is not freed twice, and the pid of a
new child is positive and not taken. -/
def step (s : System) : Action → Option System
  | .spawn loop exitCb userData pid =>
    if s.userRuns ∧ 0 < pid ∧ s.pidTaken pid = false then
      s.loopyProcessSpawn loop exitCb userData pid
    else none
  | .free n =>
    if s.userRuns ∧ n < s.spawned ∧ s.freed n = false then some (s.loopyProcessFree n) else none
  | .exit n status =>
    if n < s.spawned ∧ s.child n = .running then
      some { s with child := update s.child n (.zombie status) }.raise
    else none
  | .stopped => some s.raise
  | .dispatch =>
    match s.pc, s.managerId with
    | .user, some g => some { s with pc := .read g }
    | _, _ => none
  | .read =>
    match s.pc with
    | .read g =>
      if s.managerId ≠ some g then
        some { s with misuse := s.misuse ++ [.closedDescriptor], pc := .user }
      else if s.sigchld then some { s with sigchld := false, pc := .waitpid g }
      else some { s with pc := .user }
    | _ => none
  | .reap n =>
    match s.pc, s.child n with
    | .waitpid g, .zombie status =>
      if n < s.spawned then
        let t := s.reap n status
        if s.managerId ≠ some g then
          some { t with misuse := s.misuse ++ [.destroyedManager], pc := .crashed }
        else some (t.checkChild g (s.childPid n) status)
      else none
    | _, _ => none
  | .noChild =>
    match s.pc with
    | .waitpid g =>
      if (List.range s.spawned).all fun n => !(s.child n matches .zombie _) then
        some { s with pc := .read g }
      else none
    | _ => none
  | .ret =>
    match s.pc with
    | .callback g => some { s with pc := .waitpid g }
    | _ => none

end System

end Loopy.Process
