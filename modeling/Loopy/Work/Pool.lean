import Loopy.Lib.Run

/-!
# `loopyWork.c`: the work pool

The pool of `loopyWork` with its callers, its workers and the loop, as a machine whose steps
are the critical sections and the actions between them. Items live in `items`, a heap whose
addresses are the numbers of the allocations; the queues and the threads hold addresses. A
`loopyWorkId` is a `uint64_t`; the counts of live items are naturals. `W` names the worker
threads and `L` the runs of `workProcessCompleted` on the loop, nested ones included.
Callbacks are opaque: `workCb` and `afterCb` are the function pointers that were queued, and
what a callback calls is further steps of the machine. `history` is a ghost record of what
happened to each item.
-/

namespace Loopy.Work

open Loopy.Lib
open Function (update)

/-- `loopyWorkStatus`. -/
inductive LoopyWorkStatus
  | OK
  | ERROR
  | CANCELLED
deriving DecidableEq, Repr

/-- `loopyWorkItem`; `workCb` is never `NULL`. -/
structure LoopyWorkItem where
  id : ℕ
  workCb : ℕ
  afterCb : Option ℕ
  userData : ℕ
  status : LoopyWorkStatus
  cancelled : Bool
deriving DecidableEq, Repr

/-- Where a worker that holds an item is in `workWorkerThread`. -/
inductive WorkerPoint
  | dequeued
  | running
  | finished
  | uncounted
deriving DecidableEq, Repr

/-- A worker thread. -/
inductive Worker
  | idle
  | busy (point : WorkerPoint) (item : ℕ)
  | notifying
deriving DecidableEq, Repr

/-- A run of `workProcessCompleted`. -/
inductive Processor
  | idle
  | processing
  | popped (item : ℕ)
deriving DecidableEq, Repr

/-- What happened to an item: how often its `workCb` was started and finished, the statuses
its `afterCb` was called with, and whether `loopyWorkCancel` returned true for it. -/
structure History where
  started : ℕ
  finished : ℕ
  afters : List LoopyWorkStatus
  cancelReturned : Bool
deriving DecidableEq, Repr

/-- `loopyWork` and its threads. `accepted` counts the allocations, `freed` lists the items
that were freed. -/
structure LoopyWork (W L : Type) where
  maxQueueSize : ℕ
  items : ℕ → LoopyWorkItem
  pending : List ℕ
  pendingCount : ℕ
  runningCount : ℕ
  nextWorkId : ℕ
  completed : List ℕ
  worker : W → Worker
  processor : L → Processor
  accepted : ℕ
  freed : List ℕ
  history : ℕ → History

variable {W L : Type}

/-- `loopyWorkNew`. -/
def loopyWorkNew (W L : Type) (maxQueueSize : ℕ) : LoopyWork W L :=
  { maxQueueSize
    items := fun _ => ⟨0, 0, none, 0, .OK, false⟩
    pending := []
    pendingCount := 0
    runningCount := 0
    nextWorkId := 1
    completed := []
    worker := fun _ => .idle
    processor := fun _ => .idle
    accepted := 0
    freed := []
    history := fun _ => ⟨0, 0, [], false⟩ }

/-! ## Calls -/

/-- `loopyWorkQueue`; `workCb = none` is `NULL`, `allocated` is the success of `zcalloc`. -/
def loopyWorkQueue (work : LoopyWork W L) (workCb afterCb : Option ℕ) (userData : ℕ)
    (allocated : Bool) : ℕ × LoopyWork W L :=
  match workCb with
  | none => (0, work)
  | some workCb =>
    if work.maxQueueSize > 0 ∧ work.pendingCount ≥ work.maxQueueSize then (0, work)
    else if allocated then
      let item := ⟨work.nextWorkId, workCb, afterCb, userData, .OK, false⟩
      (item.id, { work with
        items := update work.items work.accepted item
        nextWorkId := (work.nextWorkId + 1) % 2 ^ 64
        pending := work.pending ++ [work.accepted]
        pendingCount := work.pendingCount + 1
        accepted := work.accepted + 1 })
    else (0, work)

/-- `item->cancelled = true`. -/
def LoopyWork.markCancelled (work : LoopyWork W L) (n : ℕ) : LoopyWork W L :=
  { work with items := update work.items n { work.items n with cancelled := true } }

/-- The first pending item with the id. -/
def findPending (work : LoopyWork W L) (workId : ℕ) : Option ℕ :=
  work.pending.find? fun n => (work.items n).id = workId

/-- `loopyWorkCancel`. -/
def loopyWorkCancel (work : LoopyWork W L) (workId : ℕ) : Bool × LoopyWork W L :=
  if workId = 0 then (false, work)
  else
    match findPending work workId with
    | some n => (true, work.markCancelled n)
    | none => (false, work)

/-- `loopyWorkCancelAll`. -/
def loopyWorkCancelAll (work : LoopyWork W L) : LoopyWork W L :=
  work.pending.foldl LoopyWork.markCancelled work

/-! ## The machine -/

/-- Record something about an item. -/
def LoopyWork.record (work : LoopyWork W L) (n : ℕ) (f : History → History) : LoopyWork W L :=
  { work with history := update work.history n (f (work.history n)) }

/-- `item->status = status`. -/
def LoopyWork.setStatus (work : LoopyWork W L) (n : ℕ) (status : LoopyWorkStatus) :
    LoopyWork W L :=
  { work with items := update work.items n { work.items n with status } }

/-- The steps. `inspect` reads `item->cancelled` and skips or starts `workCb`; `finish` is its
return; `pop` is the critical section of `workProcessCompleted`. -/
inductive Action (W L : Type)
  | queue (workCb afterCb : Option ℕ) (userData : ℕ) (allocated : Bool)
  | cancel (workId : ℕ)
  | cancelAll
  | dequeue (w : W)
  | inspect (w : W)
  | finish (w : W)
  | uncount (w : W)
  | enqueueCompleted (w : W)
  | notify (w : W)
  | process (l : L)
  | pop (l : L)
  | after (l : L)
deriving DecidableEq, Repr

variable [DecidableEq W] [DecidableEq L]

def LoopyWork.setWorker (work : LoopyWork W L) (w : W) (pc : Worker) : LoopyWork W L :=
  { work with worker := update work.worker w pc }

def LoopyWork.setProcessor (work : LoopyWork W L) (l : L) (pc : Processor) : LoopyWork W L :=
  { work with processor := update work.processor l pc }

/-- `workDequeue` and `runningCount++`, in one critical section of the worker `w`. -/
def workDequeue (work : LoopyWork W L) (w : W) : Option (LoopyWork W L) :=
  match work.pending with
  | [] => none
  | n :: rest =>
    some { work.setWorker w (.busy .dequeued n) with
      pending := rest
      pendingCount := work.pendingCount - 1
      runningCount := work.runningCount + 1 }

/-- One step. -/
def step (work : LoopyWork W L) : Action W L → Option (LoopyWork W L)
  | .queue workCb afterCb userData allocated =>
    some (loopyWorkQueue work workCb afterCb userData allocated).2
  | .cancel workId =>
    let work' := (loopyWorkCancel work workId).2
    if (loopyWorkCancel work workId).1 then
      match findPending work workId with
      | some n => some (work'.record n fun h => { h with cancelReturned := true })
      | none => none
    else some work'
  | .cancelAll => some (loopyWorkCancelAll work)
  | .dequeue w => if work.worker w = .idle then workDequeue work w else none
  | .inspect w =>
    match work.worker w with
    | .busy .dequeued n =>
      if (work.items n).cancelled then
        some ((work.setStatus n .CANCELLED).setWorker w (.busy .finished n))
      else
        some ((work.record n fun h => { h with started := h.started + 1 }).setWorker w
          (.busy .running n))
    | _ => none
  | .finish w =>
    match work.worker w with
    | .busy .running n =>
      some (((work.record n fun h => { h with finished := h.finished + 1 }).setStatus n .OK).setWorker
        w (.busy .finished n))
    | _ => none
  | .uncount w =>
    match work.worker w with
    | .busy .finished n =>
      some { work.setWorker w (.busy .uncounted n) with runningCount := work.runningCount - 1 }
    | _ => none
  | .enqueueCompleted w =>
    match work.worker w with
    | .busy .uncounted n =>
      some { work.setWorker w .notifying with completed := work.completed ++ [n] }
    | _ => none
  | .notify w => if work.worker w = .notifying then some (work.setWorker w .idle) else none
  | .process l =>
    if work.processor l = .idle then some (work.setProcessor l .processing) else none
  | .pop l =>
    if work.processor l = .processing then
      match work.completed with
      | [] => some (work.setProcessor l .idle)
      | n :: rest => some { work.setProcessor l (.popped n) with completed := rest }
    else none
  | .after l =>
    match work.processor l with
    | .popped n =>
      let work := work.setProcessor l .processing
      let work := { work with freed := work.freed ++ [n] }
      match (work.items n).afterCb with
      | some _ =>
        some (work.record n fun h => { h with afters := h.afters ++ [(work.items n).status] })
      | none => some work
    | _ => none

end Loopy.Work
