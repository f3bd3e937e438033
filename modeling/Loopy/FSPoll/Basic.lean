import Loopy.Lib.Chain
import Loopy.Lib.Run

/-!
# `loopyFSPoll.c`: files that are polled

A poll handle with its entries and its timer. `pollTimerCallback` goes through the entries; the
results of its `stat` calls are inputs, and the callbacks are user code, which starts and stops
entries. Entries are numbered as they are allocated, and `misuse` records every use of a freed one.

* A `stat` record has the fields that are compared.
* `loopyRegisterTimer` returns an id that no registered timer has, or 0 if it fails. A timer that
  was unregistered does not fire again, whatever its callback returns.
* `passStart`, `steady` and `examined` are ghosts: the entries at the start of the pass, the ones
  that have been there since, and the ones that the pass has examined; so are `seen` and `reports`:
  what every `stat` call of an entry has found, and what came of it.

`loopyFSPollSetInterval`, `loopyFSPollFree` and the accessors are left out, and so is the interval.
-/

namespace Loopy.FSPoll

open Loopy.Lib

/-! ## Events -/

/-- `LOOPY_FSPOLL_NONE`. -/
def LOOPY_FSPOLL_NONE : BitVec 32 := 0x00#32

/-- `LOOPY_FSPOLL_MODIFIED`. -/
def LOOPY_FSPOLL_MODIFIED : BitVec 32 := 0x01#32

/-- `LOOPY_FSPOLL_SIZE`. -/
def LOOPY_FSPOLL_SIZE : BitVec 32 := 0x02#32

/-- `LOOPY_FSPOLL_DELETED`. -/
def LOOPY_FSPOLL_DELETED : BitVec 32 := 0x04#32

/-- `LOOPY_FSPOLL_CREATED`. -/
def LOOPY_FSPOLL_CREATED : BitVec 32 := 0x08#32

/-- `LOOPY_FSPOLL_PERMISSIONS`. -/
def LOOPY_FSPOLL_PERMISSIONS : BitVec 32 := 0x10#32

/-- `LOOPY_FSPOLL_OWNER`. -/
def LOOPY_FSPOLL_OWNER : BitVec 32 := 0x20#32

/-- `LOOPY_FSPOLL_TYPE`. -/
def LOOPY_FSPOLL_TYPE : BitVec 32 := 0x40#32

/-- `S_IFMT`. -/
def S_IFMT : BitVec 32 := 0o170000#32

/-- `07777`: the permission bits. -/
def permissionBits : BitVec 32 := 0o7777#32

/-! ## Data -/

/-- `struct stat`; the nanoseconds are those of `st_mtim`. -/
structure Stat where
  st_mtime : ℤ
  mtimeNsec : ℕ
  st_size : ℤ
  st_mode : BitVec 32
  st_uid : ℕ
  st_gid : ℕ
deriving DecidableEq, Repr

/-- `loopyFSPollEntry`, apart from its link. -/
structure LoopyFSPollEntry where
  id : ℕ
  path : ℕ
  events : BitVec 32
  cb : ℕ
  userData : ℕ
  prevStat : Stat
  present : Bool
  followSymlinks : Bool
deriving DecidableEq, Repr

/-- `loopyFSPollInfo`. -/
structure LoopyFSPollInfo where
  pollId : ℕ
  events : BitVec 32
  path : ℕ
  prevStat : Option Stat
  currStat : Option Stat
  userData : ℕ
deriving DecidableEq, Repr

/-- A use of a freed entry. -/
inductive Misuse
  | freedEntry (n : ℕ)
deriving DecidableEq, Repr

/-- Where the timer callback is; in a callback it has the result of the `stat` call. -/
inductive Pc
  | user
  | walk (current : Option ℕ)
  | callback (n : ℕ) (newStat : Option Stat)
  | crashed
deriving DecidableEq, Repr

/-- `loopyFSPoll`, with the memory of its entries and the timers of its loop. -/
structure System where
  entry : ℕ → LoopyFSPollEntry
  next : ℕ → Option ℕ
  live : ℕ → Bool
  allocated : ℕ
  entries : Option ℕ
  nextId : ℕ
  timerId : ℕ
  timers : List ℕ
  followSymlinks : Bool
  pc : Pc
  passStart : List ℕ
  steady : ℕ → Bool
  examined : List ℕ
  seen : ℕ → List (Option Stat)
  reports : ℕ → List (Option LoopyFSPollInfo)
  misuse : List Misuse

/-- `struct stat` of zeros. -/
def Stat.zero : Stat := ⟨0, 0, 0, 0#32, 0, 0⟩

/-- `loopyFSPollNew`. -/
def System.new (followSymlinks : Bool) : System where
  entry := fun _ => ⟨0, 0, LOOPY_FSPOLL_NONE, 0, 0, .zero, false, false⟩
  next := fun _ => none
  live := fun _ => false
  allocated := 0
  entries := none
  nextId := 1
  timerId := 0
  timers := []
  followSymlinks := followSymlinks
  pc := .user
  passStart := []
  steady := fun _ => false
  examined := []
  seen := fun _ => []
  reports := fun _ => []
  misuse := []

/-! ## `detectChanges` -/

/-- `detectChanges`; `newStat` is `none` if the `stat` call has failed. -/
def detectChanges (entry : LoopyFSPollEntry) (newStat : Option Stat) : BitVec 32 :=
  match entry.present, newStat with
  | false, some _ => LOOPY_FSPOLL_NONE ||| LOOPY_FSPOLL_CREATED
  | true, none => LOOPY_FSPOLL_NONE ||| LOOPY_FSPOLL_DELETED
  | false, none => LOOPY_FSPOLL_NONE
  | true, some newStat =>
    let oldStat := entry.prevStat
    let events := LOOPY_FSPOLL_NONE
    let events :=
      if oldStat.st_mtime ≠ newStat.st_mtime then events ||| LOOPY_FSPOLL_MODIFIED else events
    let events :=
      if oldStat.st_size ≠ newStat.st_size then events ||| LOOPY_FSPOLL_SIZE else events
    let events :=
      if oldStat.st_mode &&& permissionBits ≠ newStat.st_mode &&& permissionBits then
        events ||| LOOPY_FSPOLL_PERMISSIONS
      else events
    let events :=
      if oldStat.st_uid ≠ newStat.st_uid ∨ oldStat.st_gid ≠ newStat.st_gid then
        events ||| LOOPY_FSPOLL_OWNER
      else events
    if oldStat.st_mode &&& S_IFMT ≠ newStat.st_mode &&& S_IFMT then events ||| LOOPY_FSPOLL_TYPE
    else events

/-- The callback that is due for an entry, if any. -/
def report (entry : LoopyFSPollEntry) (newStat : Option Stat) : Option LoopyFSPollInfo :=
  let relevant := detectChanges entry newStat &&& entry.events
  if relevant ≠ LOOPY_FSPOLL_NONE ∧ entry.cb ≠ 0 then
    some
      { pollId := entry.id
        events := relevant
        path := entry.path
        prevStat := if entry.present then some entry.prevStat else none
        currStat := newStat
        userData := entry.userData }
  else none

/-- "Update state" of `pollTimerCallback`. -/
def LoopyFSPollEntry.update (entry : LoopyFSPollEntry) (newStat : Option Stat) :
    LoopyFSPollEntry :=
  { entry with
    prevStat := newStat.getD entry.prevStat
    present := newStat.isSome }

namespace System

/-! ## The calls -/

/-- The entries of the list. -/
def listed (s : System) : List ℕ := walk s.next s.allocated s.entries

/-- `loopyUnregisterTimer`. -/
def loopyUnregisterTimer (s : System) (timerId : ℕ) : System :=
  { s with timers := s.timers.erase timerId }

/-- `loopyFSPollStart`; `newStat` is what the `stat` call finds, and `timerId` is what
`loopyRegisterTimer` returns. -/
def loopyFSPollStart (s : System) (path : ℕ) (events : BitVec 32) (cb userData : ℕ)
    (newStat : Option Stat) (timerId : ℕ) : System :=
  if path = 0 ∨ cb = 0 ∨ events = LOOPY_FSPOLL_NONE then s
  else
    let n := s.allocated
    let e : LoopyFSPollEntry :=
      ⟨s.nextId, path, events, cb, userData, newStat.getD .zero, newStat.isSome, s.followSymlinks⟩
    let old := s.entries
    let t : System :=
      { s with
        entry := Function.update s.entry n e
        next := Function.update s.next n old
        live := Function.update s.live n true
        allocated := n + 1
        entries := some n
        nextId := s.nextId + 1
        seen := Function.update s.seen n [newStat]
        reports := Function.update s.reports n [] }
    if s.timerId = 0 then
      -- without a timer the entry is taken out again
      if timerId = 0 then { t with entries := old, live := Function.update t.live n false }
      else { t with timerId := timerId, timers := timerId :: s.timers }
    else t

/-- `loopyFSPollStop` stops the timer if there is no entry left. -/
def stopTimerIfEmpty (s : System) : System :=
  if s.entries = none ∧ s.timerId ≠ 0 then { s.loopyUnregisterTimer s.timerId with timerId := 0 }
  else s

/-- The link to an entry, of the entry before it or of the handle, is set. -/
def setLink (s : System) (before link : Option ℕ) : System :=
  match before with
  | some m => { s with next := Function.update s.next m link }
  | none => { s with entries := link }

/-- `loopyFSPollStop`. -/
def loopyFSPollStop (s : System) (pollId : ℕ) : System :=
  if pollId = 0 then s
  else
    match findLink s.next (fun n => (s.entry n).id = pollId) (s.allocated + 1) none s.entries with
    | none => s
    | some (before, n) =>
      -- the entry is freed, also if its callback runs
      let t := s.setLink before (s.next n)
      stopTimerIfEmpty { t with live := Function.update t.live n false }

/-- `loopyFSPollStopAll`. -/
def loopyFSPollStopAll (s : System) : System :=
  let t := if s.timerId ≠ 0 then { s.loopyUnregisterTimer s.timerId with timerId := 0 } else s
  { t with live := fun n => t.live n && !t.listed.contains n, entries := none }

/-! ## `pollTimerCallback` -/

/-- An entry is updated, and the walk goes on to the next one. -/
def update (s : System) (n : ℕ) (newStat : Option Stat) : System :=
  { s with
    entry := Function.update s.entry n ((s.entry n).update newStat)
    pc := .walk (s.next n) }

/-- A use of a freed entry ends the pass. -/
def crash (s : System) (n : ℕ) : System :=
  { s with misuse := s.misuse ++ [.freedEntry n], pc := .crashed }

/-- The loop body up to the callback. -/
def examine (s : System) (n : ℕ) (newStat : Option Stat) : System :=
  let info := report (s.entry n) newStat
  let t : System :=
    { s with
      examined := s.examined ++ [n]
      seen := Function.update s.seen n (s.seen n ++ [newStat])
      reports := Function.update s.reports n (s.reports n ++ [info]) }
  if info.isSome then { t with pc := .callback n newStat } else t.update n newStat

end System

/-! ## The machine -/

/-- One step of the program. -/
inductive Action
  | start (path : ℕ) (events : BitVec 32) (cb userData : ℕ) (newStat : Option Stat) (timerId : ℕ)
  | stop (pollId : ℕ)
  | stopAll
  /-- The timer fires. -/
  | timer
  /-- The `stat` call for the current entry. -/
  | examine (newStat : Option Stat)
  /-- The callback returns. -/
  | ret
  /-- The walk is at its end. -/
  | finish
deriving DecidableEq, Repr

namespace System

/-- User code runs: outside of the timer callback, or in a callback. -/
def userRuns (s : System) : Bool :=
  match s.pc with
  | .user | .callback .. => true
  | _ => false

/-- The entries that have been there all the time, after a call. -/
def track (s : System) : System := { s with steady := fun n => s.steady n && s.live n }

/-- One step; `none` is a step that is not possible. -/
def step (s : System) : Action → Option System
  | .start path events cb userData newStat timerId =>
    if s.userRuns ∧ timerId ∉ s.timers then
      some (s.loopyFSPollStart path events cb userData newStat timerId).track
    else none
  | .stop pollId => if s.userRuns then some (s.loopyFSPollStop pollId).track else none
  | .stopAll => if s.userRuns then some s.loopyFSPollStopAll.track else none
  | .timer =>
    if s.pc = .user ∧ s.timerId ∈ s.timers then
      some { s with
        pc := .walk s.entries
        passStart := s.listed
        steady := s.live
        examined := [] }
    else none
  | .examine newStat =>
    match s.pc with
    | .walk (some n) => if s.live n then some (s.examine n newStat) else some (s.crash n)
    | _ => none
  | .ret =>
    match s.pc with
    | .callback n newStat => if s.live n then some (s.update n newStat) else some (s.crash n)
    | _ => none
  | .finish =>
    match s.pc with
    | .walk none => some { s with pc := .user }
    | _ => none

end System

end Loopy.FSPoll
