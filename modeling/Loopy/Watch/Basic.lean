import Loopy.Lib.Bytes
import Loopy.Lib.Bits
import Loopy.Lib.Run

/-!
# `loopyWatch.c`: the inotify backend

A watch handle with its inotify instance, as a machine: calls, file-system events, and one record
that `watchEventCallback` handles. Callbacks are user code that may call the handle, so what stands
between two records is any sequence of calls. `inode` says which inode a path names. The kernel
has one watch for an inode and does not use a watch descriptor twice. `due` and `handled` are
ghosts: the watches that an event is for, and the events that are through.
-/

namespace Loopy.Watch

open Loopy.Lib
open Function (update update_of_ne update_self)

/-! ## Event masks -/

/-- `LOOPY_WATCH_MODIFY`. -/
def LOOPY_WATCH_MODIFY : BitVec 32 := 0x01#32

/-- `LOOPY_WATCH_CREATE`. -/
def LOOPY_WATCH_CREATE : BitVec 32 := 0x02#32

/-- `LOOPY_WATCH_DELETE`. -/
def LOOPY_WATCH_DELETE : BitVec 32 := 0x04#32

/-- `LOOPY_WATCH_RENAME`. -/
def LOOPY_WATCH_RENAME : BitVec 32 := 0x08#32

/-- `LOOPY_WATCH_ATTRIB`. -/
def LOOPY_WATCH_ATTRIB : BitVec 32 := 0x10#32

/-- `IN_MODIFY`. -/
def IN_MODIFY : BitVec 32 := 0x002#32

/-- `IN_ATTRIB`. -/
def IN_ATTRIB : BitVec 32 := 0x004#32

/-- `IN_CLOSE_WRITE`. -/
def IN_CLOSE_WRITE : BitVec 32 := 0x008#32

/-- `IN_MOVED_FROM`. -/
def IN_MOVED_FROM : BitVec 32 := 0x040#32

/-- `IN_MOVED_TO`. -/
def IN_MOVED_TO : BitVec 32 := 0x080#32

/-- `IN_MOVE`. -/
def IN_MOVE : BitVec 32 := IN_MOVED_FROM ||| IN_MOVED_TO

/-- `IN_CREATE`. -/
def IN_CREATE : BitVec 32 := 0x100#32

/-- `IN_DELETE`. -/
def IN_DELETE : BitVec 32 := 0x200#32

/-- `IN_DELETE_SELF`. -/
def IN_DELETE_SELF : BitVec 32 := 0x400#32

/-- `eventsToInotify`. -/
def eventsToInotify (events : BitVec 32) : BitVec 32 :=
  let mask := 0#32
  let mask := if events &&& LOOPY_WATCH_MODIFY ≠ 0#32 then
    mask ||| (IN_MODIFY ||| IN_CLOSE_WRITE) else mask
  let mask := if events &&& LOOPY_WATCH_CREATE ≠ 0#32 then mask ||| IN_CREATE else mask
  let mask := if events &&& LOOPY_WATCH_DELETE ≠ 0#32 then
    mask ||| (IN_DELETE ||| IN_DELETE_SELF) else mask
  let mask := if events &&& LOOPY_WATCH_RENAME ≠ 0#32 then
    mask ||| (IN_MOVE ||| IN_MOVED_FROM ||| IN_MOVED_TO) else mask
  if events &&& LOOPY_WATCH_ATTRIB ≠ 0#32 then mask ||| IN_ATTRIB else mask

/-- `inotifyToEvents`. -/
def inotifyToEvents (mask : BitVec 32) : BitVec 32 :=
  let events := 0#32
  let events := if mask &&& (IN_MODIFY ||| IN_CLOSE_WRITE) ≠ 0#32 then
    events ||| LOOPY_WATCH_MODIFY else events
  let events := if mask &&& IN_CREATE ≠ 0#32 then events ||| LOOPY_WATCH_CREATE else events
  let events := if mask &&& (IN_DELETE ||| IN_DELETE_SELF) ≠ 0#32 then
    events ||| LOOPY_WATCH_DELETE else events
  let events := if mask &&& (IN_MOVE ||| IN_MOVED_FROM ||| IN_MOVED_TO) ≠ 0#32 then
    events ||| LOOPY_WATCH_RENAME else events
  if mask &&& IN_ATTRIB ≠ 0#32 then events ||| LOOPY_WATCH_ATTRIB else events

/-! ## The inotify instance -/

/-- The watch descriptors of the inodes, with their masks. -/
structure Inotify (Ino : Type) where
  watch : Ino → Option (ℤ × BitVec 32)
  nextWd : ℤ
  positive : 0 < nextWd
  fresh : ∀ ino x, watch ino = some x → x.1 < nextWd
  inj : ∀ i j x y, watch i = some x → watch j = some y → x.1 = y.1 → i = j

variable {Ino : Type}

/-- `inotify_init1`. -/
def Inotify.init (Ino : Type) : Inotify Ino :=
  { watch := fun _ => none, nextWd := 1, positive := Int.zero_lt_one, fresh := nofun, inj := nofun }

/-- A watch gets another mask. -/
def Inotify.setMask [DecidableEq Ino] (k : Inotify Ino) (ino : Ino) (x : ℤ × BitVec 32)
    (hx : k.watch ino = some x) (mask : BitVec 32) : Inotify Ino :=
  have hwd : ∀ i y, update k.watch ino (some (x.1, mask)) i = some y →
      ∃ z, k.watch i = some z ∧ z.1 = y.1 := by
    intro i y hy
    by_cases hi : i = ino
    · subst hi
      rw [update_self] at hy
      refine ⟨x, hx, ?_⟩
      rw [← Option.some.inj hy]
    · rw [update_of_ne hi] at hy
      exact ⟨y, hy, rfl⟩
  { k with
    watch := update k.watch ino (some (x.1, mask))
    fresh := by
      intro i y hy
      obtain ⟨z, hz, hzy⟩ := hwd i y hy
      rw [← hzy]
      exact k.fresh i z hz
    inj := by
      intro i j y y' hy hy' heq
      obtain ⟨z, hz, hzy⟩ := hwd i y hy
      obtain ⟨z', hz', hzy'⟩ := hwd j y' hy'
      exact k.inj i j z z' hz hz' (hzy.trans (heq.trans hzy'.symm)) }

/-- A new watch. -/
def Inotify.insert [DecidableEq Ino] (k : Inotify Ino) (ino : Ino) (mask : BitVec 32) :
    Inotify Ino where
  watch := update k.watch ino (some (k.nextWd, mask))
  nextWd := k.nextWd + 1
  positive := Int.lt_add_one_of_le (Int.le_of_lt k.positive)
  fresh := by
    intro i x hx
    by_cases hi : i = ino
    · subst hi
      rw [update_self] at hx
      rw [← Option.some.inj hx]
      exact Int.lt_succ _
    · rw [update_of_ne hi] at hx
      exact Int.lt_add_one_of_le (Int.le_of_lt (k.fresh i x hx))
  inj := by
    intro i j x y hx hy heq
    by_cases hi : i = ino
    · by_cases hj : j = ino
      · rw [hi, hj]
      · rw [hi, update_self] at hx
        rw [update_of_ne hj] at hy
        have hlt := k.fresh j y hy
        rw [← heq, ← Option.some.inj hx] at hlt
        exact absurd hlt (Int.lt_irrefl _)
    · rw [update_of_ne hi] at hx
      by_cases hj : j = ino
      · rw [hj, update_self] at hy
        have hlt := k.fresh i x hx
        rw [heq, ← Option.some.inj hy] at hlt
        exact absurd hlt (Int.lt_irrefl _)
      · rw [update_of_ne hj] at hy
        exact k.inj i j x y hx hy heq

/-- `inotify_rm_watch`. -/
def Inotify.rmWatch (k : Inotify Ino) (wd : ℤ) : Inotify Ino where
  watch ino := (k.watch ino).filter fun x => x.1 ≠ wd
  nextWd := k.nextWd
  positive := k.positive
  fresh := fun ino x hx => k.fresh ino x (Option.filter_eq_some_iff.mp hx).1
  inj := fun i j x y hx hy =>
    k.inj i j x y (Option.filter_eq_some_iff.mp hx).1 (Option.filter_eq_some_iff.mp hy).1

/-- `inotify_add_watch`; the kernel may refuse it, and a path may name nothing. -/
def inotifyAddWatch [DecidableEq Ino] (inode : CString → Option Ino) (k : Inotify Ino)
    (path : CString) (mask : BitVec 32) (refused : Bool) : ℤ × Inotify Ino :=
  match inode path with
  | none => (-1, k)
  | some ino =>
    if refused then (-1, k)
    else
      match hx : k.watch ino with
      | some x => (x.1, k.setMask ino x hx mask)
      | none => (k.nextWd, k.insert ino mask)

/-! ## The handle -/

/-- `loopyWatchEntry`. -/
structure LoopyWatchEntry where
  id : UInt64
  path : Option CString
  events : BitVec 32
  callback : Option ℕ
  userData : ℕ
  active : Bool
  wd : ℤ
deriving DecidableEq, Repr

/-- After `memset`. -/
def LoopyWatchEntry.zero : LoopyWatchEntry :=
  { id := 0, path := none, events := 0#32, callback := none, userData := 0, active := false,
    wd := 0 }

/-- `loopyWatchInfo`. -/
structure LoopyWatchInfo where
  watchId : UInt64
  events : BitVec 32
  path : Option CString
  filename : Option CString
  userData : ℕ
deriving DecidableEq, Repr

/-- A call of a callback. -/
structure Call where
  callback : Option ℕ
  info : LoopyWatchInfo
deriving DecidableEq, Repr

/-- What the callback of an entry is called with. -/
def LoopyWatchEntry.call (entry : LoopyWatchEntry) (mask : BitVec 32) (name : Option CString) :
    Call where
  callback := entry.callback
  info :=
    { watchId := entry.id
      events := inotifyToEvents mask
      path := entry.path
      filename := name
      userData := entry.userData }

/-- `inotify_event`, with the slots of the watches that it is for and their entries. -/
structure InotifyEvent where
  wd : ℤ
  mask : BitVec 32
  name : Option CString
  due : List (ℕ × LoopyWatchEntry)
deriving DecidableEq, Repr

/-- An event that is through. -/
structure Handled where
  mask : BitVec 32
  name : Option CString
  due : List LoopyWatchEntry
  calls : List Call
deriving DecidableEq, Repr

/-- `loopyWatch`; `queue` is what is left to read of `inotifyFd`. -/
structure LoopyWatch (Ino : Type) where
  watches : ℕ → LoopyWatchEntry
  watchCount : ℕ
  nextId : UInt64
  inotify : Inotify Ino
  queue : List InotifyEvent
  handled : List Handled

/-- `loopyWatchNew`. -/
def loopyWatchNew (Ino : Type) : LoopyWatch Ino :=
  { watches := fun _ => .zero, watchCount := 0, nextId := 1, inotify := .init Ino, queue := [],
    handled := [] }

/-- `MAX_WATCHES`. -/
def MAX_WATCHES : ℕ := 256

def slots : List ℕ := List.range MAX_WATCHES

/-- How an addition ends once there is a slot for it. -/
inductive AddResult
  | added
  /-- The path cannot be copied. -/
  | noMemory
  /-- `inotify_add_watch` fails. -/
  | refused
deriving DecidableEq, Repr

section calls

variable (w : LoopyWatch Ino)

/-- `watchFindById`. -/
def LoopyWatch.watchFindById (id : UInt64) : Option ℕ :=
  slots.find? fun i => (w.watches i).active && (w.watches i).id = id

/-- `watchFindFree`. -/
def LoopyWatch.watchFindFree : Option ℕ := slots.find? fun i => !(w.watches i).active

/-- An active watch has the watch descriptor. -/
def LoopyWatch.hasWd (wd : ℤ) (i : ℕ) : Bool := (w.watches i).active && (w.watches i).wd = wd

/-- `watchFindByWd`. -/
def LoopyWatch.watchFindByWd (wd : ℤ) : Option ℕ := slots.find? (w.hasWd wd)

def LoopyWatch.setEntry (i : ℕ) (entry : LoopyWatchEntry) : LoopyWatch Ino :=
  { w with watches := update w.watches i entry }

/-- `loopyWatchAdd`. -/
def loopyWatchAdd [DecidableEq Ino] (inode : CString → Option Ino) (path : Option CString)
    (events : BitVec 32) (cb : Option ℕ) (userData : ℕ) (result : AddResult) :
    LoopyWatch Ino × UInt64 :=
  match path, cb with
  | some path, some cb =>
    match w.watchFindFree with
    | none => (w, 0)
    | some i =>
      if result = .noMemory then (w.setEntry i { w.watches i with path := none }, 0)
      else
        let inotifyMask := eventsToInotify events
        let (wd, inotify) :=
          inotifyAddWatch inode w.inotify path inotifyMask (result = .refused)
        let entry : LoopyWatchEntry :=
          { id := w.nextId, path := some path, events, callback := some cb, userData,
            active := false, wd }
        let w := { w with nextId := w.nextId + 1, inotify }
        if wd = -1 then (w.setEntry i { entry with path := none }, 0)
        else
          ({ w.setEntry i { entry with active := true } with watchCount := w.watchCount + 1 },
            entry.id)
  | _, _ => (w, 0)

/-- A removed watch is no longer due. -/
def InotifyEvent.forget (i : ℕ) (event : InotifyEvent) : InotifyEvent :=
  { event with due := event.due.filter fun x => x.1 ≠ i }

/-- `loopyWatchRemove` once the watch is found. -/
def LoopyWatch.clear (i : ℕ) : LoopyWatch Ino :=
  { w.setEntry i .zero with
    inotify := w.inotify.rmWatch (w.watches i).wd
    watchCount := w.watchCount - 1
    queue := w.queue.map (InotifyEvent.forget i) }

/-- `loopyWatchRemove`. -/
def loopyWatchRemove (watchId : UInt64) : LoopyWatch Ino × Bool :=
  if watchId = 0 then (w, false)
  else
    match w.watchFindById watchId with
    | none => (w, false)
    | some i => if (w.watches i).active then (w.clear i, true) else (w, false)

/-- `loopyWatchRemoveAll`. -/
def loopyWatchRemoveAll : LoopyWatch Ino :=
  slots.foldl (fun w i =>
    if (w.watches i).active then (loopyWatchRemove w (w.watches i).id).1 else w) w

/-! ## Events -/

/-- The active watches whose path names the inode. -/
def LoopyWatch.names [DecidableEq Ino] (inode : CString → Option Ino) (ino : Ino) (i : ℕ) : Bool :=
  (w.watches i).active && (w.watches i).path.bind inode = some ino

/-- The watches that an event is for. -/
def LoopyWatch.due [DecidableEq Ino] (inode : CString → Option Ino) (ino : Ino)
    (mask : BitVec 32) : List (ℕ × LoopyWatchEntry) :=
  (slots.filter fun i =>
    w.names inode ino i && (w.watches i).events &&& inotifyToEvents mask != 0#32).map
      fun i => (i, w.watches i)

/-- A file-system event on an inode: it queues a record if the watch of the inode asks for it. -/
def LoopyWatch.fsEvent [DecidableEq Ino] (inode : CString → Option Ino) (ino : Ino)
    (mask : BitVec 32) (name : Option CString) : LoopyWatch Ino :=
  let due := w.due inode ino mask
  match w.inotify.watch ino with
  | some (wd, watched) =>
    if mask &&& watched ≠ 0#32 then { w with queue := w.queue ++ [{ wd, mask, name, due }] }
    else { w with handled := w.handled ++ [{ mask, name, due := due.map Prod.snd, calls := [] }] }
  | none =>
    { w with handled := w.handled ++ [{ mask, name, due := due.map Prod.snd, calls := [] }] }

/-- What `watchEventCallback` calls for a record. -/
def LoopyWatch.callsFor (event : InotifyEvent) : List Call :=
  match w.watchFindByWd event.wd with
  | some i =>
    if (w.watches i).callback.isSome then [(w.watches i).call event.mask event.name] else []
  | none => []

end calls

/-! ## The machine -/

/-- The steps. -/
inductive Action (Ino : Type)
  | add (path : Option CString) (events : BitVec 32) (cb : Option ℕ) (userData : ℕ)
    (result : AddResult)
  | remove (watchId : UInt64)
  | removeAll
  | fsEvent (ino : Ino) (mask : BitVec 32) (name : Option CString)
  /-- `watchEventCallback` handles a record. -/
  | handle
deriving DecidableEq, Repr

/-- One step. -/
def step [DecidableEq Ino] (inode : CString → Option Ino) (w : LoopyWatch Ino) :
    Action Ino → Option (LoopyWatch Ino)
  | .add path events cb userData result =>
    some (loopyWatchAdd w inode path events cb userData result).1
  | .remove watchId => some (loopyWatchRemove w watchId).1
  | .removeAll => some (loopyWatchRemoveAll w)
  | .fsEvent ino mask name => some (w.fsEvent inode ino mask name)
  | .handle =>
    match w.queue with
    | [] => none
    | event :: rest =>
      let handled : Handled :=
        { mask := event.mask, name := event.name, due := event.due.map Prod.snd,
          calls := w.callsFor event }
      some { w with queue := rest, handled := w.handled ++ [handled] }

end Loopy.Watch
