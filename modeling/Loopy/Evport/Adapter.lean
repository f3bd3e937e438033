import Loopy.EventLoop.Machine

/-!
# `loopyAdapterSolaris.c`: the event-port adapter

`EvportState` is the adapter's state with the kernel's port: the association of each
descriptor, and the pending arrays with the descriptors the last poll returned. A poll
dissociates what it returns, so an association moves from the kernel to the pending slots
with every report, and back at the next poll.

System calls succeed: `port_associate` replaces the association of a descriptor,
`port_dissociate` removes it, and `port_getn` returns and dissociates some of the associated
descriptors.
-/

namespace Loopy.Evport

open Loopy.EventLoop
open Function (update)

/-! ## Data -/

/-- `POLLIN`. -/
def POLLIN : BitVec 32 := 0x001#32

/-- `POLLOUT`. -/
def POLLOUT : BitVec 32 := 0x004#32

/-- `POLLERR | POLLHUP`, which are reported without being asked for. -/
def pollErrors : BitVec 32 := 0x018#32

/-- `MAX_EVENT_BATCHSZ`. -/
def MAX_EVENT_BATCHSZ : ℕ := 512

/-- An association in the kernel: the events asked for, and the user pointer, which holds the
mask. -/
structure Association where
  events : BitVec 32
  user : LoopyAction
deriving DecidableEq, Repr

/-- `loopyInternalState`, with the port behind `portfd`. -/
structure EvportState where
  port : ℕ → Option Association
  npending : ℕ
  pendingFds : ℕ → ℤ
  pendingMasks : ℕ → LoopyAction

/-- `port_event_t`. -/
structure PortEvent where
  object : ℕ
  events : BitVec 32
  user : LoopyAction
deriving DecidableEq, Repr

/-! ## The kernel -/

/-- `loopyInternalAssociate`: the events are those of the mask, and the mask is the user
pointer. -/
def loopyInternalAssociate (s : EvportState) (fd : ℕ) (mask : LoopyAction) : EvportState :=
  let events := 0#32
  let events := if mask.read then events ||| POLLIN else events
  let events := if mask.write then events ||| POLLOUT else events
  { s with port := update s.port fd (some ⟨events, mask⟩) }

/-- `port_dissociate`. -/
def portDissociate (s : EvportState) (fd : ℕ) : EvportState :=
  { s with port := update s.port fd none }

/-- `port_getn` when the descriptors of `ready` have events: those that are associated are
returned and dissociated. -/
def portGetn : List (ℕ × BitVec 32) → EvportState → List PortEvent × EvportState
  | [], s => ([], s)
  | (fd, events) :: ready, s =>
    match s.port fd with
    | none => portGetn ready s
    | some a =>
      let (evs, s) := portGetn ready (portDissociate s fd)
      (⟨fd, events &&& (a.events ||| pollErrors), a.user⟩ :: evs, s)

/-! ## The adapter -/

/-- `loopyInternalNew`. -/
def loopyInternalNew (_setSize : ℕ) : EvportState :=
  { port := fun _ => none
    npending := 0
    pendingFds := fun _ => -1
    pendingMasks := fun _ => .NONE }

/-- `loopyInternalResize`. -/
def loopyInternalResize (s : EvportState) (_setSize : ℕ) : EvportState := s

/-- `loopyInternalLookupPending`. -/
def loopyInternalLookupPending (s : EvportState) (fd : ℕ) : Option ℕ :=
  (List.range s.npending).find? fun i => s.pendingFds i = fd

/-- `loopyInternalAddEvent`. -/
def loopyInternalAddEvent (events : ℕ → LoopyFileEvent) (s : EvportState) (fd : ℕ)
    (mask : LoopyAction) : Bool × EvportState :=
  let fullmask := mask.union (events fd).mask
  match loopyInternalLookupPending s fd with
  | some pfd =>
    let masks := update s.pendingMasks pfd ((s.pendingMasks pfd).union fullmask)
    (true, { s with pendingMasks := masks })
  | none => (true, loopyInternalAssociate s fd fullmask)

/-- `loopyInternalDelEvent`. For a descriptor that is not pending it takes the mask from the
table, as the mask that is left. -/
def loopyInternalDelEvent (events : ℕ → LoopyFileEvent) (s : EvportState) (fd : ℕ)
    (mask : LoopyAction) : EvportState :=
  match loopyInternalLookupPending s fd with
  | some pfd =>
    let left := (s.pendingMasks pfd).diff mask
    let s := { s with pendingMasks := update s.pendingMasks pfd left }
    if left = .NONE then { s with pendingFds := update s.pendingFds pfd (-1) } else s
  | none =>
    let fullmask := (events fd).mask
    if fullmask = .NONE then portDissociate s fd else loopyInternalAssociate s fd fullmask

/-- The event-port adapter of `loopy.c`. -/
def evportAdapter : Adapter EvportState Unit where
  new := loopyInternalNew
  resize := loopyInternalResize
  addEvent := fun _ events s fd mask => loopyInternalAddEvent events s fd mask
  delEvent := fun _ events s fd mask => loopyInternalDelEvent events s fd mask

/-! ## Polling -/

/-- One iteration of the loop that re-associates the pending descriptors. -/
def reassociate (s : EvportState) (i : ℕ) : EvportState :=
  if s.pendingFds i = -1 then s
  else
    { loopyInternalAssociate s (s.pendingFds i).toNat (s.pendingMasks i) with
      pendingMasks := update s.pendingMasks i .NONE
      pendingFds := update s.pendingFds i (-1) }

/-- The mask of one port event. -/
def firedMask (events : BitVec 32) : LoopyAction :=
  let mask := LoopyAction.NONE
  let mask := if events &&& POLLIN ≠ 0#32 then mask.union .READ else mask
  if events &&& POLLOUT ≠ 0#32 then mask.union .WRITE else mask

/-- The pending slots behind a poll. -/
def setPending (s : EvportState) (evs : List PortEvent) : EvportState :=
  { s with
    npending := evs.length
    pendingFds := fun i => ((evs[i]?).map fun e => (e.object : ℤ)).getD (s.pendingFds i)
    pendingMasks := fun i => ((evs[i]?).map (·.user)).getD (s.pendingMasks i) }

/-- `loopyInternalPoll`: the entries it writes to `l->fired`. -/
def loopyInternalPoll (ready : List (ℕ × BitVec 32)) (s : EvportState) :
    List LoopyFiredEvent × EvportState :=
  let s := { (List.range s.npending).foldl reassociate s with npending := 0 }
  let (evs, s) := portGetn (ready.take MAX_EVENT_BATCHSZ) s
  (evs.map fun e => ⟨e.object, firedMask e.events⟩, setPending s evs)

/-- One operation on the loop: a table call, or a poll with the descriptors that have
events. -/
inductive Input
  | call (c : TableCall) (env : Env Unit)
  | poll (ready : List (ℕ × BitVec 32))

/-- One operation as a step. -/
def step (l : LoopyLoop EvportState) : Input → Option (LoopyLoop EvportState)
  | .call c env => (c.perform evportAdapter env l).map Prod.snd
  | .poll ready => l.state.map fun s =>
    let (fired, s) := loopyInternalPoll ready s
    { l with state := some s, fired := Machine.writeFired l.fired fired }

end Loopy.Evport
