import Loopy.EventLoop.Basic

/-!
# `loopyAdapterLinux.c`: the epoll adapter

`EpollState` is the kernel's epoll instance: the interest set, and the `epoll_ctl` calls
issued so far with whether the descriptor was in the set. `epoll_ctl` follows the manual:
`EPOLL_CTL_ADD` fails on a present descriptor, `EPOLL_CTL_MOD` and `EPOLL_CTL_DEL` on an
absent one; otherwise the kernel may still refuse. Of the descriptors that are ready
`epoll_wait` reports those in the interest set, with the bits asked for and with `EPOLLERR`
and `EPOLLHUP`, which need not be asked for; a failed call reports nothing.
-/

namespace Loopy.Epoll

open Loopy.EventLoop

/-! ## Event bits -/

/-- `EPOLLIN`. -/
def EPOLLIN : BitVec 32 := 0x001#32

/-- `EPOLLOUT`. -/
def EPOLLOUT : BitVec 32 := 0x004#32

/-- `EPOLLERR`. -/
def EPOLLERR : BitVec 32 := 0x008#32

/-- `EPOLLHUP`. -/
def EPOLLHUP : BitVec 32 := 0x010#32

/-- `ee.events` for a mask, as both adapter functions build it. -/
def epollEvents (mask : LoopyAction) : BitVec 32 :=
  let events := 0#32
  let events := if mask.read then events ||| EPOLLIN else events
  if mask.write then events ||| EPOLLOUT else events

/-! ## The kernel's epoll instance -/

/-- The operation of an `epoll_ctl` call. -/
inductive CtlOp
  | add
  | mod
  | del
deriving DecidableEq, Repr

/-- An issued `epoll_ctl` call; `present` tells whether `fd` was in the interest set. -/
structure CtlCall where
  op : CtlOp
  fd : ℕ
  events : BitVec 32
  present : Bool
deriving DecidableEq, Repr

/-- The epoll instance behind `state->epollFd`. -/
structure EpollState where
  interest : ℕ → Option (BitVec 32)
  issued : List CtlCall

/-- `epoll_ctl`, given whether the kernel grants a well-formed request. -/
def epollCtl (grant : Bool) (s : EpollState) (op : CtlOp) (fd : ℕ) (events : BitVec 32) :
    Bool × EpollState :=
  let present := (s.interest fd).isSome
  let s := { s with issued := s.issued ++ [⟨op, fd, events, present⟩] }
  let wellFormed := match op with
    | .add => !present
    | .mod => present
    | .del => present
  if wellFormed && grant then
    let entry := if op = .del then none else some events
    (true, { s with interest := Function.update s.interest fd entry })
  else (false, s)

/-! ## The adapter -/

/-- `loopyInternalNew`. -/
def loopyInternalNew (_setSize : ℕ) : EpollState := { interest := fun _ => none, issued := [] }

/-- `loopyInternalResize`: only the array `epoll_wait` fills is reallocated. -/
def loopyInternalResize (s : EpollState) (_setSize : ℕ) : EpollState := s

/-- `loopyInternalAddEvent`. -/
def loopyInternalAddEvent (grant : Bool) (events : ℕ → LoopyFileEvent) (s : EpollState) (fd : ℕ)
    (mask : LoopyAction) : Bool × EpollState :=
  let op := if (events fd).mask = .NONE then CtlOp.add else CtlOp.mod
  let mask := mask.union (events fd).mask
  epollCtl grant s op fd (epollEvents mask)

/-- `loopyInternalDelEvent`: the result of `epoll_ctl` is ignored, and the kernel grants
what removes interest. -/
def loopyInternalDelEvent (events : ℕ → LoopyFileEvent) (s : EpollState) (fd : ℕ)
    (delmask : LoopyAction) : EpollState :=
  let mask := (events fd).mask.diff delmask
  if mask ≠ .NONE then (epollCtl true s .mod fd (epollEvents mask)).2
  else (epollCtl true s .del fd (epollEvents mask)).2

/-- The epoll adapter of `loopy.c`; the answer of a call is whether the kernel grants the
`epoll_ctl` of `loopyInternalAddEvent`. -/
def epollAdapter : Adapter EpollState Bool where
  new := loopyInternalNew
  resize := loopyInternalResize
  addEvent := loopyInternalAddEvent
  delEvent := fun _ events s fd delmask => loopyInternalDelEvent events s fd delmask

/-! ## Polling -/

/-- A descriptor with event bits. -/
abbrev EpollEvent := ℕ × BitVec 32

/-- What the kernel reports of one ready descriptor. -/
def reported (s : EpollState) (e : EpollEvent) : Option EpollEvent :=
  match s.interest e.1 with
  | none => none
  | some interest =>
    let events := e.2 &&& (interest ||| EPOLLERR ||| EPOLLHUP)
    if events = 0#32 then none else some (e.1, events)

/-- `epoll_wait`. -/
def epollWait (s : EpollState) (maxevents : ℕ) (ready : List EpollEvent) : List EpollEvent :=
  (ready.filterMap (reported s)).take maxevents

/-- `e->events & bit`. -/
def hasBit (events bit : BitVec 32) : Bool := events &&& bit != 0#32

/-- The mask of one epoll event. -/
def firedMask (events : BitVec 32) : LoopyAction :=
  let mask := LoopyAction.NONE
  let mask := if hasBit events EPOLLIN then mask.union .READ else mask
  let mask := if hasBit events EPOLLOUT then mask.union .WRITE else mask
  let mask := if hasBit events EPOLLERR then mask.union .WRITE else mask
  if hasBit events EPOLLHUP then mask.union .WRITE else mask

/-- `loopyInternalPoll`: the entries it writes to `l->fired`. -/
def loopyInternalPoll (ready : List EpollEvent) (setSize : ℕ) (s : EpollState) :
    List LoopyFiredEvent × EpollState :=
  ((epollWait s setSize ready).map fun e => ⟨e.1, firedMask e.2⟩, s)

end Loopy.Epoll
