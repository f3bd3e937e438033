import Loopy.EventLoop.Machine
import Loopy.EventLoop.Theorems

/-!
# `loopyAdapterGeneric.c`: the select adapter

The adapter's state is four `fd_set`s in a row, as many bits of memory. `FD_SET` and its companions
compute an address from the descriptor and check nothing, so an index past `FD_SETSIZE` lands in the
next set or behind the struct. The hook that could refuse such a descriptor is `loopyInternalResize`;
`loopy.c` drops what it returns.

`FD_SETSIZE` comes from the system's headers and is a parameter.
-/

namespace Loopy.Select

open Loopy.EventLoop

/-! ## `fd_set` -/

/-- The sets of `loopyInternalState`, in the order of the struct; `select` overwrites the copies. -/
inductive FdSet
  | rfds
  | wfds
  | rfdsCopy
  | wfdsCopy
deriving DecidableEq, Repr

/-- The memory at `l->state`, and the indices that `FD_SET`, `FD_CLR` and `FD_ISSET` were applied to
(latest first). -/
structure SelectState where
  memory : ℕ → Bool
  indices : List ℕ

section

variable (FD_SETSIZE : ℕ)

/-- Where a set begins. -/
def FdSet.offset : FdSet → ℕ
  | .rfds => 0
  | .wfds => FD_SETSIZE
  | .rfdsCopy => 2 * FD_SETSIZE
  | .wfdsCopy => 3 * FD_SETSIZE

/-- The bit of a descriptor in a set. -/
def SelectState.bit (s : SelectState) (set : FdSet) (fd : ℕ) : Bool :=
  s.memory (set.offset FD_SETSIZE + fd)

/-- Write the bit of a descriptor in a set. -/
def SelectState.write (s : SelectState) (fd : ℕ) (set : FdSet) (on : Bool) : SelectState :=
  { memory := Function.update s.memory (set.offset FD_SETSIZE + fd) on
    indices := fd :: s.indices }

/-- `FD_SET`. -/
def FD_SET (fd : ℕ) (set : FdSet) (s : SelectState) : SelectState := s.write FD_SETSIZE fd set true

/-- `FD_CLR`. -/
def FD_CLR (fd : ℕ) (set : FdSet) (s : SelectState) : SelectState := s.write FD_SETSIZE fd set false

/-- `FD_ISSET`. -/
def FD_ISSET (fd : ℕ) (set : FdSet) (s : SelectState) : Bool × SelectState :=
  (s.bit FD_SETSIZE set fd, { s with indices := fd :: s.indices })

/-- `memcpy` of one set to another. -/
def memcpy (dst src : FdSet) (s : SelectState) : SelectState :=
  let start := dst.offset FD_SETSIZE
  { s with
    memory := fun a =>
      if start ≤ a ∧ a < start + FD_SETSIZE then s.bit FD_SETSIZE src (a - start) else s.memory a }

/-- `select` on the two copies: of their first `nfds` bits the ones that are ready stay. -/
def select (nfds : ℕ) (ready : ℕ → LoopyAction) (s : SelectState) : SelectState :=
  let reads := FdSet.rfdsCopy.offset FD_SETSIZE
  let writes := FdSet.wfdsCopy.offset FD_SETSIZE
  { s with
    memory := fun a =>
      if writes ≤ a ∧ a < writes + nfds then s.memory a && (ready (a - writes)).write
      else if reads ≤ a ∧ a < reads + nfds then s.memory a && (ready (a - reads)).read
      else s.memory a }

/-! ## The adapter -/

/-- `loopyInternalNew`. -/
def loopyInternalNew (_setSize : ℕ) : SelectState := { memory := fun _ => false, indices := [] }

/-- `loopyInternalResize`. -/
def loopyInternalResize (s : SelectState) (setSize : ℕ) : Bool × SelectState :=
  if setSize ≥ FD_SETSIZE then (false, s) else (true, s)

/-- `loopyInternalAddEvent`. -/
def loopyInternalAddEvent (s : SelectState) (fd : ℕ) (mask : LoopyAction) : Bool × SelectState :=
  let s := if mask.read then FD_SET FD_SETSIZE fd .rfds s else s
  let s := if mask.write then FD_SET FD_SETSIZE fd .wfds s else s
  (true, s)

/-- `loopyInternalDelEvent`. -/
def loopyInternalDelEvent (s : SelectState) (fd : ℕ) (mask : LoopyAction) : SelectState :=
  let s := if mask.read then FD_CLR FD_SETSIZE fd .rfds s else s
  if mask.write then FD_CLR FD_SETSIZE fd .wfds s else s

/-- The loop over the descriptors after `select`, which fills `l->fired`. -/
def collect (events : ℕ → LoopyFileEvent) : List ℕ → SelectState → List LoopyFiredEvent × SelectState
  | [], s => ([], s)
  | j :: js, s =>
    let mask := (events j).mask
    if mask = .NONE then collect events js s
    else
      let (read, s) := if mask.read then FD_ISSET FD_SETSIZE j .rfdsCopy s else (false, s)
      let (write, s) := if mask.write then FD_ISSET FD_SETSIZE j .wfdsCopy s else (false, s)
      let (fired, s) := collect events js s
      (⟨j, ⟨read, write⟩⟩ :: fired, s)

/-- `loopyInternalPoll`: the entries it writes to `l->fired`. The answer of `select` is the ready
directions, or none when it times out or fails. -/
def loopyInternalPoll (answer : Option (ℕ → LoopyAction)) (events : ℕ → LoopyFileEvent) (maxfd : ℤ)
    (s : SelectState) : List LoopyFiredEvent × SelectState :=
  let s := memcpy FD_SETSIZE .rfdsCopy .rfds s
  let s := memcpy FD_SETSIZE .wfdsCopy .wfds s
  match answer with
  | none => ([], s)
  | some ready =>
    let nfds := (maxfd + 1).toNat
    collect FD_SETSIZE events (List.range nfds) (select FD_SETSIZE nfds ready s)

/-- The select adapter of `loopy.c`. -/
def selectAdapter : Adapter SelectState Unit where
  new := loopyInternalNew
  resize := fun s setSize => (loopyInternalResize FD_SETSIZE s setSize).2
  addEvent := fun _ _ s fd mask => loopyInternalAddEvent FD_SETSIZE s fd mask
  delEvent := fun _ _ s fd mask => loopyInternalDelEvent FD_SETSIZE s fd mask

/-! ## Sequences of operations -/

/-- A table call that was made. -/
structure Made where
  before : LoopyLoop SelectState
  call : TableCall
  result : Bool
  after : LoopyLoop SelectState

/-- The loop, and the calls made so far (latest first). -/
structure System where
  loop : LoopyLoop SelectState
  calls : List Made

/-- An operation: a table call with the address `zrealloc` would return, or a poll with the answer of
`select`. -/
inductive Operation
  | call (c : TableCall) (addr : ℕ)
  | poll (answer : Option (ℕ → LoopyAction))

/-- Perform an operation. -/
def step (m : System) : Operation → Option System
  | .call c addr => do
    let (result, l) ← c.perform (selectAdapter FD_SETSIZE) ⟨addr, ()⟩ m.loop
    return { loop := l, calls := ⟨m.loop, c, result, l⟩ :: m.calls }
  | .poll answer => do
    let s ← m.loop.state
    let (batch, s) := loopyInternalPoll FD_SETSIZE answer m.loop.events m.loop.maxfd s
    let l := { m.loop with state := some s, fired := Machine.writeFired m.loop.fired batch }
    return { m with loop := l }

/-- A loop of `loopyInit` for `n` descriptors. -/
def start (n addr : ℕ) : System := { loop := .fresh (selectAdapter FD_SETSIZE) n addr, calls := [] }

end

end Loopy.Select
