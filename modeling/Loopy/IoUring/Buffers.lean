import Loopy.IoUring.Entries
import Loopy.Lib.Memory

/-!
# Provided buffers

The machine of the io_uring backend together with what its kernel does for operations: which
requests are in flight and which buffers the kernel holds, in its groups or picked for a
receive. A request completes when the kernel answers it, in any order and at any time, so the
machine's `complete` input does not occur by itself here.

The memory of a pool is an address range. `loopyIoUringBufferPoolNew` gets memory nobody uses,
a pool that could not be created and one that was freed give it back, and the memory an
application provides by itself is its own. `Permitted` is what the language and the callers
promise: a stack variable has an address of its own, a pool is freed once, and memory that
was given back is not provided again.
-/

namespace Loopy.IoUring

open Loopy.EventLoop Loopy.Lib Loopy.Epoll

/-! ## Buffers and requests -/

/-- A buffer as the kernel knows it. -/
structure Buffer where
  group : ℕ
  bid : ℕ
  memory : Region
deriving DecidableEq, Repr

/-- `pool->buffers`. -/
def BufferPool.memory (pool : BufferPool) : Region :=
  ⟨pool.buffers, pool.bufferSize * pool.bufferCount⟩

/-- The buffers a request asks the kernel to take. -/
def OpRequest.offers : OpRequest → List Buffer
  | .provideBuffers buffers bufSize count groupId bufId _ _ =>
    (List.range count).map fun i => ⟨groupId, (bufId + i) % 2 ^ 16, .elem buffers bufSize i⟩
  | _ => []

/-- The group a request wants a buffer of. -/
def OpRequest.selects : OpRequest → Option ℕ
  | .recvPooled _ groupId _ _ _ | .readPooled _ groupId _ _ _ => some groupId
  | _ => none

/-- A published request that is not complete; `held` is the buffer picked for it. -/
structure Sent where
  tag : ℕ
  id : ℕ
  request : OpRequest
  held : Option Buffer
deriving DecidableEq, Repr

/-- The kernel's answer to a request: it has taken the first `count` of the buffers offered,
removed some, filled the buffer it had picked, or did something else. -/
inductive Answer
  | provided (count : ℕ) (res : ℤ)
  | removed (buffers : List Buffer)
  | filled (res : ℤ)
  | plain (res : ℤ) (more : Bool)
deriving DecidableEq, Repr

/-- The completion an answer posts, and the buffers then in the kernel's groups. -/
structure Response where
  provided : List Buffer
  res : ℤ
  flags : BitVec 32
deriving DecidableEq, Repr

/-- The response to a request, for the answers it can get: a failed `PROVIDE_BUFFERS` or
`REMOVE_BUFFERS` changes nothing, and only a multishot request goes on. -/
def Sent.respond (e : Sent) (provided : List Buffer) : Answer → Option Response
  | .provided count res =>
    if e.request.offers ≠ [] ∧ 0 ≤ res then
      some ⟨provided ++ e.request.offers.take count, res, 0⟩
    else none
  | .removed buffers =>
    match e.request with
    | .removeBuffers count groupId _ _ =>
      if (∀ b ∈ buffers, b ∈ provided ∧ b.group = groupId) ∧ buffers.length ≤ count then
        some ⟨provided.diff buffers, buffers.length, 0⟩
      else none
    | _ => none
  | .filled res => e.held.map fun b =>
    ⟨provided, res, IORING_CQE_F_BUFFER ||| BitVec.ofNat 32 (b.bid * 2 ^ 16)⟩
  | .plain res more =>
    match e.request with
    | .provideBuffers .. | .removeBuffers .. =>
      if res < 0 ∧ more = false then some ⟨provided, res, 0⟩ else none
    | .acceptMultishot .. => some ⟨provided, res, if more then IORING_CQE_F_MORE else 0⟩
    | _ => if e.held = none ∧ more = false then some ⟨provided, res, 0⟩ else none

/-! ## The system -/

/-- The machine, the requests in flight, the kernel's groups, and the pools that
`loopyIoUringBufferPoolNew` has returned and those whose memory was given back. `opIds` is
the id the submission of the call with a context returned. -/
structure PoolSystem where
  machine : Machine
  sent : List Sent
  provided : List Buffer
  registered : List BufferPool
  freed : List BufferPool
  opIds : ℕ → ℕ

/-- One interaction: of the machine, or of its kernel with the `k`-th request in flight. -/
inductive Move
  | machine (i : Input)
  | pick (k : ℕ) (buffer : Buffer)
  | answer (k : ℕ) (answer : Answer)
deriving DecidableEq, Repr

/-- A call of a pool function that has not returned. -/
structure Pending where
  create : Bool
  pool : BufferPool
  ctx : ℕ
deriving DecidableEq, Repr

/-- The calls of pool functions on a stack. -/
def pendingOn (fs : List Frame) : List Pending :=
  fs.filterMap fun f => match f with
    | .pool p => some ⟨p.create, p.pool, p.ctx⟩
    | _ => none

namespace PoolSystem

/-- The calls of pool functions that have not returned. -/
def pending (s : PoolSystem) : List Pending := pendingOn s.machine.frames

/-- The pools whose memory is in use. -/
def live (s : PoolSystem) : List BufferPool := s.pending.map (·.pool) ++ s.registered

/-- The kernel has no buffer of its groups in a region. -/
def NoneProvided (s : PoolSystem) (r : Region) : Prop := ∀ b ∈ s.provided, b.memory.Apart r

/-- No receive in flight has a buffer in a region. -/
def NoneHeld (s : PoolSystem) (r : Region) : Prop :=
  ∀ e ∈ s.sent, ∀ b ∈ e.held, b.memory.Apart r

/-- No request in flight offers a buffer in a region. -/
def NoneOffered (s : PoolSystem) (r : Region) : Prop :=
  ∀ e ∈ s.sent, ∀ b ∈ e.request.offers, b.memory.Apart r

/-- Memory that `zmalloc` may return. -/
def Unused (s : PoolSystem) (r : Region) : Prop :=
  (∀ pool ∈ s.live, pool.memory.Apart r) ∧ s.NoneProvided r ∧ s.NoneHeld r ∧ s.NoneOffered r

/-- What the language and the callers promise: a context has an address of its own, memory
comes from `zmalloc`, a pool is freed once, a descriptor is an `int`, `bufferPoolOpCallback`
is not for others, and nobody provides memory that was given back or is about to be. -/
def Permitted (s : PoolSystem) : Input → Prop
  | .call (.submit r _ _) => r.callback ≠ bufferPoolOpCallback ∧ ∀ b ∈ r.offers,
      (∀ pool ∈ s.freed, b.memory.Apart pool.memory) ∧
        ∀ p ∈ s.pending, b.memory.Apart p.pool.memory
  | .call (.poolNew pool ctx _ _) => (∀ p ∈ s.pending, p.ctx ≠ ctx) ∧ s.Unused pool.memory
  | .call (.poolFree pool ctx _ _) => (∀ p ∈ s.pending, p.ctx ≠ ctx) ∧ pool ∈ s.registered
  | .call (.addPoll fd _ _) | .call (.removePoll fd _) => fd < 2 ^ 31
  | .complete _ _ _ => False
  | _ => True

instance (s : PoolSystem) (r : Region) : Decidable (s.NoneProvided r) :=
  inferInstanceAs (Decidable (∀ b ∈ s.provided, b.memory.Apart r))

instance (s : PoolSystem) (r : Region) : Decidable (s.NoneHeld r) :=
  inferInstanceAs (Decidable (∀ e ∈ s.sent, ∀ b ∈ e.held, b.memory.Apart r))

instance (s : PoolSystem) (r : Region) : Decidable (s.NoneOffered r) :=
  inferInstanceAs (Decidable (∀ e ∈ s.sent, ∀ b ∈ e.request.offers, b.memory.Apart r))

instance (s : PoolSystem) (r : Region) : Decidable (s.Unused r) :=
  inferInstanceAs (Decidable (_ ∧ _ ∧ _ ∧ _))

instance (s : PoolSystem) : (i : Input) → Decidable (s.Permitted i)
  | .call (.submit _ _ _) | .call (.poolNew _ _ _ _) | .call (.poolFree _ _ _ _) =>
    inferInstanceAs (Decidable (_ ∧ _))
  | .call (.addPoll fd _ _) | .call (.removePoll fd _) => inferInstanceAs (Decidable (fd < 2 ^ 31))
  | .complete _ _ _ => isFalse id
  | .call (.table _ _) | .go _ | .ret | .poll _ | .ready _ _ | .failed _ _ => isTrue trivial

/-- The reports of the machine's submit functions. -/
def reports (m : Machine) : List Report := (m.loop.state.map (·.reports)).getD []

/-- What a step has reported. -/
def newReports (m m' : Machine) : List Report :=
  (reports m').take ((reports m').length - (reports m).length)

/-- The requests a step has published. -/
def published (m m' : Machine) (r : OpRequest) : List Sent :=
  (newReports m m').map fun report => ⟨report.tag, report.id, r, none⟩

/-- The id a submission has returned, or 0. -/
def returnedId (m m' : Machine) : ℕ :=
  (((newReports m m').find? (·.ok)).map (·.id)).getD 0

/-- The call of a pool function has made its request. -/
def requested (s : PoolSystem) (m' : Machine) (create : Bool) (pool : BufferPool) (ctx : ℕ) :
    PoolSystem :=
  { s with
    machine := m'
    sent := s.sent ++ published s.machine m' (Machine.poolRequest create pool ctx)
    opIds := Function.update s.opIds ctx (returnedId s.machine m') }

/-- `loopyIoUringBufferPoolNew` has been called: its arguments were refused, its submission
was and the memory is given back, or it polls. -/
def called (s : PoolSystem) (u : IoUringState) (m' : Machine) (pool : BufferPool) (ctx : ℕ) :
    PoolSystem :=
  if pool.bufferSize = 0 ∨ pool.bufferCount = 0 ∨ (u.bufferPool pool.groupId).isSome then
    { s with machine := m' }
  else
    let s' := s.requested m' true pool ctx
    let freed := s.freed.filter (·.memory.Apart pool.memory)
    if m'.frames = s.machine.frames then { s' with freed := pool :: freed }
    else { s' with freed := freed }

/-- A pool function has returned: the pool is the caller's, or its memory is given back. -/
def returned (s : PoolSystem) (m' : Machine) (p : PoolCall) : PoolSystem :=
  if p.create ∧ ∃ res ∈ s.machine.contexts p.ctx, 0 ≤ res then
    { s with machine := m', registered := p.pool :: s.registered }
  else { s with machine := m', freed := p.pool :: s.freed }

/-- What a step of the machine means for the pools. -/
def after (s : PoolSystem) (u : IoUringState) (i : Input) (m' : Machine) : PoolSystem :=
  match i, s.machine.frames with
  | .call (.submit r _ _), _ =>
    { s with machine := m', sent := s.sent ++ published s.machine m' r }
  | .call (.poolNew pool ctx _ _), _ => s.called u m' pool ctx
  | .call (.poolFree pool ctx _ _), _ =>
    { s.requested m' false pool ctx with registered := s.registered.erase pool }
  | .go _, .pool p :: _ => s.returned m' p
  | _, _ => { s with machine := m' }

/-- The kernel picks a buffer of the group for a receive. -/
def pick (s : PoolSystem) (u : IoUringState) (k : ℕ) (buffer : Buffer) : Option PoolSystem :=
  match s.sent[k]? with
  | none => none
  | some e =>
    if e.tag ∈ u.kernel.consumed ∧ e.held = none ∧ e.request.selects = some buffer.group ∧
        buffer ∈ s.provided then
      some { s with
        sent := s.sent.set k { e with held := some buffer }
        provided := s.provided.erase buffer }
    else none

/-- The kernel answers a request it has consumed. -/
def answer (s : PoolSystem) (u : IoUringState) (k : ℕ) (answer : Answer) : Option PoolSystem :=
  match s.sent[k]? with
  | none => none
  | some e =>
    if e.tag ∈ u.kernel.consumed then
      (e.respond s.provided answer).map fun response =>
        let cqe : Cqe := ⟨markFile e.id, response.res, response.flags, .operation⟩
        { s with
          machine := s.machine.withState (u.onKernel (·.post cqe))
          sent := if cqe.hasMore then s.sent else s.sent.eraseIdx k
          provided := response.provided }
    else none

/-- One step. -/
def step (s : PoolSystem) : Move → Option PoolSystem
  | .machine i =>
    match s.machine.loop.state with
    | none => none
    | some u => if s.Permitted i then (s.machine.step i).map (s.after u i) else none
  | .pick k buffer => s.machine.loop.state.bind fun u => s.pick u k buffer
  | .answer k answer => s.machine.loop.state.bind fun u => s.answer u k answer

/-- User code with a fresh loop, and no pools. -/
def start (bits ops n addr : ℕ) : PoolSystem where
  machine := .start bits ops n addr
  sent := []
  provided := []
  registered := []
  freed := []
  opIds := fun _ => 0

/-! ## What the pool functions promise -/

/-- No tracked operation refers to the context of a call that has returned, the kernel has no
buffer of a pool whose memory was given back, and no receive is handed an address in it: it
is handed NULL, or a buffer of the pool its group has now. -/
structure Released (s : PoolSystem) : Prop where
  contexts : ∀ u ∈ s.machine.loop.state, ∀ i, u.fileState.Active i →
    (u.fileState.op i).callback = bufferPoolOpCallback →
    ∃ p ∈ s.pending, (u.fileState.op i).userData = p.ctx
  buffers : ∀ pool ∈ s.freed, s.NoneProvided pool.memory ∧ s.NoneHeld pool.memory
  handed : ∀ pool ∈ s.freed, ∀ u ∈ s.machine.loop.state, ∀ i, u.fileState.Active i →
    ∀ cqe call bid addr size, u.bufferCall (u.fileState.op i) cqe = some call →
    call.buffer = some (bid, addr, size) →
    (∀ own ∈ u.bufferPool (u.fileState.op i).bufferGroup, bid < own.bufferCount) →
    Region.Apart ⟨addr, size⟩ pool.memory

/-- The pool function that may be about to return. -/
def ending (s : PoolSystem) : Option PoolCall :=
  match s.machine.frames with
  | .pool p :: _ => some p
  | _ => none

/-- The call's operation has completed, or was refused and the pool's buffers are all out;
and no receive in flight has a buffer of a pool that is being freed. -/
def EndsInTime (s : PoolSystem) (p : PoolCall) : Prop :=
  ((s.machine.contexts p.ctx).isSome = true ∨
    (p.create = false ∧ s.opIds p.ctx = 0 ∧ s.NoneProvided p.pool.memory)) ∧
  (p.create = false → s.NoneHeld p.pool.memory)

/-- Ids are below bit 63, `loopyIoUringBufferPoolNew` enters the kernel, a pool is not freed
while a request in flight offers its buffers, and a pool function ends in time. -/
def AdmittedIn (s : PoolSystem) (u : IoUringState) : Input → Prop
  | .call (.submit _ _ _) => u.fileState.nextId < fileBit
  | .call (.poolNew _ _ _ ok) => u.fileState.nextId < fileBit ∧ ok = true
  | .call (.poolFree pool _ _ _) => u.fileState.nextId < fileBit ∧ s.NoneOffered pool.memory
  | .go _ => ∀ p ∈ s.ending, s.EndsInTime p
  | _ => True

/-- The same, and the answer to the request of `loopyIoUringBufferPoolFree` leaves no buffer
of the pool in the kernel's groups. -/
def Admitted (s : PoolSystem) : Move → Prop
  | .machine i => ∀ u ∈ s.machine.loop.state, s.AdmittedIn u i
  | .pick _ _ => True
  | .answer k answer => ∀ e ∈ s.sent[k]?, ∀ response ∈ e.respond s.provided answer,
      ∀ p ∈ s.pending, p.create = false → s.opIds p.ctx = e.id →
      ∀ b ∈ response.provided, b.memory.Apart p.pool.memory

instance (s : PoolSystem) (p : PoolCall) : Decidable (s.EndsInTime p) :=
  inferInstanceAs (Decidable (_ ∧ (_ → _)))

instance (s : PoolSystem) (u : IoUringState) : (i : Input) → Decidable (s.AdmittedIn u i)
  | .call (.submit _ _ _) => inferInstanceAs (Decidable (_ < _))
  | .call (.poolNew _ _ _ _) | .call (.poolFree _ _ _ _) => inferInstanceAs (Decidable (_ ∧ _))
  | .go _ => inferInstanceAs (Decidable (∀ p ∈ s.ending, s.EndsInTime p))
  | .call (.table _ _) | .call (.addPoll _ _ _) | .call (.removePoll _ _) | .ret | .poll _
  | .ready _ _ | .failed _ _ | .complete _ _ _ => isTrue trivial

instance (s : PoolSystem) : (move : Move) → Decidable (s.Admitted move)
  | .machine i => inferInstanceAs (Decidable (∀ u ∈ s.machine.loop.state, s.AdmittedIn u i))
  | .pick _ _ => isTrue trivial
  | .answer k answer => inferInstanceAs (Decidable (∀ e ∈ s.sent[k]?,
      ∀ response ∈ e.respond s.provided answer, ∀ p ∈ s.pending, p.create = false →
      s.opIds p.ctx = e.id → ∀ b ∈ response.provided, b.memory.Apart p.pool.memory))

end PoolSystem

end Loopy.IoUring
