import Loopy.IoUring.Buffers
import Loopy.IoUring.Tracking

/-!
# What holds of the buffer pools

`PoolsOk` ties the tracked operations, the requests in flight and their completions to the
calls of pool functions on the stack, and the memory the kernel has to the pools in use. Each
way a step can matter to it has a lemma of its own: a call begins, publishes its request or
somebody else's, is completed, and returns; the kernel picks a buffer and answers.
-/

namespace Loopy.IoUring

open Loopy.EventLoop Loopy.Lib Loopy.Epoll FileState
open Function (update update_of_ne update_self)

/-! ## The slot being freed -/

/-- The slot the completion loop frees when the callback has returned. -/
def Poll.finishes (p : Poll) : Option SlotPtr :=
  match p.pc with
  | .returned fileOp .complete _ => some fileOp
  | _ => none

/-- The slot that is about to be freed, with no user code to run before. -/
def Machine.settling (m : Machine) : Option SlotPtr :=
  match m.frames with
  | .callback call :: .poll p :: _ => if call.cb = bufferPoolOpCallback then p.finishes else none
  | .poll p :: _ => p.finishes
  | _ => none

variable {p : Poll} {m : Machine} {fs : List Frame}

theorem Poll.finishes_loop (h : p.pc = .loop) : p.finishes = none := by
  unfold finishes
  rw [h]

theorem settling_of_userRuns (h : m.userRuns = true ∨ ∃ p gs, m.frames = .pool p :: gs) :
    m.settling = none := by
  unfold Machine.settling
  rcases h with h | ⟨p, gs, hf⟩
  · unfold Machine.userRuns at h
    split at h
    · rename_i hf; rw [hf]
    · rename_i call gs hf
      rw [hf]
      cases gs with
      | nil => rfl
      | cons f gs =>
        cases f with
        | poll p => exact if_neg (by simpa using h)
        | _ => rfl
    · cases h
  · rw [hf]

theorem settling_poll (hf : m.frames = .poll p :: fs) : m.settling = p.finishes := by
  unfold Machine.settling
  rw [hf]

theorem settling_loop (hf : m.frames = .poll p :: fs) (hpc : p.pc = .loop) : m.settling = none := by
  rw [settling_poll hf]
  exact Poll.finishes_loop hpc

/-- Where no slot is being freed, none has to stay so. -/
theorem settling_absent {m' : Machine} (h : m.settling = none) {fileOp fileOp' : SlotPtr}
    (hset : m.settling = some fileOp) : m'.settling = some fileOp' := by
  rw [h] at hset
  cases hset

theorem pendingOn_stack {gs : List Frame} (h : Machine.PollStack fs gs) :
    pendingOn gs = pendingOn fs := by
  cases h with
  | user => rfl
  | pool => rfl

namespace PoolSystem

variable {s : PoolSystem} {u u' : IoUringState} {m' : Machine}

/-! ## The invariant -/

/-- The kernel has no buffer of the call's pool. While a pool is being freed, receives may
still have some. -/
def Clear (s : PoolSystem) (p : Pending) : Prop :=
  s.NoneProvided p.pool.memory ∧ (p.create = true → s.NoneHeld p.pool.memory)

/-- The call's request was answered with `res`: it is not in flight, and unless a pool was
created the kernel has no buffer of it. -/
def Answered (s : PoolSystem) (p : Pending) (res : ℤ) : Prop :=
  (∀ e ∈ s.sent, e.id ≠ s.opIds p.ctx) ∧ ((p.create = true → res < 0) → s.Clear p)

/-- The tracked operations of pool functions are those of calls that have not returned, and
not completed but for the one whose slot is being freed. -/
structure Tracked (s : PoolSystem) (u : IoUringState) : Prop where
  nextId_pos : 1 ≤ u.fileState.nextId
  nextId_le : u.fileState.nextId ≤ fileBit
  ctxs : (s.pending.map (·.ctx)).Nodup
  active : ∀ i, u.fileState.Active i → (u.fileState.op i).callback = bufferPoolOpCallback →
    ∃ p ∈ s.pending, (u.fileState.op i).userData = p.ctx ∧
      (u.fileState.op i).id = s.opIds p.ctx ∧ s.opIds p.ctx ≠ 0 ∧
      (s.machine.contexts p.ctx = none ∨ s.machine.settling = some ⟨u.fileState.ops, i⟩)
  ids : (s.sent.map (·.id)).Nodup
  sent_lt : ∀ e ∈ s.sent, 1 ≤ e.id ∧ e.id < u.fileState.nextId
  cq_lt : ∀ cqe ∈ u.kernel.cq, isFileOp cqe.userData = true →
    1 ≤ fileOpId cqe.userData ∧ fileOpId cqe.userData < u.fileState.nextId
  opIds_lt : ∀ p ∈ s.pending, s.opIds p.ctx < u.fileState.nextId

/-- The requests of the calls that have not returned: before they are answered the kernel has
nothing of a pool that is being created, and nobody else offers buffers of these pools. -/
structure Requests (s : PoolSystem) (u : IoUringState) : Prop where
  own : ∀ p ∈ s.pending, ∀ e ∈ s.sent, e.id = s.opIds p.ctx →
    e.request = Machine.poolRequest p.create p.pool p.ctx ∧ e.held = none
  others : ∀ p ∈ s.pending, ∀ e ∈ s.sent, e.id ≠ s.opIds p.ctx → ∀ b ∈ e.request.offers,
    b.memory.Apart p.pool.memory
  early : ∀ p ∈ s.pending, p.create = true → ∀ e ∈ s.sent, e.id = s.opIds p.ctx → s.Clear p
  posted : ∀ p ∈ s.pending, ∀ cqe ∈ u.kernel.cq, isFileOp cqe.userData = true →
    fileOpId cqe.userData = s.opIds p.ctx → cqe.flags = 0 ∧ s.Answered p cqe.res
  completed : ∀ p ∈ s.pending, ∀ res ∈ s.machine.contexts p.ctx, s.Answered p res

/-- The pools in use do not overlap, nothing the kernel has or is offered is in memory that
was given back, and the groups hold pools in use. -/
structure MemoryOk (s : PoolSystem) (u : IoUringState) : Prop where
  apart : s.live.Pairwise fun pool pool' => pool.memory.Apart pool'.memory
  live : ∀ pool ∈ s.live, ∀ gone ∈ s.freed, pool.memory.Apart gone.memory
  freed : ∀ gone ∈ s.freed, s.NoneProvided gone.memory ∧ s.NoneHeld gone.memory ∧
    s.NoneOffered gone.memory
  groups : ∀ g pool, u.bufferPoolGroups g = some pool → pool.groupId = g ∧ g < maxBufferGroups ∧
    (pool ∈ s.registered ∨ ∃ p ∈ s.pending, p.create = false ∧ p.pool = pool)

/-- The invariant. -/
structure PoolsOk (s : PoolSystem) (u : IoUringState) : Prop where
  state : s.machine.loop.state = some u
  table : TableInv s.machine.loop
  low : PollsLow u
  slots : u.fileState.Ok
  tracked : s.Tracked u
  requests : s.Requests u
  memory : s.MemoryOk u

/-- While no slot is being freed, the call of a tracked operation still waits for it. -/
theorem Tracked.waits (h : s.Tracked u) (hsettle : s.machine.settling = none) {i : ℕ}
    (hi : u.fileState.Active i) (hcb : (u.fileState.op i).callback = bufferPoolOpCallback) :
    ∃ p ∈ s.pending, (u.fileState.op i).userData = p.ctx ∧
      (u.fileState.op i).id = s.opIds p.ctx ∧ s.opIds p.ctx ≠ 0 ∧
      s.machine.contexts p.ctx = none := by
  obtain ⟨p, hp, hdata, hid, hne, hwait⟩ := h.active i hi hcb
  refine ⟨p, hp, hdata, hid, hne, hwait.resolve_right fun hset => ?_⟩
  rw [hsettle] at hset
  cases hset

/-- The memory is as it was if the calls and the groups are. -/
theorem MemoryOk.withMachine (h : s.MemoryOk u) (hpending : pendingOn m'.frames = s.pending)
    (hgroups : u'.bufferPoolGroups = u.bufferPoolGroups) :
    MemoryOk { s with machine := m' } u' := by
  have hlive : ({ s with machine := m' } : PoolSystem).live = s.live :=
    congrArg (fun ps : List Pending => ps.map (·.pool) ++ s.registered) hpending
  refine ⟨by rw [hlive]; exact h.apart, by rw [hlive]; exact h.live, h.freed, ?_⟩
  show ∀ g pool, u'.bufferPoolGroups g = some pool → pool.groupId = g ∧ g < maxBufferGroups ∧
    (pool ∈ s.registered ∨ ∃ p ∈ pendingOn m'.frames, p.create = false ∧ p.pool = pool)
  rw [hpending, hgroups]
  exact h.groups

/-! ## Steps that do not matter -/

/-- A step that completes no operation, at most frees slots and leaves the calls alone. -/
theorem PoolsOk.aside (h : s.PoolsOk u) (hs : m'.loop.state = some u') (ht : TableInv m'.loop)
    (hk : Keeps u u') (hf : Fewer u.fileState u'.fileState)
    (hpending : pendingOn m'.frames = s.pending) (hctx : m'.contexts = s.machine.contexts)
    (hsettle : ∀ i, u'.fileState.Active i → s.machine.settling = some ⟨u.fileState.ops, i⟩ →
      m'.settling = some ⟨u.fileState.ops, i⟩) : { s with machine := m' }.PoolsOk u' := by
  have hsame : ({ s with machine := m' } : PoolSystem).pending = s.pending := hpending
  obtain ⟨hpos, hle, hctxs, hactive, hids, hsent, hcq, hopIds⟩ := h.tracked
  obtain ⟨hown, hothers, hearly, hposted, hcompleted⟩ := h.requests
  rw [← hf.nextId] at hpos hle hsent hcq hopIds
  refine ⟨hs, ht, hk.low, hf.ok h.slots, ?_, ?_, h.memory.withMachine hpending hk.groups⟩
  · refine ⟨hpos, hle, by rw [hsame]; exact hctxs, fun i hi hcb => ?_, hids, hsent,
      fun cqe hin hfile => hcq cqe (hk.cq cqe hin hfile) hfile, by rw [hsame]; exact hopIds⟩
    obtain ⟨hact, hop⟩ := hf.active i hi
    rw [hop] at hcb ⊢
    obtain ⟨p, hp, hdata, hid, hne, hwait⟩ := hactive i hact hcb
    refine ⟨p, by rw [hsame]; exact hp, hdata, hid, hne, ?_⟩
    show m'.contexts p.ctx = none ∨ m'.settling = some ⟨u'.fileState.ops, i⟩
    rw [hctx, hf.ops]
    exact hwait.imp_right (hsettle i hi)
  · refine ⟨?_, ?_, ?_, ?_, ?_⟩
    · rw [hsame]; exact hown
    · rw [hsame]; exact hothers
    · rw [hsame]; exact hearly
    · rw [hsame]
      exact fun p hp cqe hin hfile => hposted p hp cqe (hk.cq cqe hin hfile) hfile
    · rw [hsame]
      show ∀ p ∈ s.pending, ∀ res ∈ m'.contexts p.ctx, s.Answered p res
      rw [hctx]
      exact hcompleted

/-! ## Requests -/

theorem NoneHeld.append {t : PoolSystem} {e : Sent} {r : Region} (h : s.NoneHeld r)
    (hsent : t.sent = s.sent ++ [e]) (he : e.held = none) : t.NoneHeld r := by
  intro e' hin b hb
  rw [hsent] at hin
  rcases List.mem_append.mp hin with hin | hin
  · exact h e' hin b hb
  · rw [List.mem_singleton.mp hin, he] at hb
    cases hb

/-- A request is published under a new id, by a call that has not published one or by somebody
else, whose buffers are not those of a call's pool. -/
structure Publishes (s : PoolSystem) (u u' : IoUringState) (m' : Machine) (r : OpRequest)
    (opIds' : ℕ → ℕ) : Prop where
  state : m'.loop.state = some u'
  table : TableInv m'.loop
  keeps : Keeps u u'
  slots : u'.fileState.Ok
  nextId : u'.fileState.nextId = u.fileState.nextId + 1
  id_lt : u.fileState.nextId < fileBit
  pending : pendingOn m'.frames = s.pending
  contexts : m'.contexts = s.machine.contexts
  settling : s.machine.settling = none
  active : ∀ i, u'.fileState.Active i →
    (u'.fileState.op i).callback = bufferPoolOpCallback →
    (u.fileState.Active i ∧ u'.fileState.op i = u.fileState.op i) ∨
    ∃ p ∈ s.pending, (u'.fileState.op i).userData = p.ctx ∧
      (u'.fileState.op i).id = u.fileState.nextId ∧ opIds' p.ctx = u.fileState.nextId ∧
      s.machine.contexts p.ctx = none
  opIds : ∀ p ∈ s.pending, opIds' p.ctx = s.opIds p.ctx ∨
    (opIds' p.ctx = u.fileState.nextId ∧ s.opIds p.ctx = 0 ∧
      r = Machine.poolRequest p.create p.pool p.ctx ∧ s.machine.contexts p.ctx = none ∧
      (p.create = true → s.Clear p))
  freed : ∀ gone ∈ s.freed, ∀ b ∈ r.offers, b.memory.Apart gone.memory
  offers : ∀ p ∈ s.pending, opIds' p.ctx ≠ u.fileState.nextId → ∀ b ∈ r.offers,
    b.memory.Apart p.pool.memory

/-- The state behind it. -/
def publish (s : PoolSystem) (m' : Machine) (r : OpRequest) (opIds' : ℕ → ℕ) (tag id : ℕ) :
    PoolSystem :=
  { s with machine := m', sent := s.sent ++ [⟨tag, id, r, none⟩], opIds := opIds' }

section

variable {r : OpRequest} {opIds' : ℕ → ℕ}

theorem mem_publish {tag id : ℕ} {e : Sent} : e ∈ (s.publish m' r opIds' tag id).sent ↔
    e ∈ s.sent ∨ e = ⟨tag, id, r, none⟩ := by
  show e ∈ s.sent ++ [⟨tag, id, r, none⟩] ↔ _
  rw [List.mem_append, List.mem_singleton]

theorem Publishes.pending_eq (h : Publishes s u u' m' r opIds') (tag id : ℕ) :
    (s.publish m' r opIds' tag id).pending = s.pending := h.pending

variable {p : Pending}

theorem Publishes.mem_pending (h : Publishes s u u' m' r opIds') {tag id : ℕ} :
    p ∈ (s.publish m' r opIds' tag id).pending ↔ p ∈ s.pending := by
  rw [h.pending_eq]

theorem Clear.publish (hc : s.Clear p) (tag id : ℕ) : (s.publish m' r opIds' tag id).Clear p :=
  ⟨hc.1, fun hcreate => (hc.2 hcreate).append rfl rfl⟩

/-- The request is not that of a call that was answered before. -/
theorem Answered.publish {res : ℤ} (ha : s.Answered p res) (tag : ℕ)
    (hp : opIds' p.ctx = s.opIds p.ctx) (hlt : s.opIds p.ctx < u.fileState.nextId) :
    (s.publish m' r opIds' tag u.fileState.nextId).Answered p res := by
  refine ⟨fun e hin => ?_, fun hres => (ha.2 hres).publish tag _⟩
  show e.id ≠ opIds' p.ctx
  rw [hp]
  rcases mem_publish.mp hin with hin | rfl
  · exact ha.1 e hin
  · exact Nat.ne_of_gt hlt

theorem Tracked.publish (ht : s.Tracked u) (h : Publishes s u u' m' r opIds') (tag : ℕ) :
    (s.publish m' r opIds' tag u.fileState.nextId).Tracked u' := by
  have hnext := h.nextId
  refine ⟨by omega, ?_, by rw [h.pending_eq]; exact ht.ctxs, fun i hi hcb => ?_, ?_,
    fun e hin => ?_, fun cqe hin hfile => ?_, fun p hp => ?_⟩
  · have := h.id_lt
    omega
  · have hkeep : ∀ p ∈ s.pending, s.opIds p.ctx ≠ 0 → opIds' p.ctx = s.opIds p.ctx :=
      fun p hp hne => (h.opIds p hp).resolve_right fun hnew => hne hnew.2.1
    rcases h.active i hi hcb with ⟨hact, hop⟩ | ⟨p, hp, hdata, hid, hnew, hnone⟩
    · rw [hop] at hcb ⊢
      obtain ⟨p, hp, hdata, hid, hne, hnone⟩ := ht.waits h.settling hact hcb
      refine ⟨p, h.mem_pending.mpr hp, hdata, ?_, ?_, Or.inl (h.contexts ▸ hnone)⟩
      · exact hid.trans (hkeep p hp hne).symm
      · show opIds' p.ctx ≠ 0
        rw [hkeep p hp hne]
        exact hne
    · refine ⟨p, h.mem_pending.mpr hp, hdata, hid.trans hnew.symm, ?_, Or.inl (h.contexts ▸ hnone)⟩
      have := ht.nextId_pos
      show opIds' p.ctx ≠ 0
      omega
  · show List.Nodup (List.map Sent.id (s.sent ++ [⟨tag, u.fileState.nextId, r, none⟩]))
    rw [List.map_append, List.nodup_append]
    refine ⟨ht.ids, List.nodup_singleton _, fun id hid id' hid' heq => ?_⟩
    obtain ⟨e, hin, rfl⟩ := List.mem_map.mp hid
    have := (ht.sent_lt e hin).2
    rw [heq, List.mem_singleton.mp hid'] at this
    exact absurd this (lt_irrefl _)
  · rcases mem_publish.mp hin with hin | rfl
    · have := ht.sent_lt e hin
      omega
    · have := ht.nextId_pos
      exact ⟨this, by rw [hnext]; exact Nat.lt_succ_self _⟩
  · have := ht.cq_lt cqe (h.keeps.cq cqe hin hfile) hfile
    omega
  · have hp' : p ∈ s.pending := h.mem_pending.mp hp
    have := ht.opIds_lt p hp'
    show opIds' p.ctx < _
    rcases h.opIds p hp' with heq | ⟨heq, -⟩ <;> omega

theorem Requests.publish (hr : s.Requests u) (ht : s.Tracked u)
    (h : Publishes s u u' m' r opIds') (tag : ℕ) :
    (s.publish m' r opIds' tag u.fileState.nextId).Requests u' := by
  refine ⟨fun p hp e hin hid => ?_, fun p hp e hin hid => ?_, fun p hp hcreate e hin hid => ?_,
    fun p hp cqe hin hfile hid => ?_, fun p hp res hres => ?_⟩
  all_goals have hp' : p ∈ s.pending := h.mem_pending.mp hp
  all_goals have hlt := ht.opIds_lt p hp'
  · have hid : e.id = opIds' p.ctx := hid
    rcases mem_publish.mp hin with hin | rfl
    · have := (ht.sent_lt e hin).2
      rcases h.opIds p hp' with heq | ⟨heq, -⟩
      · exact hr.own p hp' e hin (hid.trans heq)
      · omega
    · rcases h.opIds p hp' with heq | ⟨-, -, hreq, -⟩
      · exact absurd (hid.trans heq) (Nat.ne_of_gt hlt)
      · exact ⟨hreq, rfl⟩
  · have hid : e.id ≠ opIds' p.ctx := hid
    rcases mem_publish.mp hin with hin | rfl
    · have := (ht.sent_lt e hin).1
      refine hr.others p hp' e hin ?_
      rcases h.opIds p hp' with heq | ⟨-, hzero, -⟩ <;> omega
    · exact h.offers p hp' hid.symm
  · have hid : e.id = opIds' p.ctx := hid
    rcases h.opIds p hp' with heq | ⟨-, -, -, -, hclear⟩
    · rcases mem_publish.mp hin with hin | rfl
      · exact (hr.early p hp' hcreate e hin (hid.trans heq)).publish tag _
      · exact absurd (hid.trans heq) (Nat.ne_of_gt hlt)
    · exact (hclear hcreate).publish tag _
  · have hid : fileOpId cqe.userData = opIds' p.ctx := hid
    have hin' := h.keeps.cq cqe hin hfile
    have := (ht.cq_lt cqe hin' hfile).2
    rcases h.opIds p hp' with heq | ⟨heq, -⟩
    · obtain ⟨hflags, ha⟩ := hr.posted p hp' cqe hin' hfile (hid.trans heq)
      exact ⟨hflags, ha.publish tag heq hlt⟩
    · omega
  · have hres : res ∈ s.machine.contexts p.ctx := h.contexts ▸ hres
    rcases h.opIds p hp' with heq | ⟨-, -, -, hnone, -⟩
    · exact (hr.completed p hp' res hres).publish tag heq hlt
    · rw [hnone] at hres
      cases hres

theorem MemoryOk.publish (hm : s.MemoryOk u) (h : Publishes s u u' m' r opIds') (tag id : ℕ) :
    (s.publish m' r opIds' tag id).MemoryOk u' := by
  have hlive : (s.publish m' r opIds' tag id).live = s.live :=
    congrArg (fun ps : List Pending => ps.map (·.pool) ++ s.registered) h.pending
  refine ⟨hlive ▸ hm.apart, hlive ▸ hm.live, fun gone hgone => ?_, ?_⟩
  · obtain ⟨hprov, hheld, hoff⟩ := hm.freed gone hgone
    refine ⟨hprov, hheld.append rfl rfl, fun e hin => ?_⟩
    rcases mem_publish.mp hin with hin | rfl
    · exact hoff e hin
    · exact h.freed gone hgone
  · rw [h.pending_eq, h.keeps.groups]
    exact hm.groups

theorem PoolsOk.publish (hok : s.PoolsOk u) (h : Publishes s u u' m' r opIds') (tag : ℕ) :
    (s.publish m' r opIds' tag u.fileState.nextId).PoolsOk u' where
  state := h.state
  table := h.table
  low := h.keeps.low
  slots := h.slots
  tracked := hok.tracked.publish h tag
  requests := hok.requests.publish hok.tracked h tag
  memory := hok.memory.publish h tag _

end

/-! ## Calls -/

section

variable {p : Pending} {reg gone : List BufferPool}

/-- A call of a pool function has begun, with a context of its own. -/
def opened (s : PoolSystem) (m' : Machine) (ctx : ℕ) (reg gone : List BufferPool) : PoolSystem :=
  { s with
    machine := m'
    registered := reg
    freed := gone
    opIds := update s.opIds ctx 0 }

theorem PoolsOk.opened (h : s.PoolsOk u) (hloop : m'.loop = s.machine.loop)
    (hframes : pendingOn m'.frames = p :: s.pending)
    (hctx : m'.contexts = update s.machine.contexts p.ctx none)
    (hfresh : ∀ q ∈ s.pending, q.ctx ≠ p.ctx) (hsettle : s.machine.settling = none)
    (hoff : s.NoneOffered p.pool.memory)
    (hmem : (s.opened m' p.ctx reg gone).MemoryOk u) :
    (s.opened m' p.ctx reg gone).PoolsOk u := by
  have ht := h.tracked
  have hr := h.requests
  have hmem' : ∀ q, q ∈ (s.opened m' p.ctx reg gone).pending ↔ q = p ∨ q ∈ s.pending := by
    intro q
    show q ∈ pendingOn m'.frames ↔ _
    rw [hframes, List.mem_cons]
  -- the other calls' contexts and ids are their own
  have hself : (s.opened m' p.ctx reg gone).opIds p.ctx = 0 := update_self _ _ _
  have hids : ∀ q ∈ s.pending, (s.opened m' p.ctx reg gone).opIds q.ctx = s.opIds q.ctx :=
    fun q hq => update_of_ne (hfresh q hq) _ _
  have hctxs : ∀ q ∈ s.pending,
      (s.opened m' p.ctx reg gone).machine.contexts q.ctx = s.machine.contexts q.ctx := by
    intro q hq
    show m'.contexts q.ctx = _
    rw [hctx, update_of_ne (hfresh q hq)]
  have hanswered : ∀ q ∈ s.pending, ∀ res, s.Answered q res →
      (s.opened m' p.ctx reg gone).Answered q res := by
    intro q hq res ha
    refine ⟨fun e he => ?_, ha.2⟩
    rw [hids q hq]
    exact ha.1 e he
  refine ⟨by rw [← h.state, ← hloop]; rfl, ?_, h.low, h.slots, ?_, ?_, hmem⟩
  · show TableInv m'.loop
    rw [hloop]
    exact h.table
  · refine ⟨ht.nextId_pos, ht.nextId_le, ?_, fun i hi hcb => ?_, ht.ids, ht.sent_lt, ht.cq_lt,
      fun q hq => ?_⟩
    · show List.Nodup (List.map Pending.ctx (pendingOn m'.frames))
      rw [hframes, List.map_cons, List.nodup_cons]
      refine ⟨fun hin => ?_, ht.ctxs⟩
      obtain ⟨q, hq, heq⟩ := List.mem_map.mp hin
      exact hfresh q hq heq
    · obtain ⟨q, hq, hdata, hid, hne, hnone⟩ := ht.waits hsettle hi hcb
      refine ⟨q, (hmem' q).mpr (Or.inr hq), hdata, hid.trans (hids q hq).symm, ?_, Or.inl ?_⟩
      · rw [hids q hq]
        exact hne
      · rw [hctxs q hq]
        exact hnone
    · rcases (hmem' q).mp hq with rfl | hq
      · rw [hself]
        exact ht.nextId_pos
      · rw [hids q hq]
        exact ht.opIds_lt q hq
  · refine ⟨fun q hq e he hid => ?_, fun q hq e he hid => ?_, fun q hq hcreate e he hid => ?_,
      fun q hq cqe hin hfile hid => ?_, fun q hq res hres => ?_⟩
    all_goals rcases (hmem' q).mp hq with rfl | hq
    · have := (ht.sent_lt e he).1
      omega
    · exact hr.own q hq e he (hid.trans (hids q hq))
    · exact hoff e he
    · rw [hids q hq] at hid
      exact hr.others q hq e he hid
    · have := (ht.sent_lt e he).1
      omega
    · exact hr.early q hq hcreate e he (hid.trans (hids q hq))
    · have := (ht.cq_lt cqe hin hfile).1
      omega
    · obtain ⟨hflags, ha⟩ := hr.posted q hq cqe hin hfile (hid.trans (hids q hq))
      exact ⟨hflags, hanswered q hq _ ha⟩
    · have hnone : (s.opened m' q.ctx reg gone).machine.contexts q.ctx = none := by
        show m'.contexts q.ctx = none
        rw [hctx, update_self]
      rw [hnone] at hres
      cases hres
    · rw [hctxs q hq] at hres
      exact hanswered q hq _ (hr.completed q hq res hres)

/-- A call returns: its operation has completed, or was never submitted. -/
theorem PoolsOk.closed {ps : List Pending} (h : s.PoolsOk u) (hpend : s.pending = p :: ps)
    (hs : m'.loop.state = some u') (ht : TableInv m'.loop) (hsq : u'.sq = u.sq)
    (hkernel : u'.kernel = u.kernel) (hslots : u'.fileState = u.fileState)
    (hframes : pendingOn m'.frames = ps) (hctx : m'.contexts = s.machine.contexts)
    (hsettle : s.machine.settling = none)
    (hend : (s.machine.contexts p.ctx).isSome = true ∨ s.opIds p.ctx = 0)
    (hmem : MemoryOk { s with machine := m', registered := reg, freed := gone } u') :
    PoolsOk { s with machine := m', registered := reg, freed := gone } u' := by
  have hin : ∀ q ∈ pendingOn m'.frames, q ∈ s.pending := by
    intro q hq
    rw [hframes] at hq
    rw [hpend]
    exact List.mem_cons_of_mem _ hq
  have hlow : PollsLow u' := by
    refine ⟨?_, ?_, ?_⟩
    · rw [hsq]; exact h.low.wf
    · rw [hsq]; exact h.low.queued
    · rw [hkernel]; exact h.low.polls
  refine ⟨hs, ht, hlow, hslots ▸ h.slots, ?_, ?_, hmem⟩
  · obtain ⟨hpos, hle, hctxs, -, hids, hsent, hcq, hopIds⟩ := h.tracked
    refine ⟨hslots ▸ hpos, hslots ▸ hle, ?_, fun i hi hcb => ?_, hids, hslots ▸ hsent,
      hslots ▸ hkernel ▸ hcq, fun q hq => ?_⟩
    · show List.Nodup (List.map Pending.ctx (pendingOn m'.frames))
      rw [hpend, List.map_cons, List.nodup_cons] at hctxs
      rw [hframes]
      exact hctxs.2
    · rw [hslots] at hi hcb ⊢
      obtain ⟨q, hq, hdata, hid, hne, hnone⟩ := h.tracked.waits hsettle hi hcb
      -- the call that returns has its result, so the operation is another call's
      have hq' : q ∈ ps := by
        rw [hpend] at hq
        rcases List.mem_cons.mp hq with rfl | hq
        · rcases hend with hsome | hzero
          · rw [hnone] at hsome
            cases hsome
          · exact absurd hzero hne
        · exact hq
      refine ⟨q, ?_, hdata, hid, hne, Or.inl (hctx ▸ hnone)⟩
      show q ∈ pendingOn m'.frames
      rw [hframes]
      exact hq'
    · rw [hslots]
      exact hopIds q (hin q hq)
  · obtain ⟨hown, hothers, hearly, hposted, hcompleted⟩ := h.requests
    refine ⟨fun q hq => hown q (hin q hq), fun q hq => hothers q (hin q hq),
      fun q hq => hearly q (hin q hq), fun q hq => ?_, fun q hq res hres => ?_⟩
    · rw [hkernel]
      exact hposted q (hin q hq)
    · exact hcompleted q (hin q hq) res (hctx ▸ hres)

/-- The callback of a call's operation has stored the result, and its slot is being freed. -/
theorem PoolsOk.settled {i : ℕ} {res : ℤ} (h : s.PoolsOk u) (hp : p ∈ s.pending)
    (hloop : m'.loop = s.machine.loop) (hframes : pendingOn m'.frames = s.pending)
    (hctx : m'.contexts = update s.machine.contexts p.ctx (some res))
    (hsettle : s.machine.settling = none) (hsettle' : m'.settling = some ⟨u.fileState.ops, i⟩)
    (hi : u.fileState.Active i) (hid : (u.fileState.op i).id = s.opIds p.ctx)
    (ha : s.Answered p res) : PoolsOk { s with machine := m' } u := by
  have hsame : ({ s with machine := m' } : PoolSystem).pending = s.pending := hframes
  have ht := h.tracked
  have hr := h.requests
  -- contexts are distinct
  have hne : ∀ q ∈ s.pending, q.ctx = p.ctx → q = p := by
    intro q hq heq
    exact List.inj_on_of_nodup_map ht.ctxs hq hp heq
  refine ⟨by rw [← h.state, ← hloop], ?_, h.low, h.slots, ?_, ?_, h.memory.withMachine hframes rfl⟩
  · show TableInv m'.loop
    rw [hloop]
    exact h.table
  · refine ⟨ht.nextId_pos, ht.nextId_le, by rw [hsame]; exact ht.ctxs, fun j hj hcb => ?_, ht.ids,
      ht.sent_lt, ht.cq_lt, by rw [hsame]; exact ht.opIds_lt⟩
    obtain ⟨q, hq, hdata, hqid, hqne, hnone⟩ := ht.waits hsettle hj hcb
    refine ⟨q, by rw [hsame]; exact hq, hdata, hqid, hqne, ?_⟩
    by_cases heq : q.ctx = p.ctx
    · -- the slot is the one being freed
      have hji := h.slots.distinct j i hj hi (by rw [hqid, hid, heq])
      rw [hji]
      exact Or.inr hsettle'
    · left
      show m'.contexts q.ctx = none
      rw [hctx, update_of_ne heq]
      exact hnone
  · refine ⟨?_, ?_, ?_, ?_, ?_⟩
    · rw [hsame]; exact hr.own
    · rw [hsame]; exact hr.others
    · rw [hsame]; exact hr.early
    · rw [hsame]; exact hr.posted
    · rw [hsame]
      intro q hq res' hres
      have hres : m'.contexts q.ctx = some res' := hres
      rw [hctx] at hres
      by_cases heq : q.ctx = p.ctx
      · obtain rfl := hne q hq heq
        rw [update_self] at hres
        cases hres
        exact ha
      · rw [update_of_ne heq] at hres
        exact hr.completed q hq res' hres

end

end PoolSystem

end Loopy.IoUring
