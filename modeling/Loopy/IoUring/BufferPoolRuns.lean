import Loopy.IoUring.BufferPoolCalls

/-!
# Runs with buffer pools

Every admitted step keeps `PoolsOk`, which gives what the pool functions promise. In
`expiredRun` the wait of `loopyIoUringBufferPoolFree` ends before its operation has completed.
-/

namespace Loopy.IoUring

open Loopy.EventLoop Loopy.Lib Loopy.Epoll FileState

/-! ## Steps of the machine -/

variable {m : Machine}

variable {m' : Machine} {u : IoUringState} {fs : List Frame} {fileOp : SlotPtr}

theorem step_call {c : Call} (hs : m.loop.state = some u) (h : m.step (.call c) = some m') :
    m.userRuns = true ∧ m.userCall u c = some m' := by
  unfold Machine.step at h
  simp only [hs] at h
  split at h
  · rename_i hu
    exact ⟨hu, h⟩
  · cases h

theorem step_pool {p : PoolCall} {ok : Bool} (hs : m.loop.state = some u)
    (hf : m.frames = .pool p :: fs) (h : m.step (.go ok) = some m') : m' = m.poolDone u p fs := by
  unfold Machine.step at h
  simp only [hs, hf] at h
  split at h
  · cases h
  · cases h
    rfl

/-- An operation without a callback is completed silently. -/
theorem completion_none (u : IoUringState) {op : FileOp} (h : op.callback = 0) (cqe : Cqe) :
    (u.completion op cqe).1 = none := by
  have hnone : op.bufferCb = 0 ∧ op.cb = 0 := by
    unfold FileOp.callback at h
    split at h
    · rename_i hne
      exact absurd h hne
    · rename_i hzero
      exact ⟨not_not.mp hzero, h⟩
  unfold IoUringState.completion IoUringState.bufferCall FileOp.plainCall
  rw [hnone.1, hnone.2]
  split
  · rfl
  · split <;> rfl

/-- A slot that was freed is not active. -/
theorem finish_inactive {fs : FileState} {p : Poll} {after : After} {cqe : Cqe} {i : ℕ}
    (hpc : p.pc = .returned fileOp after cqe) (hset : p.finishes = some ⟨fs.ops, i⟩) :
    ¬ (fs.finish fileOp after).Active i := by
  unfold Poll.finishes at hset
  rw [hpc] at hset
  cases after with
  | complete =>
    cases hset
    rintro ⟨-, hact⟩
    have hself : (fs.deactivate ⟨fs.ops, i⟩).op i = { fs.op i with active := false } :=
      deactivate_op_self (p := ⟨fs.ops, i⟩) rfl
    have hact : ((fs.deactivate ⟨fs.ops, i⟩).op i).active = true := hact
    rw [hself] at hact
    cases hact
  | _ => cases hset

/-- A slot that is freed when `bufferPoolOpCallback` has returned is freed next. -/
theorem settling_ret {call : Invocation} (hf : m.frames = .callback call :: fs)
    (h : m.settling = some fileOp) : (m.withFrames fs).settling = some fileOp := by
  unfold Machine.settling at h
  rw [hf] at h
  cases fs with
  | nil => cases h
  | cons f gs =>
    cases f with
    | poll p =>
      have h : (if call.cb = bufferPoolOpCallback then p.finishes else none) = some fileOp := h
      split at h
      · exact h
      · cases h
    | _ => cases h

namespace PoolSystem

variable {s t : PoolSystem} {u u' : IoUringState} {m' : Machine}

variable {p : Poll} {fs : List Frame}

variable {ok : Bool} {cqe : Cqe} {call : Invocation}

theorem after_poll (hf : s.machine.frames = .poll p :: fs) :
    s.after u (.go ok) m' = { s with machine := m' } := by
  unfold after
  rw [hf]

theorem after_pool {p : PoolCall} (hf : s.machine.frames = .pool p :: fs) :
    s.after u (.go ok) m' = s.returned m' p := by
  unfold after
  rw [hf]

theorem ending_pool {p : PoolCall} (hf : s.machine.frames = .pool p :: fs) : s.ending = some p := by
  unfold ending
  rw [hf]

theorem pending_below (hf : s.machine.frames = .poll p :: fs) : pendingOn fs = s.pending := by
  unfold PoolSystem.pending
  rw [hf]
  rfl

theorem pending_poll {q : Poll} (hf : s.machine.frames = .poll p :: fs) :
    pendingOn (.poll q :: fs) = s.pending := by
  show pendingOn fs = s.pending
  exact pending_below hf

/-- The completion loop calls a callback. That of a pool function's operation completes the
call, whose slot is freed next. -/
theorem PoolsOk.called {fileOp : SlotPtr} {after : After} (h : s.PoolsOk u)
    (hr : s.machine.Reads u p cqe fs) (hfile : isFileOp cqe.userData = true)
    (hfind : ioUringFileOpFind u.fileState (fileOpId cqe.userData) = some fileOp)
    (hcall : u.completion (u.fileState.load fileOp) cqe = (some call, after))
    (hloop : m'.loop = s.machine.loop)
    (hframes : m'.frames = .callback call :: .poll { p with pc := .returned fileOp after cqe } :: fs)
    (hctx : m'.contexts = if call.cb = bufferPoolOpCallback then
      Function.update s.machine.contexts call.userData (some call.res) else s.machine.contexts) :
    PoolsOk { s with machine := m' } u := by
  have hpending : pendingOn m'.frames = s.pending := by
    rw [hframes]
    show pendingOn (.poll { p with pc := .returned fileOp after cqe } :: fs) = _
    exact pending_poll hr.frames
  have hsettle : s.machine.settling = none := settling_loop hr.frames hr.pc
  by_cases hcb : call.cb = bufferPoolOpCallback
  · rw [if_pos hcb] at hctx
    obtain ⟨haddr, hlt, hact, hid⟩ := ioUringFileOpFind_inv hfind
    rw [fileOpId_fileOpId] at hid
    rw [load_live haddr] at hcall hact hid
    have hne : (u.fileState.op fileOp.idx).callback ≠ 0 := by
      intro hzero
      have hnone := completion_none u hzero cqe
      rw [hcall] at hnone
      cases hnone
    obtain ⟨call', after', hcompl, hafter, hcb', hdata, hres⟩ := u.completion_spec hne cqe
    obtain ⟨hcall', rfl⟩ := Prod.mk.inj (hcall.symm.trans hcompl)
    obtain rfl := Option.some.inj hcall'
    obtain ⟨q, hq, hqdata, hqid, -⟩ := h.tracked.active fileOp.idx ⟨hlt, hact⟩ (hcb'.symm.trans hcb)
    obtain ⟨hflags, ha⟩ := h.requests.posted q hq cqe (List.mem_of_getElem? hr.cqe) hfile
      (hid.symm.trans hqid)
    -- the completion has no flags, so it is the last one
    have hcomplete : after = .complete := by
      have hafter : after = _ := hafter
      rw [hafter]
      unfold Cqe.hasBuffer Cqe.hasMore
      rw [hflags]
      simp [hasBit]
    rw [hdata, hqdata, hres] at hctx
    have hptr : fileOp = ⟨u.fileState.ops, fileOp.idx⟩ := by rw [← haddr]
    refine h.settled hq hloop hpending hctx hsettle ?_ ⟨hlt, hact⟩ hqid ha
    unfold Machine.settling
    rw [hframes, hcomplete]
    exact (if_pos hcb).trans (congrArg some hptr)
  · rw [if_neg hcb] at hctx
    exact h.aside (hloop ▸ h.state) (hloop ▸ h.table) (.refl h.low) (.refl _) hpending hctx
      fun _ _ hset => settling_absent hsettle hset

open Machine in
/-- Every admitted step of the machine keeps the invariant. -/
theorem PoolsOk.machineStep (h : s.PoolsOk u) {i : Input} (hperm : s.Permitted i)
    (hok : s.AdmittedIn u i) (hstep : s.machine.step i = some m') :
    ∃ u', (s.after u i m').PoolsOk u' := by
  obtain ⟨u₀, hs₀, htrans⟩ := step_inv hstep
  obtain rfl := Option.some.inj (h.state.symm.trans hs₀)
  -- a slot being freed is no matter where user code runs or an entry is read
  have hruns : (s.machine.userRuns = true ∨ ∃ p gs, s.machine.frames = .pool p :: gs) →
      ∀ {i fs m}, s.machine.settling = some ⟨fs, i⟩ → Machine.settling m = some ⟨fs, i⟩ :=
    fun hu _ _ _ hset => settling_absent (settling_of_userRuns hu) hset
  have hreads : ∀ {p cqe fs}, s.machine.Reads u p cqe fs →
      ∀ {i fs m}, s.machine.settling = some ⟨fs, i⟩ → Machine.settling m = some ⟨fs, i⟩ :=
    fun hr _ _ _ hset => settling_absent (settling_loop hr.frames hr.pc) hset
  cases htrans with
  | ready hp | failed hp =>
    exact ⟨_, h.aside rfl (TableInv.withState h.table _) (Keeps.firePoll h.low hp _ _) (.refl _) rfl
      rfl fun _ _ hset => hset⟩
  | complete => exact hperm.elim
  | table hu he =>
    obtain ⟨u', hs', hkeeps, hspares⟩ := Keeps.effect h.low h.state h.table he
    exact ⟨u', h.aside hs' (h.table.effect he) hkeeps (fewer_of_eq hspares.fileState) rfl rfl
      fun _ _ hset => hruns (Or.inl hu) hset⟩
  | submit hu => exact h.submit hu hok hperm.1 hperm.2 rfl
  | @addPoll fd events ok hu =>
    exact ⟨_, h.aside rfl (TableInv.withState h.table _)
      (Keeps.addPoll h.low (lt_fileBit hperm) events ok)
      (fewer_of_eq (u.ioUringAddPoll_spares fd events ok).fileState) rfl rfl
      fun _ _ hset => hruns (Or.inl hu) hset⟩
  | @removePoll fd ok hu =>
    exact ⟨_, h.aside rfl (TableInv.withState h.table _) (Keeps.removePoll h.low (lt_fileBit hperm) ok)
      (fewer_of_eq (u.ioUringRemovePoll_spares fd ok).fileState) rfl rfl
      fun _ _ hset => hruns (Or.inl hu) hset⟩
  | poolRefused hu =>
    obtain ⟨-, hcall⟩ := step_call h.state hstep
    obtain ⟨hid, rfl⟩ := hok
    exact h.poolNew hu hid hperm.1 hperm.2 (Option.some.inj hcall).symm
  | @pool create pool ctx addr ok fs hu hfs =>
    obtain ⟨-, hcall⟩ := step_call h.state hstep
    cases create with
    | true =>
      obtain ⟨hid, rfl⟩ := hok
      exact h.poolNew hu hid hperm.1 hperm.2 (Option.some.inj hcall).symm
    | false =>
      exact h.poolFree hu hok.1 hperm.1 hperm.2 hok.2 (Option.some.inj hcall).symm
  | @ret call fs hf =>
    refine ⟨u, h.aside h.state h.table (.refl h.low) (.refl _) ?_ rfl fun i _ hset => ?_⟩
    · unfold PoolSystem.pending
      rw [hf]
      rfl
    · exact settling_ret hf hset
  | @pollOk fs hu hfs =>
    refine ⟨_, h.aside rfl (TableInv.withState h.table _) (Keeps.enter h.low)
      (fewer_of_eq (u.ioUringEnter_spares _ true).fileState) ?_ rfl
      fun _ _ hset => hruns hu hset⟩
    show pendingOn fs = _
    exact pendingOn_stack hfs
  | @pollSoft fs hu hfs =>
    refine ⟨_, h.aside rfl (TableInv.withState h.table _) (.refl h.low) (.refl _) ?_ rfl
      fun _ _ hset => hruns hu hset⟩
    show pendingOn fs = _
    exact pendingOn_stack hfs
  | pollHard hu hfs =>
    refine ⟨_, h.aside h.state h.table (.refl h.low) (.refl _) ?_ rfl
      fun _ _ hset => hruns hu hset⟩
    exact pendingOn_stack hfs
  | ignored hr | silent hr | skipped hr =>
    rw [after_poll hr.frames]
    exact ⟨u, h.aside h.state h.table (.refl h.low) (.refl _) (pending_poll hr.frames) rfl
      fun _ _ hset => hreads hr hset⟩
  | called hr hfile hfind hcall =>
    rw [after_poll hr.frames]
    exact ⟨u, h.called hr hfile hfind hcall rfl rfl rfl⟩
  | @fired p cqe fs ok ev hr hfile hfires hev =>
    rw [after_poll hr.frames]
    refine ⟨_, h.aside rfl (TableInv.withState (TableInv.withFired h.table hr.room ev) _)
      (Keeps.rearm h.low (isFileOp_lt hfile) ok) (fewer_of_eq (u.rearm_spares _ ok).fileState)
      (pending_poll hr.frames) rfl fun _ _ hset => hreads hr hset⟩
  | published hf hpc hend =>
    rw [after_poll hf]
    exact ⟨_, h.aside rfl (TableInv.withState h.table _) (Keeps.aside h.low rfl rfl rfl) (.refl _)
      (pending_below hf) rfl fun _ _ hset => settling_absent (settling_loop hf hpc) hset⟩
  | returned hf hpc =>
    rw [after_poll hf]
    refine ⟨_, h.aside rfl (TableInv.withState h.table _) (Keeps.aside h.low rfl rfl rfl)
      (finish_fewer _ _ _) (pending_poll hf) rfl fun i hi hset => ?_⟩
    rw [settling_poll hf] at hset
    exact absurd hi (finish_inactive hpc hset)
  | poolDone hf =>
    rw [after_pool hf]
    exact h.poolEnd hf (hok _ (ending_pool hf)) (step_pool h.state hf hstep)
  | poolFailed hf =>
    rw [after_pool hf]
    exact h.poolEnd hf (hok _ (ending_pool hf)) (step_pool h.state hf hstep)

/-- Every admitted step keeps the invariant. -/
theorem PoolsOk.step {move : Move} (h : s.PoolsOk u) (hok : s.Admitted move)
    (hstep : s.step move = some t) : ∃ u', t.PoolsOk u' := by
  cases move with
  | machine i =>
    simp only [PoolSystem.step, h.state] at hstep
    split at hstep
    · rename_i hperm
      obtain ⟨m', hm, rfl⟩ := Option.map_eq_some_iff.mp hstep
      exact h.machineStep hperm (hok u h.state) hm
    · cases hstep
  | pick k buffer =>
    simp only [PoolSystem.step, h.state, Option.bind_some] at hstep
    exact ⟨u, h.pick hstep⟩
  | answer k a =>
    simp only [PoolSystem.step, h.state, Option.bind_some] at hstep
    exact h.answer hok hstep

/-- What a callback is handed with a buffer of its pool is in the pool's memory. -/
theorem bufferCall_memory {op : FileOp} {bid addr size : ℕ}
    (hcall : u.bufferCall op cqe = some call) (hbuffer : call.buffer = some (bid, addr, size)) :
    (u.bufferPool op.bufferGroup = none ∧ addr = 0 ∧ size = 0) ∨
      ∃ pool, u.bufferPool op.bufferGroup = some pool ∧
        (bid < pool.bufferCount → Region.Within ⟨addr, size⟩ pool.memory) := by
  unfold IoUringState.bufferCall at hcall
  simp only [] at hcall
  split at hcall
  · cases hcall
    cases hpool : u.bufferPool op.bufferGroup with
    | none =>
      rw [hpool] at hbuffer
      cases hbuffer
      exact Or.inl ⟨rfl, rfl, rfl⟩
    | some pool =>
      rw [hpool] at hbuffer
      cases hbuffer
      exact Or.inr ⟨pool, rfl, fun hlt => Region.elem_within pool.buffers pool.bufferSize hlt⟩
  · split at hcall
    · cases hcall
      cases hbuffer
    · cases hcall

/-- The invariant gives what the pool functions promise. -/
theorem PoolsOk.released (h : s.PoolsOk u) : s.Released where
  contexts := by
    intro u' hu' i hi hcb
    obtain rfl := Option.some.inj (h.state.symm.trans hu')
    obtain ⟨p, hp, hdata, -⟩ := h.tracked.active i hi hcb
    exact ⟨p, hp, hdata⟩
  buffers := fun gone hgone => ⟨(h.memory.freed gone hgone).1, (h.memory.freed gone hgone).2.1⟩
  handed := by
    intro gone hgone u' hu' i hi cqe call bid addr size hcall hbuffer hown
    obtain rfl := Option.some.inj (h.state.symm.trans hu')
    rcases bufferCall_memory hcall hbuffer with ⟨-, rfl, rfl⟩ | ⟨pool, hpool, hwithin⟩
    · exact Or.inl (Nat.zero_le _)
    · -- the group's pool is in use
      have hlive : pool ∈ s.live := by
        unfold IoUringState.bufferPool at hpool
        split at hpool
        · obtain ⟨-, -, hreg | ⟨p, hp, -, rfl⟩⟩ := h.memory.groups _ _ hpool
          · exact List.mem_append_right _ hreg
          · exact List.mem_append_left _ (List.mem_map_of_mem hp)
        · cases hpool
      exact (h.memory.live pool hlive gone hgone).of_within (hwithin (hown pool hpool))

theorem PoolsOk.start {bits : ℕ} (hbits : bits ≤ 31) {n : ℕ} (hn : 1 ≤ n) (hn31 : n < 2 ^ 31)
    (ops addr : ℕ) : (start bits ops n addr).PoolsOk (ioUringInit bits ops n) where
  state := rfl
  table := .fresh hn hn31 addr
  low :=
    { wf := ring_init_wf hbits ops n
      queued := by rw [queued_init]; exact fun _ hs => absurd hs List.not_mem_nil
      polls := fun _ hp => absurd hp List.not_mem_nil }
  slots := FileState.Ok.init bits ops n
  tracked :=
    { nextId_pos := le_rfl
      nextId_le := by
        show 1 ≤ fileBit
        decide
      ctxs := List.nodup_nil
      active := fun i hi => by cases hi.2
      ids := List.nodup_nil
      sent_lt := fun _ he => absurd he List.not_mem_nil
      cq_lt := fun _ hc => absurd hc List.not_mem_nil
      opIds_lt := fun _ hp => absurd hp List.not_mem_nil }
  requests :=
    { own := fun _ hp => absurd hp List.not_mem_nil
      others := fun _ hp => absurd hp List.not_mem_nil
      early := fun _ hp => absurd hp List.not_mem_nil
      posted := fun _ hp => absurd hp List.not_mem_nil
      completed := fun _ hp => absurd hp List.not_mem_nil }
  memory :=
    { apart := .nil
      live := fun _ hp => absurd hp List.not_mem_nil
      freed := fun _ hp => absurd hp List.not_mem_nil
      groups := fun _ _ hg => by cases hg }

end PoolSystem

open PoolSystem in
/-- **Pool functions leave nothing behind.** For every ring and table size and every run whose
steps are admitted, in every order of completions, no tracked operation refers to the context
of a pool function that has returned, the kernel has no buffer of a pool that could not be
created or was freed, and no receive is handed an address in such a pool. -/
theorem pools_released (bits : ℕ) (hbits : bits ≤ 31) (n : ℕ) (hn : 1 ≤ n) (hn31 : n < 2 ^ 31)
    (ops addr : ℕ) (moves : List Move) (s : PoolSystem)
    (hrun : Run PoolSystem.step Admitted (.start bits ops n addr) moves s) : s.Released := by
  have hinv : ∃ u, s.PoolsOk u := by
    refine hrun.invariant (P := fun s => ∃ u, s.PoolsOk u) ?_ ⟨_, .start hbits hn hn31 ops addr⟩
    rintro s move t ⟨u, h⟩ hok hstep
    exact h.step hok hstep
  obtain ⟨u, h⟩ := hinv
  exact h.released

/-- A pool of four buffers in group 5. -/
def fourBuffers : BufferPool := ⟨1000, 16, 4, 5⟩

/-- It is created; the completion arrives before the first poll. -/
def createRun : List Move :=
  [.machine (.call (.poolNew fourBuffers 7 300 true)), .answer 0 (.provided 4 0),
    .machine (.poll .ok), .machine (.go true), .machine .ret, .machine (.go true),
    .machine (.go true), .machine (.go true)]

/-- The kernel fills a buffer for a receive, the others are removed, and the pool is freed. -/
def receiveRun : List Move :=
  createRun ++
  [.machine (.call (.submit (.recvPooled 9 5 0 21 22) 300 true)), .pick 0 ⟨5, 2, ⟨1032, 16⟩⟩,
    .answer 0 (.filled 3), .machine (.call (.poolFree fourBuffers 8 300 true)),
    .answer 0 (.removed [⟨5, 0, ⟨1000, 16⟩⟩, ⟨5, 1, ⟨1016, 16⟩⟩, ⟨5, 3, ⟨1048, 16⟩⟩]),
    .machine (.poll .ok), .machine (.go true), .machine .ret, .machine (.go true),
    .machine (.go true), .machine .ret, .machine (.go true), .machine (.go true),
    .machine (.go true)]

theorem pools_released_receive :
    ∃ s, Run PoolSystem.step PoolSystem.Admitted (.start 3 100 16 1) receiveRun s ∧
      s.freed = [fourBuffers] ∧ s.provided = [] ∧ s.Released := by
  have hexec : (exec PoolSystem.step PoolSystem.Admitted (.start 3 100 16 1) receiveRun).map
      (fun s => (s.freed, s.provided)) = some ([fourBuffers], []) := by decide +kernel
  obtain ⟨s, hrun, hfinal⟩ := Run.of_exec_map hexec
  obtain ⟨hfreed, hprovided⟩ := Prod.mk.inj hfinal
  exact ⟨s, hrun, hfreed, hprovided,
    pools_released 3 (by decide) 16 (by decide) (by decide) 100 1 _ _ hrun⟩

/-- The pool is freed, and none of the polls of the wait enters the kernel. -/
def expiredRun : List Move :=
  createRun ++ .machine (.call (.poolFree fourBuffers 8 300 true)) ::
    List.replicate 100 (.machine (.poll .hard)) ++ [.machine (.go true)]

/-- The operation is still tracked, with the context of a call that has returned. -/
theorem pools_dangle :
    ¬ ∀ moves s, Run PoolSystem.step (fun _ _ => True) (.start 3 100 16 1) moves s →
      s.Released := by
  intro hall
  have hexec : (exec PoolSystem.step (fun _ _ => True) (.start 3 100 16 1) expiredRun).any
      (fun s => s.pending = [] ∧ ∃ u ∈ s.machine.loop.state, 0 < u.fileState.opsSize ∧
        (u.fileState.op 0).active = true ∧
        (u.fileState.op 0).callback = bufferPoolOpCallback) = true := by
    decide +kernel
  obtain ⟨s, hs, hfinal⟩ := (Option.any_eq_true _ _).mp hexec
  obtain ⟨hpending, u, hu, hlt, hact, hcb⟩ := of_decide_eq_true hfinal
  obtain ⟨p, hp, -⟩ := (hall _ _ (Run.iff_exec.mpr hs)).contexts u hu 0 ⟨hlt, hact⟩ hcb
  rw [hpending] at hp
  cases hp

/-- The submission of a creation fails, and the next poll hands its entry to the kernel. -/
def refusedRun : List Move :=
  [.machine (.call (.poolNew fourBuffers 7 300 false)), .machine (.poll .ok), .machine (.go true),
    .answer 0 (.provided 4 0)]

/-- The kernel has the buffers of a pool whose memory was given back. -/
example : (exec PoolSystem.step (fun _ _ => True) (.start 3 100 16 1) refusedRun).any
    (fun s => s.freed = [fourBuffers] ∧ ¬ s.NoneProvided fourBuffers.memory) = true := by
  decide +kernel

end Loopy.IoUring
