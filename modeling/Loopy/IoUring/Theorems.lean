import Loopy.IoUring.Transitions

/-!
# What the functions of the io_uring backend leave alone

`Quiet u u'` says that a call has not touched the consumer's side of the completion queue:
the published head is the same, and entries were at most appended. Every function but the
completion loop itself is quiet, and only the submit functions of operations touch the
operation slots (`Spares`).
-/

namespace Loopy.IoUring

open Loopy.EventLoop Loopy.Lib Loopy.Epoll

/-! ## Relations between states -/

/-- The published head is the same, and completions were at most appended. -/
structure Quiet (u u' : IoUringState) : Prop where
  cq : u.kernel.cq <+: u'.kernel.cq
  cqHead : u'.cqHead = u.cqHead

/-- The operation slots are untouched as well. -/
structure Spares (u u' : IoUringState) : Prop extends Quiet u u' where
  fileState : u'.fileState = u.fileState

theorem Quiet.refl (u : IoUringState) : Quiet u u := ⟨List.prefix_rfl, rfl⟩

theorem Quiet.trans {u v w : IoUringState} (h : Quiet u v) (h' : Quiet v w) : Quiet u w :=
  ⟨h.cq.trans h'.cq, h'.cqHead.trans h.cqHead⟩

theorem Spares.refl (u : IoUringState) : Spares u u := ⟨.refl u, rfl⟩

theorem Spares.trans {u v w : IoUringState} (h : Spares u v) (h' : Spares v w) : Spares u w :=
  ⟨h.toQuiet.trans h'.toQuiet, h'.fileState.trans h.fileState⟩

/-- Completions are not lost. -/
theorem Quiet.cq_length {u u' : IoUringState} (h : Quiet u u') :
    u.kernel.cq.length ≤ u'.kernel.cq.length := h.cq.length_le

/-! ## Operation ids -/

/-- The bit of a file operation is set once. -/
theorem fileOpId_fileOpId (userData : ℕ) : fileOpId (fileOpId userData) = fileOpId userData :=
  Nat.mod_mod _ _

/-- What `ioUringFileOpFind` finds is an active slot of the live array, with that id. -/
theorem ioUringFileOpFind_inv {fs : FileState} {id : ℕ} {fileOp : SlotPtr}
    (h : ioUringFileOpFind fs id = some fileOp) :
    fileOp.addr = fs.ops ∧ fileOp.idx < fs.opsSize ∧ (fs.load fileOp).active = true ∧
      (fs.load fileOp).id = fileOpId id := by
  obtain ⟨i, hfind, rfl⟩ := Option.map_eq_some_iff.mp h
  have hpred := List.find?_some hfind
  have hmem := List.mem_range.mp (List.mem_of_find?_eq_some hfind)
  rw [Bool.and_eq_true, beq_iff_eq] at hpred
  exact ⟨rfl, hmem, hpred.1, hpred.2⟩

/-! ## The kernel -/

/-- Executing an entry appends completions. -/
theorem execute_cq (k : Kernel) (sqe : Sqe) : k.cq <+: (k.execute sqe).cq := by
  unfold Kernel.execute
  cases sqe.opcode with
  | POLL_REMOVE =>
    simp only []
    cases k.polls.find? (·.userData = sqe.addr) with
    | none => exact List.prefix_append _ _
    | some p => exact (List.prefix_append _ _).trans (List.prefix_append _ _)
  | _ => exact List.prefix_rfl

/-- The kernel appends to the completion queue. -/
theorem executes_cq (sqes : List Sqe) (k : Kernel) : k.cq <+: (sqes.foldl .execute k).cq := by
  induction sqes generalizing k with
  | nil => exact List.prefix_rfl
  | cons sqe sqes ih => exact (execute_cq k sqe).trans (ih _)

/-- The slot allocation of an operation. -/
def OpRequest.alloc (addr : ℕ) : OpRequest → FileState → ℕ × FileState
  | .read _ _ _ _ cb userData | .write _ _ _ _ cb userData | .acceptMultishot _ _ cb userData
  | .provideBuffers _ _ _ _ _ cb userData | .removeBuffers _ _ cb userData =>
    (ioUringFileOpAllocate · cb userData addr)
  | .recvPooled _ groupId _ cb userData | .readPooled _ groupId _ cb userData =>
    (ioUringBufferOpAllocate · cb userData groupId addr)

namespace IoUringState

variable (u : IoUringState)

/-! ## Submission -/

/-- Entering the kernel spares the tables. -/
theorem ioUringEnter_spares (n : ℕ) (ok : Bool) : Spares u (u.ioUringEnter n ok) := by
  cases ok with
  | false => exact .refl u
  | true => exact ⟨⟨executes_cq _ _, rfl⟩, rfl⟩

/-- So does submitting. -/
theorem submit_spares (sqe : Sqe) (ok : Bool) : Spares u (u.submit sqe ok) := by
  have hfill : Spares u (u.fill sqe).ioUringSubmitSqe := ⟨⟨List.prefix_rfl, rfl⟩, rfl⟩
  exact hfill.trans (ioUringEnter_spares _ 1 ok)

/-- An entry is taken from a queue that is not full. -/
theorem ioUringGetSqe_inv {u u' : IoUringState} (h : u.ioUringGetSqe = some u') :
    u.sq.full = false ∧ u' = { u with sq := u.sq.write {} } := by
  unfold ioUringGetSqe at h
  split at h
  · cases h
  · rename_i hfull
    cases h
    exact ⟨by simpa using hfull, rfl⟩

/-- Taking it spares the tables. -/
theorem ioUringGetSqe_spares {u u' : IoUringState} (h : u.ioUringGetSqe = some u') :
    Spares u u' := by
  obtain ⟨-, rfl⟩ := ioUringGetSqe_inv h
  exact ⟨⟨List.prefix_rfl, rfl⟩, rfl⟩

theorem report_spares (id : ℕ) (ok : Bool) : Spares u (u.report id ok) :=
  ⟨⟨List.prefix_rfl, rfl⟩, rfl⟩

/-- Polls are no file operations. -/
theorem ioUringAddPoll_spares (fd : ℕ) (events : BitVec 32) (ok : Bool) :
    Spares u (u.ioUringAddPoll fd events ok).2 := by
  unfold ioUringAddPoll
  cases hget : u.ioUringGetSqe with
  | none => exact .refl u
  | some v =>
    exact (ioUringGetSqe_spares hget).trans ((v.submit_spares _ ok).trans (report_spares _ 0 ok))

theorem ioUringRemovePoll_spares (fd : ℕ) (ok : Bool) :
    Spares u (u.ioUringRemovePoll fd ok) := by
  unfold ioUringRemovePoll
  cases hget : u.ioUringGetSqe with
  | none => exact .refl u
  | some v => exact (ioUringGetSqe_spares hget).trans (v.submit_spares _ ok)

theorem rearm_spares (fd : ℕ) (ok : Bool) : Spares u (u.rearm fd ok) := by
  unfold rearm
  split
  · exact u.ioUringAddPoll_spares fd _ ok
  · exact .refl u

/-- A change of the slots alone. -/
theorem withFileState_quiet (fs : FileState) : Quiet u { u with fileState := fs } :=
  ⟨List.prefix_rfl, rfl⟩

/-- The slots with the multishot mark of a new operation. -/
def marked (multishot : Bool) (id : ℕ) (fs : FileState) : FileState :=
  if multishot then ((ioUringFileOpFind fs id).map fs.setMultishot).getD fs else fs

/-- The slots after the operation of a failed submission was dropped. -/
def dropped (id : ℕ) (fs : FileState) : FileState :=
  ((ioUringFileOpFind fs id).map fs.deactivate).getD fs

/-- Everything the submission of an operation can do: no entry is taken, the arguments or the
slots refuse it, or the entry is published and the kernel entered. -/
inductive SubmitOp (alloc : FileState → ℕ × FileState) (multishot : Bool) (sqe : ℕ → Sqe) :
    Bool → ℕ × IoUringState → Prop
  | early {ok : Bool} : SubmitOp alloc multishot sqe ok (0, u)
  | invalid {ok : Bool} {v : IoUringState} (hget : u.ioUringGetSqe = some v) :
      SubmitOp alloc multishot sqe ok (0, v)
  | refused {ok : Bool} {v : IoUringState} {fs : FileState} (hget : u.ioUringGetSqe = some v)
      (halloc : alloc v.fileState = (0, fs)) :
      SubmitOp alloc multishot sqe ok (0, { v with fileState := fs })
  | sent {v : IoUringState} {id : ℕ} {fs : FileState} (hget : u.ioUringGetSqe = some v)
      (halloc : alloc v.fileState = (id, fs)) (hid : id ≠ 0) :
      SubmitOp alloc multishot sqe true
        (id, ({ v with fileState := marked multishot id fs }.submit (sqe id) true).report
          (fileOpId id) true)
  | failed {v : IoUringState} {id : ℕ} {fs : FileState} (hget : u.ioUringGetSqe = some v)
      (halloc : alloc v.fileState = (id, fs)) (hid : id ≠ 0) :
      SubmitOp alloc multishot sqe false
        (0, { { v with fileState := marked multishot id fs }.submit (sqe id) false with
          fileState := dropped id (marked multishot id fs) }.report (fileOpId id) false)

/-- What submitting an operation does, by its outcome. -/
theorem submitOp_inv (valid : Bool) (alloc : FileState → ℕ × FileState) (multishot : Bool)
    (sqe : ℕ → Sqe) (ok : Bool) :
    u.SubmitOp alloc multishot sqe ok (u.submitOp valid alloc multishot sqe ok) := by
  unfold submitOp
  cases hget : u.ioUringGetSqe with
  | none => exact .early
  | some v =>
    simp only []
    split
    · exact .invalid hget
    · rcases halloc : alloc v.fileState with ⟨id, fs⟩
      simp only []
      by_cases hid : id = 0
      · subst hid
        rw [if_pos rfl]
        exact .refused hget halloc
      · rw [if_neg hid]
        cases ok with
        | true => exact .sent hget halloc hid
        | false => exact .failed hget halloc hid

/-- No completion is read meanwhile. -/
theorem SubmitOp.quiet {u : IoUringState} {alloc : FileState → ℕ × FileState} {multishot : Bool}
    {sqe : ℕ → Sqe} {ok : Bool} {r : ℕ × IoUringState} (h : u.SubmitOp alloc multishot sqe ok r) :
    Quiet u r.2 := by
  cases h with
  | early => exact .refl u
  | invalid hget => exact (ioUringGetSqe_spares hget).toQuiet
  | @refused _ v fs hget =>
    exact (ioUringGetSqe_spares hget).toQuiet.trans (withFileState_quiet v fs)
  | @sent v id fs hget =>
    have hslot := (ioUringGetSqe_spares hget).toQuiet.trans
      (withFileState_quiet v (marked multishot id fs))
    exact (hslot.trans (submit_spares _ (sqe id) true).toQuiet).trans (report_spares _ _ _).toQuiet
  | @failed v id fs hget =>
    have hslot := (ioUringGetSqe_spares hget).toQuiet.trans
      (withFileState_quiet v (marked multishot id fs))
    have hsubmit := hslot.trans (submit_spares _ (sqe id) false).toQuiet
    exact (hsubmit.trans (withFileState_quiet _ (dropped id (marked multishot id fs)))).trans
      (report_spares _ _ _).toQuiet

/-- Every submission goes through the shared body, with an entry that is no poll's. -/
theorem submitRequest_op (addr : ℕ) (ok : Bool) (r : OpRequest) :
    ∃ multishot sqe, u.SubmitOp (r.alloc addr) multishot sqe ok (u.submitRequest addr ok r) ∧
      ∀ id, (sqe id).opcode ≠ .POLL_ADD ∧ (sqe id).opcode ≠ .POLL_REMOVE := by
  cases r with
  | provideBuffers buffers bufSize count groupId bufId cb userData =>
    simp only [submitRequest, ioUringSubmitProvideBuffers, OpRequest.alloc]
    split
    · exact ⟨false, fun _ => {}, .early, fun _ => by simp⟩
    · exact ⟨_, _, u.submitOp_inv _ _ _ _ _, fun _ => by simp⟩
  | read =>
    simp only [submitRequest, ioUringSubmitRead, OpRequest.alloc]
    exact ⟨_, _, u.submitOp_inv _ _ _ _ _, fun _ => by simp⟩
  | write =>
    simp only [submitRequest, ioUringSubmitWrite, OpRequest.alloc]
    exact ⟨_, _, u.submitOp_inv _ _ _ _ _, fun _ => by simp⟩
  | acceptMultishot =>
    simp only [submitRequest, ioUringSubmitAcceptMultishot, OpRequest.alloc]
    exact ⟨_, _, u.submitOp_inv _ _ _ _ _, fun _ => by simp⟩
  | recvPooled =>
    simp only [submitRequest, ioUringSubmitRecvPooled, OpRequest.alloc]
    exact ⟨_, _, u.submitOp_inv _ _ _ _ _, fun _ => by simp⟩
  | readPooled =>
    simp only [submitRequest, ioUringSubmitReadPooled, OpRequest.alloc]
    exact ⟨_, _, u.submitOp_inv _ _ _ _ _, fun _ => by simp⟩
  | removeBuffers =>
    simp only [submitRequest, ioUringSubmitRemoveBuffers, OpRequest.alloc]
    exact ⟨_, _, u.submitOp_inv _ _ _ _ _, fun _ => by simp⟩

/-- Every request is submitted so. -/
theorem submitRequest_inv (addr : ℕ) (ok : Bool) (r : OpRequest) :
    ∃ multishot sqe, u.SubmitOp (r.alloc addr) multishot sqe ok (u.submitRequest addr ok r) := by
  obtain ⟨multishot, sqe, h, -⟩ := u.submitRequest_op addr ok r
  exact ⟨multishot, sqe, h⟩

theorem submitRequest_quiet (addr : ℕ) (ok : Bool) (r : OpRequest) :
    Quiet u (u.submitRequest addr ok r).2 := by
  obtain ⟨multishot, sqe, h⟩ := u.submitRequest_inv addr ok r
  exact h.quiet

theorem setPollMask_spares (fd : ℕ) (events : BitVec 32) :
    Spares u (u.setPollMask fd events) := by
  unfold setPollMask
  split
  · exact ⟨⟨List.prefix_rfl, rfl⟩, rfl⟩
  · exact .refl u

theorem setBufferGroup_spares (groupId : ℕ) (pool : Option BufferPool) :
    Spares u (u.setBufferGroup groupId pool) := by
  unfold setBufferGroup
  split
  · exact ⟨⟨List.prefix_rfl, rfl⟩, rfl⟩
  · exact .refl u

end IoUringState

/-! ## Registration -/

/-- A resize spares the tables. -/
theorem loopyInternalResize_spares (u : IoUringState) (setSize : ℕ) :
    Spares u (loopyInternalResize u setSize) := by
  unfold loopyInternalResize
  split
  · exact ⟨⟨List.prefix_rfl, rfl⟩, rfl⟩
  · exact .refl u

/-- So does adding an event. -/
theorem loopyInternalAddEvent_spares (oks : EnterOks) (events : ℕ → LoopyFileEvent)
    (u : IoUringState) (fd : ℕ) (mask : LoopyAction) :
    Spares u (loopyInternalAddEvent oks events u fd mask).2 := by
  unfold loopyInternalAddEvent
  have hremove : Spares u (if u.pollMask fd ≠ 0 then u.ioUringRemovePoll fd oks.remove else u) := by
    split
    · exact u.ioUringRemovePoll_spares fd oks.remove
    · exact .refl u
  generalize (if u.pollMask fd ≠ 0 then u.ioUringRemovePoll fd oks.remove else u) = v at hremove
  have hadd := hremove.trans (v.ioUringAddPoll_spares fd (ioUringPollEvents
    (mask.union (events fd).mask)) oks.add)
  simp only []
  split
  · exact hadd
  · exact hadd.trans (IoUringState.setPollMask_spares _ _ _)

/-- So does deleting one. -/
theorem loopyInternalDelEvent_spares (oks : EnterOks) (events : ℕ → LoopyFileEvent)
    (u : IoUringState) (fd : ℕ) (delmask : LoopyAction) :
    Spares u (loopyInternalDelEvent oks events u fd delmask) := by
  unfold loopyInternalDelEvent
  have hremove := u.ioUringRemovePoll_spares fd oks.remove
  simp only []
  split
  · exact (hremove.trans (IoUringState.ioUringAddPoll_spares _ _ _ _)).trans
      (IoUringState.setPollMask_spares _ _ _)
  · exact hremove.trans (IoUringState.setPollMask_spares _ _ _)

/-! ## Table calls -/

/-- A descriptor has no file bit. -/
theorem lt_fileBit {n : ℕ} (h : n < 2 ^ 31) : n < fileBit := by
  unfold fileBit
  omega

/-- A descriptor's number is below bit 63. -/
theorem lt_fileBit_of_setSize {l : LoopyLoop IoUringState} {i : ℕ} (h : TableInv l)
    (hi : i < l.setSize) : i < fileBit := lt_fileBit (by have := h.sized.lt; omega)

/-- What a resize of the adapter keeps, the growth of the tables keeps. -/
theorem grown_keeps {P : IoUringState → Prop} {bits ops addr : ℕ} {l l₁ : LoopyLoop IoUringState}
    {u : IoUringState} (hs : l.state = some u) (hu : P u)
    (hresize : ∀ n, P (loopyInternalResize u n)) (hg : Grown (ioUringAdapter bits ops) addr l l₁) :
    ∃ u₁, l₁.state = some u₁ ∧ P u₁ := by
  obtain rfl | ⟨n, -, -, rfl⟩ := hg
  · exact ⟨u, hs, hu⟩
  · refine ⟨loopyInternalResize u n, ?_, hresize n⟩
    simp only [LoopyLoop.growTo, hs, Option.map_some]
    rfl

/-- Every table call spares the completion queue and the slots. -/
theorem tableEffect_spares {bits ops : ℕ} {env : Env EnterOks} {l l' : LoopyLoop IoUringState}
    {c : TableCall} {b : Bool} {u : IoUringState} (hs : l.state = some u)
    (he : TableEffect (ioUringAdapter bits ops) env l c b l') :
    ∃ u', l'.state = some u' ∧ Spares u u' := by
  have hgrown : ∀ l₁, Grown (ioUringAdapter bits ops) env.addr l l₁ →
      ∃ u₁, l₁.state = some u₁ ∧ Spares u u₁ :=
    fun _ => grown_keeps hs (.refl u) (loopyInternalResize_spares u)
  cases he with
  | register hc hr hg hsame hi hs₁ hfree hok =>
    obtain ⟨u₁, hu₁, hspares⟩ := hgrown _ hg
    obtain rfl := Option.some.inj (hs₁.symm.trans hu₁)
    exact ⟨_, rfl, hspares.trans (loopyInternalAddEvent_spares _ _ _ _ _)⟩
  | refuse hc hr hg hi hs₁ hok =>
    obtain ⟨u₁, hu₁, hspares⟩ := hgrown _ hg
    obtain rfl := Option.some.inj (hs₁.symm.trans hu₁)
    exact ⟨_, rfl, hspares.trans (loopyInternalAddEvent_spares _ _ _ _ _)⟩
  | taken hc hg => exact hgrown _ hg
  | unregister hc hi hmask hs₁ =>
    obtain rfl := Option.some.inj (hs.symm.trans hs₁)
    exact ⟨_, unregistered_state _ _ _ _, loopyInternalDelEvent_spares _ _ _ _ _⟩
  | absent => exact ⟨u, hs, .refl u⟩
  | resize hg => exact hgrown _ hg

end Loopy.IoUring
