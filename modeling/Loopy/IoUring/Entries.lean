import Loopy.IoUring.Firing

/-!
# What a call publishes

A submit function publishes at most one entry. For an operation it carries a slot's id, which
has bit 63 set; for a poll it carries a descriptor's number, which has not (`PollsLow`), so no
call, no poll and no registration adds the completion of an operation to the ring
(`Keeps`). `Submission` is what submitting an operation does to the slots, whatever
`io_uring_enter` returns.
-/

namespace Loopy.IoUring

open Loopy.EventLoop Loopy.Lib Loopy.Epoll FileState

/-! ## Polls carry descriptor numbers -/

/-- An entry of a poll carries a descriptor's number. -/
def Sqe.Low (sqe : Sqe) : Prop :=
  match sqe.opcode with
  | .POLL_ADD => sqe.userData < fileBit
  | .POLL_REMOVE => sqe.addr < fileBit ∧ sqe.userData < fileBit
  | _ => True

/-- So do the queued polls and the armed ones. -/
structure PollsLow (u : IoUringState) : Prop where
  wf : u.sq.Wf
  queued : ∀ sqe ∈ u.sq.queued, sqe.Low
  polls : ∀ p ∈ u.kernel.polls, p.userData < fileBit

/-- No completion of an operation was added, and the buffer groups are the same. -/
structure Keeps (u u' : IoUringState) : Prop where
  low : PollsLow u'
  cq : ∀ cqe ∈ u'.kernel.cq, isFileOp cqe.userData = true → cqe ∈ u.kernel.cq
  groups : u'.bufferPoolGroups = u.bufferPoolGroups

theorem not_fileOp {userData : ℕ} (h : userData < fileBit) : isFileOp userData = false :=
  decide_eq_false (Nat.not_le.mpr h)

theorem isFileOp_lt {userData : ℕ} (h : isFileOp userData = false) : userData < fileBit :=
  Nat.not_le.mp (of_decide_eq_false h)

theorem execute_low {k : Kernel} (hk : ∀ p ∈ k.polls, p.userData < fileBit) {sqe : Sqe}
    (hs : sqe.Low) : (∀ p ∈ (k.execute sqe).polls, p.userData < fileBit) ∧
      ∀ cqe ∈ (k.execute sqe).cq, isFileOp cqe.userData = true → cqe ∈ k.cq := by
  unfold Sqe.Low at hs
  unfold Kernel.execute
  cases hop : sqe.opcode with
  | POLL_ADD =>
    simp only [hop] at hs ⊢
    refine ⟨fun p hp => ?_, fun cqe hin _ => hin⟩
    rcases List.mem_append.mp hp with hp | hp
    · exact hk p hp
    · rw [List.mem_singleton.mp hp]
      exact hs
  | POLL_REMOVE =>
    simp only [hop] at hs ⊢
    have hack := not_fileOp hs.2
    cases hfind : k.polls.find? (·.userData = sqe.addr) with
    | none =>
      refine ⟨hk, fun cqe hin hfile => ?_⟩
      rcases List.mem_append.mp hin with hin | hin
      · exact hin
      · rw [List.mem_singleton.mp hin, hack] at hfile
        cases hfile
    | some p =>
      have hcanceled := not_fileOp hs.1
      refine ⟨fun q hq => hk q (List.mem_of_mem_erase hq), fun cqe hin hfile => ?_⟩
      rcases List.mem_append.mp hin with hin | hin
      · rcases List.mem_append.mp hin with hin | hin
        · exact hin
        · rw [List.mem_singleton.mp hin, hcanceled] at hfile
          cases hfile
      · rw [List.mem_singleton.mp hin, hack] at hfile
        cases hfile
  | _ => exact ⟨hk, fun cqe hin _ => hin⟩

theorem executes_low {k : Kernel} (hk : ∀ p ∈ k.polls, p.userData < fileBit) {sqes : List Sqe}
    (hs : ∀ sqe ∈ sqes, sqe.Low) : (∀ p ∈ (sqes.foldl .execute k).polls, p.userData < fileBit) ∧
      ∀ cqe ∈ (sqes.foldl .execute k).cq, isFileOp cqe.userData = true → cqe ∈ k.cq := by
  induction sqes generalizing k with
  | nil => exact ⟨hk, fun _ hin _ => hin⟩
  | cons sqe sqes ih =>
    obtain ⟨hk', hcq⟩ := execute_low hk (hs sqe List.mem_cons_self)
    obtain ⟨hpolls, hcqs⟩ := ih hk' fun s hin => hs s (List.mem_cons_of_mem _ hin)
    exact ⟨hpolls, fun cqe hin hfile => hcq cqe (hcqs cqe hin hfile) hfile⟩

namespace Keeps

variable {u v w : IoUringState}

theorem refl (h : PollsLow u) : Keeps u u := ⟨h, fun _ hin _ => hin, rfl⟩

theorem trans (h : Keeps u v) (h' : Keeps v w) : Keeps u w :=
  ⟨h'.low, fun cqe hin hfile => h.cq cqe (h'.cq cqe hin hfile) hfile, h'.groups.trans h.groups⟩

section

variable (h : PollsLow u)

include h

/-- What does not touch the ring, the kernel or the groups keeps them. -/
theorem aside (hsq : v.sq = u.sq) (hkernel : v.kernel = u.kernel)
    (hgroups : v.bufferPoolGroups = u.bufferPoolGroups) : Keeps u v where
  low := ⟨by rw [hsq]; exact h.wf, by rw [hsq]; exact h.queued, by rw [hkernel]; exact h.polls⟩
  cq := by
    rw [hkernel]
    exact fun _ hin _ => hin
  groups := hgroups

theorem getSqe (hget : u.ioUringGetSqe = some v) : Keeps u v ∧ v.sq.count < 2 ^ v.sq.bits := by
  obtain ⟨hwf, hqueued, hlt, heq⟩ := getSqe_queue h.wf hget
  rw [heq]
  refine ⟨⟨⟨hwf, ?_, h.polls⟩, fun _ hin _ => hin, rfl⟩, hlt⟩
  show ∀ sqe ∈ v.sq.queued, sqe.Low
  rw [hqueued]
  exact h.queued

theorem submit (hlt : u.sq.count < 2 ^ u.sq.bits) {sqe : Sqe} (hs : sqe.Low)
    (ok : Bool) : Keeps u (u.submit sqe ok) := by
  obtain ⟨hwf, done, hkernel, hqueue, -⟩ := submit_queue h.wf hlt sqe ok
  -- what the kernel executed and what is left are the queued entries and the new one
  have hall : ∀ s ∈ done ++ (u.submit sqe ok).sq.queued, s.Low := by
    rw [hqueue]
    intro s hin
    rcases List.mem_append.mp hin with hin | hin
    · exact h.queued s hin
    · rw [List.mem_singleton.mp hin]
      exact hs
  obtain ⟨hpolls, hcq⟩ := executes_low h.polls fun s hin => hall s (List.mem_append_left _ hin)
  rw [← hkernel] at hpolls hcq
  refine ⟨⟨hwf, fun s hin => hall s (List.mem_append_right _ hin), hpolls⟩, hcq, ?_⟩
  cases ok <;> rfl

theorem report (id : ℕ) (ok : Bool) : Keeps u (u.report id ok) :=
  aside h rfl rfl rfl

theorem addPoll {fd : ℕ} (hfd : fd < fileBit) (events : BitVec 32) (ok : Bool) :
    Keeps u (u.ioUringAddPoll fd events ok).2 := by
  unfold IoUringState.ioUringAddPoll
  cases hget : u.ioUringGetSqe with
  | none => exact .refl h
  | some v =>
    obtain ⟨hv, hlt⟩ := getSqe h hget
    have hsub := submit hv.low hlt
      (show Sqe.Low { opcode := .POLL_ADD, fd := fd, opFlags := events, userData := fd } from hfd) ok
    exact (hv.trans hsub).trans (report hsub.low 0 ok)

theorem removePoll {fd : ℕ} (hfd : fd < fileBit) (ok : Bool) :
    Keeps u (u.ioUringRemovePoll fd ok) := by
  unfold IoUringState.ioUringRemovePoll
  cases hget : u.ioUringGetSqe with
  | none => exact .refl h
  | some v =>
    obtain ⟨hv, hlt⟩ := getSqe h hget
    have hsqe : Sqe.Low { opcode := .POLL_REMOVE, fd := -1, addr := fd, userData := 0 } :=
      ⟨hfd, fileBit_pos⟩
    exact hv.trans (submit hv.low hlt hsqe ok)

theorem setPollMask (fd : ℕ) (events : BitVec 32) : Keeps u (u.setPollMask fd events) := by
  unfold IoUringState.setPollMask
  split
  · exact aside h rfl rfl rfl
  · exact .refl h

theorem rearm {fd : ℕ} (hfd : fd < fileBit) (ok : Bool) : Keeps u (u.rearm fd ok) := by
  unfold IoUringState.rearm
  split
  · exact addPoll h hfd _ ok
  · exact .refl h

theorem resize (setSize : ℕ) : Keeps u (loopyInternalResize u setSize) := by
  unfold loopyInternalResize
  split
  · exact aside h rfl rfl rfl
  · exact .refl h

theorem addEvent (oks : EnterOks) (events : ℕ → LoopyFileEvent) {fd : ℕ}
    (hfd : fd < fileBit) (mask : LoopyAction) :
    Keeps u (loopyInternalAddEvent oks events u fd mask).2 := by
  unfold loopyInternalAddEvent
  have hremove : Keeps u (if u.pollMask fd ≠ 0 then u.ioUringRemovePoll fd oks.remove else u) := by
    split
    · exact removePoll h hfd oks.remove
    · exact .refl h
  generalize (if u.pollMask fd ≠ 0 then u.ioUringRemovePoll fd oks.remove else u) = v at hremove
  have hadd := hremove.trans
    (addPoll hremove.low hfd (ioUringPollEvents (mask.union (events fd).mask)) oks.add)
  simp only []
  split
  · exact hadd
  · exact hadd.trans (setPollMask hadd.low fd _)

theorem delEvent (oks : EnterOks) (events : ℕ → LoopyFileEvent) {fd : ℕ}
    (hfd : fd < fileBit) (delmask : LoopyAction) :
    Keeps u (loopyInternalDelEvent oks events u fd delmask) := by
  unfold loopyInternalDelEvent
  have hremove := removePoll h hfd oks.remove
  simp only []
  split
  · have hadd := hremove.trans (addPoll hremove.low hfd
      (ioUringPollEvents ((events fd).mask.diff delmask)) oks.add)
    exact hadd.trans (setPollMask hadd.low fd _)
  · exact hremove.trans (setPollMask hremove.low fd 0)

/-- A successful `io_uring_enter` of a poll executes everything that is queued. -/
theorem enter : Keeps u (u.ioUringEnter u.sq.count true) := by
  obtain ⟨hwf, hdrop⟩ := Ring.advance_spec h.wf (le_refl u.sq.count)
  have htaken : ∀ s ∈ u.sq.queued.take u.sq.count, s.Low :=
    fun s hin => h.queued s (List.mem_of_mem_take hin)
  obtain ⟨hpolls, hcq⟩ := executes_low h.polls htaken
  refine ⟨⟨hwf, ?_, hpolls⟩, hcq, rfl⟩
  show ∀ s ∈ (u.sq.advance u.sq.count).queued, s.Low
  rw [hdrop]
  exact fun s hin => h.queued s (List.mem_of_mem_drop hin)

/-- An armed poll completes. -/
theorem firePoll {i : ℕ} {p : ArmedPoll} (hp : u.kernel.polls[i]? = some p)
    (res : ℤ) (origin : Origin) :
    Keeps u (u.onKernel (·.firePoll i ⟨p.userData, res, 0, origin⟩)) := by
  have hlow := not_fileOp (h.polls p (List.mem_of_getElem? hp))
  refine ⟨⟨h.wf, h.queued, fun q hq => h.polls q (List.mem_of_mem_eraseIdx hq)⟩,
    fun cqe hin hfile => ?_, rfl⟩
  rcases List.mem_append.mp hin with hin | hin
  · exact hin
  · rw [List.mem_singleton.mp hin, hlow] at hfile
    cases hfile

/-- A table call. -/
theorem effect {bits ops : ℕ} {env : Env EnterOks}
    {l l' : LoopyLoop IoUringState} {c : TableCall} {b : Bool} (hs : l.state = some u)
    (ht : TableInv l) (he : TableEffect (ioUringAdapter bits ops) env l c b l') :
    ∃ u', l'.state = some u' ∧ Keeps u u' ∧ Spares u u' := by
  have hgrown : ∀ l₁, Grown (ioUringAdapter bits ops) env.addr l l₁ →
      ∃ u₁, l₁.state = some u₁ ∧ Keeps u u₁ := fun _ => grown_keeps hs (.refl h) (resize h)
  obtain ⟨u', hs', hspares⟩ := tableEffect_spares hs he
  suffices hkeeps : ∃ u', l'.state = some u' ∧ Keeps u u' by
    obtain ⟨u'', hs'', hk⟩ := hkeeps
    obtain rfl := Option.some.inj (hs'.symm.trans hs'')
    exact ⟨u', hs', hk, hspares⟩
  cases he with
  | register hc hr hg hsame hi hs₁ hfree hok =>
    obtain ⟨u₁, hu₁, h₁⟩ := hgrown _ hg
    obtain rfl := Option.some.inj (hs₁.symm.trans hu₁)
    exact ⟨_, rfl, h₁.trans (addEvent h₁.low _ _ (lt_fileBit_of_setSize (ht.grown hg) hi) _)⟩
  | refuse hc hr hg hi hs₁ hok =>
    obtain ⟨u₁, hu₁, h₁⟩ := hgrown _ hg
    obtain rfl := Option.some.inj (hs₁.symm.trans hu₁)
    exact ⟨_, rfl, h₁.trans (addEvent h₁.low _ _ (lt_fileBit_of_setSize (ht.grown hg) hi) _)⟩
  | taken hc hg => exact hgrown _ hg
  | unregister hc hi hmask hs₁ =>
    obtain rfl := Option.some.inj (hs.symm.trans hs₁)
    exact ⟨_, unregistered_state _ _ _ _, delEvent h _ _ (lt_fileBit_of_setSize ht hi) _⟩
  | absent => exact ⟨u, hs, .refl h⟩
  | resize hg => exact hgrown _ hg

/-- The submission of an operation publishes no poll. -/
theorem submitRequest (addr : ℕ) (ok : Bool) (r : OpRequest) :
    Keeps u (u.submitRequest addr ok r).2 := by
  obtain ⟨multishot, sqe, hsub, hop⟩ := u.submitRequest_op addr ok r
  have hlow : ∀ id, (sqe id).Low := by
    intro id
    obtain ⟨hadd, hremove⟩ := hop id
    unfold Sqe.Low
    split
    · rename_i h; exact absurd h hadd
    · rename_i h; exact absurd h hremove
    · trivial
  generalize u.submitRequest addr ok r = res at hsub
  cases hsub with
  | early => exact .refl h
  | invalid hget => exact (getSqe h hget).1
  | refused hget => exact (getSqe h hget).1.trans (aside (getSqe h hget).1.low rfl rfl rfl)
  | @sent v id fs hget =>
    obtain ⟨hv, hlt⟩ := getSqe h hget
    have hslot : Keeps u { v with fileState := IoUringState.marked multishot id fs } :=
      hv.trans (aside hv.low rfl rfl rfl)
    have hsent := hslot.trans (submit hslot.low hlt (hlow id) true)
    exact hsent.trans (report hsent.low _ true)
  | @failed v id fs hget =>
    obtain ⟨hv, hlt⟩ := getSqe h hget
    have hslot : Keeps u { v with fileState := IoUringState.marked multishot id fs } :=
      hv.trans (aside hv.low rfl rfl rfl)
    have hsent := hslot.trans (submit hslot.low hlt (hlow id) false)
    exact hsent.trans (aside hsent.low rfl rfl rfl)

end

end Keeps

/-! ## Submitting an operation -/

/-- What submitting an operation does: nothing is published, or the entry is, and the
operation is in a slot that was free; if `io_uring_enter` fails it is dropped again. -/
inductive Submission (u : IoUringState) (r : OpRequest) : Bool → ℕ × IoUringState → Prop
  | refused {ok : Bool} {v : IoUringState} (hreports : v.reports = u.reports)
      (hslots : v.fileState = u.fileState) : Submission u r ok (0, v)
  | accepted {v : IoUringState} {op : FileOp} {addr i tag : ℕ}
      (hp : Placed u.fileState addr op v.fileState i) (hcb : op.callback = r.callback)
      (hdata : op.userData = r.userData)
      (hreports : v.reports = ⟨tag, u.fileState.nextId, true⟩ :: u.reports) :
      Submission u r true (markFile u.fileState.nextId, v)
  | failed {v : IoUringState} {tag : ℕ} (hok : v.fileState.Ok)
      (hnext : v.fileState.nextId = u.fileState.nextId + 1)
      (hactive : ∀ j, v.fileState.Active j →
        u.fileState.Active j ∧ v.fileState.op j = u.fileState.op j)
      (hreports : v.reports = ⟨tag, u.fileState.nextId, false⟩ :: u.reports) :
      Submission u r false (0, v)

/-- The report of a submission stands before the earlier ones. -/
theorem submit_report (u : IoUringState) (sqe : Sqe) (id : ℕ) (ok : Bool) :
    ((u.submit sqe ok).report id ok).reports =
      ⟨(u.submit sqe ok).nextTag - 1, id, ok⟩ :: u.reports := by
  cases ok <;> rfl

theorem submission (u : IoUringState) (addr : ℕ) (ok : Bool) (r : OpRequest) (hok : u.fileState.Ok)
    (hid : u.fileState.nextId < fileBit) : Submission u r ok (u.submitRequest addr ok r) := by
  obtain ⟨multishot, sqe, hsub⟩ := u.submitRequest_inv addr ok r
  have hspec := r.alloc_spec hok addr
  have hentry : ∀ {v}, u.ioUringGetSqe = some v →
      v.fileState = u.fileState ∧ v.reports = u.reports := by
    intro v hget
    obtain ⟨-, rfl⟩ := IoUringState.ioUringGetSqe_inv hget
    exact ⟨rfl, rfl⟩
  generalize u.submitRequest addr ok r = res at hsub
  cases hsub with
  | early => exact .refused rfl rfl
  | invalid hget => exact .refused (hentry hget).2 (hentry hget).1
  | @refused _ v fs hget halloc =>
    obtain ⟨hslots, hreports⟩ := hentry hget
    rw [hslots] at halloc
    rw [halloc] at hspec
    refine .refused hreports ?_
    show fs = u.fileState
    generalize hzero : (0 : ℕ) = id at hspec
    cases hspec with
    | refused => rfl
    | placed => exact absurd hzero.symm (markFile_ne_zero hid)
  | @sent v id fs hget halloc hne =>
    obtain ⟨hslots, hreports⟩ := hentry hget
    rw [hslots] at halloc
    rw [halloc] at hspec
    have hreport := (submit_report { v with fileState := IoUringState.marked multishot id fs }
      (sqe id) (fileOpId id) true).trans (congrArg _ hreports)
    cases hspec with
    | refused => exact absurd rfl hne
    | @placed op fs i hp hcb hdata =>
      rw [markFile_fileOpId hid] at hreport ⊢
      exact .accepted (hp.marked hok hid multishot) hcb hdata hreport
  | @failed v id fs hget halloc hne =>
    obtain ⟨hslots, hreports⟩ := hentry hget
    rw [hslots] at halloc
    rw [halloc] at hspec
    have hreport := (submit_report { v with fileState := IoUringState.marked multishot id fs }
      (sqe id) (fileOpId id) false).trans (congrArg _ hreports)
    cases hspec with
    | refused => exact absurd rfl hne
    | @placed op fs i hp hcb hdata =>
      rw [markFile_fileOpId hid] at hreport ⊢
      have hp' := hp.marked hok hid multishot
      obtain ⟨hfewer, hdropped⟩ := hp'.dropped hok hid
      refine .failed (hfewer.ok (hp'.ok hok hid)) (hfewer.nextId.trans (hp'.nextId_eq hid))
        (fun j hj => ?_) hreport
      -- what is still active is not the new operation
      obtain ⟨hact, hop⟩ := hfewer.active j hj
      have hold := (hp'.active j (hdropped j hj)).mp hact
      exact ⟨hold, hop.trans (hp'.other j (hdropped j hj) hold)⟩

end Loopy.IoUring
