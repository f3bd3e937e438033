import Loopy.IoUring.Slots

/-!
# Failed submissions

An entry is published in the submission ring before the kernel is entered, and a submit
function whose `io_uring_enter` fails leaves it there: the next call that succeeds consumes
the oldest entry, not its own. As long as no successful call finds such an entry (`Clean`),
what a submit function reports is true.

`QueueOk` is about the ring and the kernel, `DroppedOk` about the slots of operations whose
submission has failed.
-/

namespace Loopy.IoUring

open Loopy.EventLoop Loopy.Lib Loopy.Epoll FileState

/-! ## The queue -/

/-- A submit function has reported failure for the entry. -/
def IoUringState.rejected (u : IoUringState) (tag : ℕ) : Bool :=
  u.reports.any fun r => r.tag == tag && !r.ok

/-- The reports are true of what the kernel has consumed. -/
structure QueueOk (u : IoUringState) : Prop where
  wf : u.sq.Wf
  queued_lt : ∀ sqe ∈ u.sq.queued, sqe.tag < u.nextTag
  consumed_lt : ∀ tag ∈ u.kernel.consumed, tag < u.nextTag
  reports_lt : ∀ r ∈ u.reports, r.tag < u.nextTag
  accepted : ∀ r ∈ u.reports, r.ok = true → r.tag ∈ u.kernel.consumed
  rejected : ∀ r ∈ u.reports, r.ok = false → r.tag ∉ u.kernel.consumed

variable {u : IoUringState} {ok : Bool} {fs fs' : FileState} {reports : List Report} {m : Machine}

variable {tag addr i bits : ℕ} {r : Report} {u' : IoUringState} {op : FileOp}

theorem not_rejected (h : u.rejected tag = false) (hr : r ∈ u.reports) (hok : r.ok = false) :
    r.tag ≠ tag := by
  intro htag
  unfold IoUringState.rejected at h
  rw [List.any_eq_false] at h
  have hnot := h r hr
  simp [htag, hok] at hnot

theorem execute_consumed (k : Kernel) (sqe : Sqe) :
    (k.execute sqe).consumed = k.consumed ++ [sqe.tag] := by
  unfold Kernel.execute
  cases sqe.opcode with
  | POLL_REMOVE =>
    simp only []
    cases k.polls.find? (·.userData = sqe.addr) <;> rfl
  | _ => rfl

theorem executes_consumed (sqes : List Sqe) (k : Kernel) :
    (sqes.foldl .execute k).consumed = k.consumed ++ sqes.map (·.tag) := by
  induction sqes generalizing k with
  | nil => simp
  | cons sqe sqes ih =>
    rw [List.foldl_cons, ih, execute_consumed, List.map_cons, List.append_assoc]
    rfl

/-- Nothing but the slots, the kernel's polls and its completions has changed. -/
structure SameQueue (u u' : IoUringState) : Prop where
  sq : u'.sq = u.sq
  nextTag : u'.nextTag = u.nextTag
  reports : u'.reports = u.reports
  consumed : u'.kernel.consumed = u.kernel.consumed

theorem QueueOk.same (h : QueueOk u) (hs : SameQueue u u') : QueueOk u' where
  wf := by rw [hs.sq]; exact h.wf
  queued_lt := by rw [hs.sq, hs.nextTag]; exact h.queued_lt
  consumed_lt := by rw [hs.consumed, hs.nextTag]; exact h.consumed_lt
  reports_lt := by rw [hs.reports, hs.nextTag]; exact h.reports_lt
  accepted := by rw [hs.reports, hs.consumed]; exact h.accepted
  rejected := by rw [hs.reports, hs.consumed]; exact h.rejected

/-- The kernel consumes entries of which none was rejected. -/
theorem QueueOk.enter (h : QueueOk u) {n : ℕ} (hn : n ≤ u.sq.count)
    (hclean : ∀ sqe ∈ u.sq.queued.take n, u.rejected sqe.tag = false) :
    QueueOk (u.ioUringEnter n true) := by
  obtain ⟨hwf, hqueued⟩ := Ring.advance_spec h.wf hn
  have hconsumed : (u.ioUringEnter n true).kernel.consumed =
      u.kernel.consumed ++ (u.sq.queued.take n).map (·.tag) := executes_consumed _ _
  refine ⟨hwf, fun sqe hsqe => ?_, fun tag htag => ?_, h.reports_lt, fun r hr hok => ?_,
    fun r hr hok htag => ?_⟩
  · apply h.queued_lt
    have hsqe' : sqe ∈ (u.sq.advance n).queued := hsqe
    rw [hqueued] at hsqe'
    exact List.mem_of_mem_drop hsqe'
  · rw [hconsumed] at htag
    rcases List.mem_append.mp htag with htag | htag
    · exact h.consumed_lt tag htag
    · obtain ⟨sqe, hsqe, rfl⟩ := List.mem_map.mp htag
      exact h.queued_lt sqe (List.mem_of_mem_take hsqe)
  · rw [hconsumed]
    exact List.mem_append_left _ (h.accepted r hr hok)
  · rw [hconsumed] at htag
    rcases List.mem_append.mp htag with htag | htag
    · exact h.rejected r hr hok htag
    · obtain ⟨sqe, hsqe, heq⟩ := List.mem_map.mp htag
      exact not_rejected (hclean sqe hsqe) hr hok heq.symm

theorem QueueOk.getSqe {v : IoUringState} (h : QueueOk u) (hget : u.ioUringGetSqe = some v) :
    QueueOk v ∧ v.sq.queued = u.sq.queued ∧ v.sq.count < 2 ^ v.sq.bits ∧ v.sq.count = u.sq.count ∧
      v.reports = u.reports := by
  obtain ⟨hfull, rfl⟩ := IoUringState.ioUringGetSqe_inv hget
  have hlt : u.sq.count < 2 ^ u.sq.bits := by
    have hne : u.sq.count ≠ 2 ^ u.sq.bits := by
      intro heq
      rw [(Ring.full_iff h.wf).mpr heq] at hfull
      cases hfull
    have := h.wf.count_le
    omega
  obtain ⟨hwf, hqueued⟩ := Ring.write_spec h.wf hlt {}
  refine ⟨⟨hwf, ?_, h.consumed_lt, h.reports_lt, h.accepted, h.rejected⟩, hqueued, hlt, rfl, rfl⟩
  show ∀ sqe ∈ (u.sq.write {}).queued, _
  rw [hqueued]
  exact h.queued_lt

/-- An entry is published. -/
theorem QueueOk.publish (h : QueueOk u) (hlt : u.sq.count < 2 ^ u.sq.bits) (sqe : Sqe) :
    QueueOk (u.fill sqe).ioUringSubmitSqe ∧
      (u.fill sqe).ioUringSubmitSqe.sq.queued = u.sq.queued ++ [{ sqe with tag := u.nextTag }] := by
  obtain ⟨hwf, hqueued⟩ := Ring.publish_spec h.wf hlt { sqe with tag := u.nextTag }
  refine ⟨⟨hwf, fun s hs => ?_, fun tag htag => (h.consumed_lt tag htag).trans (Nat.lt_succ_self _),
    fun r hr => (h.reports_lt r hr).trans (Nat.lt_succ_self _), h.accepted, h.rejected⟩, hqueued⟩
  have hs' : s ∈ ((u.sq.write { sqe with tag := u.nextTag }).publish).queued := hs
  rw [hqueued] at hs'
  rcases List.mem_append.mp hs' with hs' | hs'
  · exact (h.queued_lt s hs').trans (Nat.lt_succ_self _)
  · rw [List.mem_singleton.mp hs']
    exact Nat.lt_succ_self _

/-- An entry is published and the kernel entered for one. When it succeeds, the oldest entry
is not a rejected one. -/
theorem QueueOk.submit (h : QueueOk u) (hlt : u.sq.count < 2 ^ u.sq.bits) (sqe : Sqe)
    (hclean : ok = true → ∀ s ∈ u.sq.queued.head?, u.rejected s.tag = false) :
    QueueOk (u.submit sqe ok) := by
  obtain ⟨hpub, hqueued⟩ := h.publish hlt sqe
  cases ok with
  | false => exact hpub
  | true =>
    refine hpub.enter ?_ fun s hs => ?_
    · rw [← Ring.length_queued, hqueued, List.length_append]
      exact Nat.le_add_left _ _
    · rw [hqueued] at hs
      cases hq : u.sq.queued with
      | nil =>
        -- the entry itself is consumed, and has not been reported yet
        rw [hq] at hs
        rw [List.mem_singleton.mp hs]
        show u.reports.any _ = false
        rw [List.any_eq_false]
        intro r hr
        have := h.reports_lt r hr
        simp [Nat.ne_of_lt this]
      | cons s₀ rest =>
        rw [hq] at hs
        rw [List.mem_singleton.mp hs]
        exact hclean rfl s₀ (by rw [hq]; rfl)

/-- A submit function reports the outcome, which is true when it found the queue empty. -/
theorem QueueOk.reported (h : QueueOk u) (hlt : u.sq.count < 2 ^ u.sq.bits) (sqe : Sqe) (id : ℕ)
    (hempty : ok = true → u.sq.count = 0) : QueueOk ((u.submit sqe ok).report id ok) := by
  have hnil : ok = true → u.sq.queued = [] := by
    intro hok
    rw [← List.length_eq_zero_iff, Ring.length_queued]
    exact hempty hok
  have hsubmit : QueueOk (u.submit sqe ok) := by
    refine h.submit hlt sqe fun hok s hs => ?_
    rw [hnil hok] at hs
    cases hs
  have htag : (u.submit sqe ok).nextTag = u.nextTag + 1 := by cases ok <;> rfl
  have hreports : (u.submit sqe ok).reports = u.reports := by cases ok <;> rfl
  have hown : ∀ r ∈ ((u.submit sqe ok).report id ok).reports,
      r = ⟨u.nextTag, id, ok⟩ ∨ r ∈ (u.submit sqe ok).reports := by
    intro r hr
    rcases List.mem_cons.mp hr with rfl | hr
    · left
      rw [htag]
      rfl
    · exact Or.inr hr
  refine ⟨hsubmit.wf, hsubmit.queued_lt, hsubmit.consumed_lt, fun r hr => ?_, fun r hr hr' => ?_,
    fun r hr hr' => ?_⟩
  · rcases hown r hr with rfl | hr
    · show u.nextTag < (u.submit sqe ok).nextTag
      omega
    · exact hsubmit.reports_lt r hr
  · rcases hown r hr with rfl | hr
    · -- the only entry in the queue is the call's own
      cases hr'
      obtain ⟨-, hqueued⟩ := h.publish hlt sqe
      show u.nextTag ∈ (((u.fill sqe).ioUringSubmitSqe.sq.queued.take 1).foldl Kernel.execute
        _).consumed
      rw [executes_consumed, hqueued, hnil rfl]
      exact List.mem_append_right _ (List.mem_singleton.mpr rfl)
    · exact hsubmit.accepted r hr hr'
  · rcases hown r hr with rfl | hr
    · cases hr'
      intro hin
      exact absurd (h.consumed_lt _ hin) (lt_irrefl _)
    · exact hsubmit.rejected r hr hr'

/-! ## The slots -/

/-- No slot is in use for an operation whose submission was reported as failed. -/
structure DroppedOk (fs : FileState) (reports : List Report) : Prop where
  slots : fs.Ok
  dropped : ∀ r ∈ reports, r.ok = false → r.id ≠ 0 → r.id < fs.nextId ∧
    ∀ i, fs.Active i → (fs.op i).id ≠ r.id

theorem DroppedOk.fewer (h : DroppedOk fs reports) (hf : Fewer fs fs') : DroppedOk fs' reports where
  slots := hf.ok h.slots
  dropped := fun r hr hok hne => by
    obtain ⟨hlt, hnot⟩ := h.dropped r hr hok hne
    refine ⟨by rw [hf.nextId]; exact hlt, fun i hi => ?_⟩
    obtain ⟨hact, hop⟩ := hf.active i hi
    rw [hop]
    exact hnot i hact

theorem DroppedOk.placed (h : DroppedOk fs reports) (hp : Placed fs addr op fs' i)
    (hid : fs.nextId < fileBit) :
    DroppedOk fs' reports where
  slots := hp.ok h.slots hid
  dropped := fun r hr hok hne => by
    obtain ⟨hlt, hnot⟩ := h.dropped r hr hok hne
    have hnext := hp.nextId_eq hid
    refine ⟨by omega, fun j hj => ?_⟩
    by_cases hji : j = i
    · rw [hji, hp.self]
      exact Nat.ne_of_gt hlt
    · have hact := (hp.active j hji).mp hj
      rw [hp.other j hji hact]
      exact hnot j hact

/-- A report of success, or of an entry without a slot, is no matter of the slots. -/
theorem DroppedOk.report (h : DroppedOk fs reports) (hr : r.ok = true ∨ r.id = 0) :
    DroppedOk fs (r :: reports) := by
  refine ⟨h.slots, fun r' hin hok hne => ?_⟩
  rcases List.mem_cons.mp hin with rfl | hin
  · rcases hr with hr | hr
    · rw [hok] at hr; cases hr
    · exact absurd hr hne
  · exact h.dropped r' hin hok hne

/-- A failed submission has dropped its slot. -/
theorem DroppedOk.failed (h : DroppedOk fs reports) (hp : Placed fs addr op fs' i)
    (hid : fs.nextId < fileBit) :
    DroppedOk (IoUringState.dropped (markFile fs.nextId) fs') (⟨tag, fs.nextId, false⟩ :: reports) := by
  obtain ⟨hfewer, hne⟩ := hp.dropped h.slots hid
  have hold := (h.placed hp hid).fewer hfewer
  refine ⟨hold.slots, fun r hr hok hr0 => ?_⟩
  rcases List.mem_cons.mp hr with rfl | hr
  · refine ⟨?_, fun j hj => ?_⟩
    · rw [hfewer.nextId, hp.nextId_eq hid]
      exact Nat.lt_succ_self _
    · -- the slots still in use are older
      obtain ⟨hact, hop⟩ := hfewer.active j hj
      have hact' := (hp.active j (hne j hj)).mp hact
      rw [hop, hp.other j (hne j hj) hact']
      exact Nat.ne_of_lt (h.slots.fresh j hact')
  · exact hold.dropped r hr hok hr0

/-! ## The invariant -/

/-- What every submit function has reported is true. -/
structure SubmissionOk (u : IoUringState) : Prop where
  queue : QueueOk u
  slots : DroppedOk u.fileState u.reports

theorem SubmissionOk.same (h : SubmissionOk u) (hs : SameQueue u u')
    (hf : Fewer u.fileState u'.fileState) : SubmissionOk u' :=
  ⟨h.queue.same hs, by rw [hs.reports]; exact h.slots.fewer hf⟩

theorem SubmissionOk.addPoll (h : SubmissionOk u) (fd : ℕ) (events : BitVec 32)
    (hempty : ok = true → u.sq.count = 0) : SubmissionOk (u.ioUringAddPoll fd events ok).2 := by
  have hspares := u.ioUringAddPoll_spares fd events ok
  refine ⟨?_, ?_⟩
  · unfold IoUringState.ioUringAddPoll
    cases hget : u.ioUringGetSqe with
    | none => exact h.queue
    | some v =>
      obtain ⟨hv, -, hlt, hcount, -⟩ := h.queue.getSqe hget
      exact hv.reported hlt _ 0 fun hok => hcount.trans (hempty hok)
  · rw [hspares.fileState]
    unfold IoUringState.ioUringAddPoll
    cases hget : u.ioUringGetSqe with
    | none => exact h.slots
    | some v =>
      obtain ⟨-, -, -, -, hreports⟩ := h.queue.getSqe hget
      have hsubmit : ∀ sqe, (v.submit sqe ok).reports = u.reports := by
        intro sqe
        rw [← hreports]
        cases ok <;> rfl
      show DroppedOk _ (_ :: (v.submit _ ok).reports)
      rw [hsubmit]
      exact h.slots.report (Or.inr rfl)

theorem SubmissionOk.removePoll (h : SubmissionOk u) (fd : ℕ)
    (hclean : ok = true → ∀ s ∈ u.sq.queued.head?, u.rejected s.tag = false) :
    SubmissionOk (u.ioUringRemovePoll fd ok) := by
  have hspares := u.ioUringRemovePoll_spares fd ok
  refine ⟨?_, ?_⟩
  · unfold IoUringState.ioUringRemovePoll
    cases hget : u.ioUringGetSqe with
    | none => exact h.queue
    | some v =>
      obtain ⟨hv, hqueued, hlt, -, hreports⟩ := h.queue.getSqe hget
      refine hv.submit hlt _ fun hok s hs => ?_
      unfold IoUringState.rejected
      rw [hqueued] at hs
      rw [hreports]
      exact hclean hok s hs
  · rw [hspares.fileState]
    have hreports : (u.ioUringRemovePoll fd ok).reports = u.reports := by
      unfold IoUringState.ioUringRemovePoll
      cases hget : u.ioUringGetSqe with
      | none => rfl
      | some v =>
        obtain ⟨-, -, -, -, hreports⟩ := h.queue.getSqe hget
        rw [← hreports]
        cases ok <;> rfl
    rw [hreports]
    exact h.slots

theorem SubmissionOk.enter (h : SubmissionOk u)
    (hclean : ∀ sqe ∈ u.sq.queued, u.rejected sqe.tag = false) :
    SubmissionOk (u.ioUringEnter u.sq.count true) :=
  ⟨h.queue.enter le_rfl fun sqe hsqe => hclean sqe (List.mem_of_mem_take hsqe), h.slots⟩

/-- The submission of an operation. -/
theorem SubmissionOk.submitRequest (h : SubmissionOk u) (addr : ℕ) (r : OpRequest)
    (hid : u.fileState.nextId < fileBit) (hempty : ok = true → u.sq.count = 0) :
    SubmissionOk (u.submitRequest addr ok r).2 := by
  obtain ⟨multishot, sqe, hsub⟩ := u.submitRequest_inv addr ok r
  generalize u.submitRequest addr ok r = res at hsub
  have hspec := r.alloc_spec h.slots.slots addr
  cases hsub with
  | early => exact h
  | invalid hget =>
    obtain ⟨hv, -, -, -, hreports⟩ := h.queue.getSqe hget
    exact ⟨hv, by rw [(IoUringState.ioUringGetSqe_spares hget).fileState, hreports]; exact h.slots⟩
  | @refused _ v fs hget halloc =>
    obtain ⟨hv, -, -, -, hreports⟩ := h.queue.getSqe hget
    rw [(IoUringState.ioUringGetSqe_spares hget).fileState] at halloc
    rw [halloc] at hspec
    refine ⟨hv.same ⟨rfl, rfl, rfl, rfl⟩, ?_⟩
    show DroppedOk fs v.reports
    rw [hreports]
    generalize hzero : (0 : ℕ) = id at hspec
    cases hspec with
    | refused => exact h.slots
    | placed => exact absurd hzero.symm (markFile_ne_zero hid)
  | @sent v id fs hget halloc hne =>
    obtain ⟨hv, -, hlt, hcount, hreports⟩ := h.queue.getSqe hget
    rw [(IoUringState.ioUringGetSqe_spares hget).fileState] at halloc
    rw [halloc] at hspec
    have hslot : QueueOk { v with fileState := IoUringState.marked multishot id fs } :=
      hv.same ⟨rfl, rfl, rfl, rfl⟩
    refine ⟨hslot.reported hlt _ _ fun hok => hcount.trans (hempty hok), ?_⟩
    show DroppedOk (IoUringState.marked multishot id fs) (_ :: v.reports)
    rw [hreports]
    cases hspec with
    | refused => exact absurd rfl hne
    | placed hp hcb hdata =>
      exact (h.slots.placed (hp.marked h.slots.slots hid multishot) hid).report (Or.inl rfl)
  | @failed v id fs hget halloc hne =>
    obtain ⟨hv, -, hlt, hcount, hreports⟩ := h.queue.getSqe hget
    rw [(IoUringState.ioUringGetSqe_spares hget).fileState] at halloc
    rw [halloc] at hspec
    have hslot : QueueOk { v with fileState := IoUringState.marked multishot id fs } :=
      hv.same ⟨rfl, rfl, rfl, rfl⟩
    have hreported : QueueOk (({ v with fileState := IoUringState.marked multishot id fs }.submit
        (sqe id) false).report (fileOpId id) false) := hslot.reported hlt _ _ nofun
    refine ⟨hreported.same ⟨rfl, rfl, rfl, rfl⟩, ?_⟩
    show DroppedOk (IoUringState.dropped id (IoUringState.marked multishot id fs))
      (⟨_, fileOpId id, false⟩ :: v.reports)
    rw [hreports]
    cases hspec with
    | refused => exact absurd rfl hne
    | placed hp hcb hdata =>
      rw [markFile_fileOpId hid]
      exact h.slots.failed (hp.marked h.slots.slots hid multishot) hid

theorem count_init (bits ops n : ℕ) : (ioUringInit bits ops n).sq.count = 0 := by
  show ((0 : BitVec 32) - 0).toNat = 0
  decide

theorem queued_init (bits ops n : ℕ) : (ioUringInit bits ops n).sq.queued = [] := by
  rw [← List.length_eq_zero_iff, Ring.length_queued]
  exact count_init bits ops n

theorem ring_init_wf (hbits : bits ≤ 31) (ops n : ℕ) : (ioUringInit bits ops n).sq.Wf := by
  refine ⟨hbits, ?_, fun k hk => ?_⟩
  · rw [count_init]
    exact Nat.zero_le _
  · rw [count_init] at hk
    omega

theorem SubmissionOk.init (hbits : bits ≤ 31) (ops n : ℕ) :
    SubmissionOk (ioUringInit bits ops n) where
  queue :=
    { wf := ring_init_wf hbits ops n
      queued_lt := by rw [queued_init]; exact fun _ hs => absurd hs List.not_mem_nil
      consumed_lt := fun _ ht => absurd ht List.not_mem_nil
      reports_lt := fun _ hr => absurd hr List.not_mem_nil
      accepted := fun _ hr => absurd hr List.not_mem_nil
      rejected := fun _ hr => absurd hr List.not_mem_nil }
  slots := ⟨FileState.Ok.init bits ops n, fun _ hr => absurd hr List.not_mem_nil⟩

/-! ## The machine -/

/-- The completion loop is about to re-arm a poll. -/
def Machine.rearms (m : Machine) (u : IoUringState) : Prop :=
  match m.frames with
  | .poll p :: _ => p.pc = .loop ∧ p.head ≠ p.tail ∧ p.numevents < m.loop.setSize ∧
      ∃ cqe ∈ u.kernel.cq[p.head]?, isFileOp cqe.userData = false ∧ cqe.Fires ∧
        u.pollMask cqe.userData ≠ 0
  | _ => False

/-- What user code may call: anything but the table operations, which make their calls of the
kernel in pairs. -/
def NoTables (_ : Machine) : Input → Prop
  | .call (.table _ _) => False
  | _ => True

/-- A submit function succeeds only with an empty queue, and whatever else succeeds consumes
no rejected entry; ids are below bit 63. -/
def CleanIn (m : Machine) (u : IoUringState) : Input → Prop
  | .call (.submit _ _ ok) | .call (.poolNew _ _ _ ok) | .call (.poolFree _ _ _ ok) =>
      u.fileState.nextId < fileBit ∧ (ok = true → u.sq.count = 0)
  | .call (.addPoll _ _ ok) => ok = true → u.sq.count = 0
  | .call (.removePoll _ ok) => ok = true → ∀ s ∈ u.sq.queued.head?, u.rejected s.tag = false
  | .poll .ok => ∀ s ∈ u.sq.queued, u.rejected s.tag = false
  | .go ok => ok = true → m.rearms u → u.sq.count = 0
  | _ => True

/-- The same, for the machine. -/
def Clean (m : Machine) (i : Input) : Prop := NoTables m i ∧ ∀ u ∈ m.loop.state, CleanIn m u i

/-- A reported failure has left no trace: its entry was not consumed and no slot is in use for
it. The entry of a reported success was consumed. -/
def ReportsTrue (m : Machine) : Prop :=
  ∃ u, m.loop.state = some u ∧ ∀ r ∈ u.reports,
    (r.ok = true → r.tag ∈ u.kernel.consumed) ∧
    (r.ok = false → r.tag ∉ u.kernel.consumed ∧
      (r.id ≠ 0 → ∀ i, u.fileState.Active i → (u.fileState.op i).id ≠ r.id))

theorem SubmissionOk.reportsTrue (h : SubmissionOk u) (hs : m.loop.state = some u) :
    ReportsTrue m := by
  refine ⟨u, hs, fun r hr => ⟨h.queue.accepted r hr, fun hok => ?_⟩⟩
  exact ⟨h.queue.rejected r hr hok, fun hne => (h.slots.dropped r hr hok hne).2⟩

theorem Machine.Reads.rearms {p : Poll} {cqe : Cqe} {fs : List Frame} (hr : m.Reads u p cqe fs)
    (hfile : isFileOp cqe.userData = false) (hfires : cqe.Fires)
    (hmask : u.pollMask cqe.userData ≠ 0) : m.rearms u := by
  unfold Machine.rearms
  rw [hr.frames]
  exact ⟨hr.pc, hr.more, hr.room, cqe, hr.cqe, hfile, hfires, hmask⟩

open Machine in
theorem SubmissionOk.step {m' : Machine} {i : Input} (hs : m.loop.state = some u)
    (h : SubmissionOk u) (hok : Clean m i) (hstep : m.step i = some m') :
    ∃ u', m'.loop.state = some u' ∧ SubmissionOk u' := by
  obtain ⟨u₀, hs₀, htrans⟩ := step_inv hstep
  obtain rfl := Option.some.inj (hs.symm.trans hs₀)
  obtain ⟨hdomain, hclean⟩ := hok
  have hclean := hclean u hs
  have hkernel : ∀ k : Kernel, k.consumed = u.kernel.consumed → SubmissionOk (u.onKernel fun _ => k) :=
    fun k hk => h.same ⟨rfl, rfl, rfl, hk⟩ (.refl _)
  cases htrans with
  | ready hp hne hsub => exact ⟨_, rfl, hkernel _ rfl⟩
  | failed hp herr hne => exact ⟨_, rfl, hkernel _ rfl⟩
  | complete => exact ⟨_, rfl, hkernel _ rfl⟩
  | table => exact hdomain.elim
  | submit hu =>
    refine ⟨_, by rw [submitted_loop], ?_⟩
    exact h.submitRequest _ _ hclean.1 hclean.2
  | addPoll hu => exact ⟨_, rfl, h.addPoll _ _ hclean⟩
  | removePoll hu => exact ⟨_, rfl, h.removePoll _ hclean⟩
  | poolRefused hu => exact ⟨u, hs, h⟩
  | @pool create pool ctx addr ok fs hu hfs =>
    have hpool : u.fileState.nextId < fileBit ∧ (ok = true → u.sq.count = 0) := by
      cases create <;> exact hclean
    refine ⟨_, by rw [withFrames_loop, submitted_loop], ?_⟩
    exact h.submitRequest _ _ hpool.1 hpool.2
  | ret hf => exact ⟨u, hs, h⟩
  | pollOk hu hfs => exact ⟨_, rfl, h.enter hclean⟩
  | pollSoft hu hfs => exact ⟨u, rfl, h⟩
  | pollHard hu hfs => exact ⟨u, hs, h⟩
  | ignored hr hfile hfind => exact ⟨u, hs, h⟩
  | called hr hfile hfind hcall => exact ⟨u, hs, h⟩
  | silent hr hfile hfind hcall => exact ⟨u, hs, h⟩
  | @fired p cqe fs ok ev hr hfile hfires hev =>
    refine ⟨_, rfl, ?_⟩
    unfold IoUringState.rearm
    split
    · rename_i hmask
      exact h.addPoll _ _ fun hok => hclean hok (hr.rearms hfile hfires hmask)
    · exact h
  | skipped hr hfile hfires => exact ⟨u, hs, h⟩
  | published hf hpc hend => exact ⟨_, rfl, h.same ⟨rfl, rfl, rfl, rfl⟩ (.refl _)⟩
  | returned hf hpc => exact ⟨_, rfl, h.same ⟨rfl, rfl, rfl, rfl⟩ (finish_fewer _ _ _)⟩
  | poolDone hf =>
    refine ⟨_, rfl, ?_⟩
    unfold IoUringState.setBufferGroup
    split
    · exact h.same ⟨rfl, rfl, rfl, rfl⟩ (.refl _)
    · exact h
  | poolFailed hf => exact ⟨u, hs, h⟩

instance (cqe : Cqe) : Decidable cqe.Fires := inferInstanceAs (Decidable (_ ∧ _))

instance (m : Machine) (u : IoUringState) : Decidable (m.rearms u) :=
  match h : m.frames with
  | .poll p :: _ => decidable_of_iff (p.pc = .loop ∧ p.head ≠ p.tail ∧
      p.numevents < m.loop.setSize ∧ ∃ cqe ∈ u.kernel.cq[p.head]?,
        isFileOp cqe.userData = false ∧ cqe.Fires ∧ u.pollMask cqe.userData ≠ 0)
      (by unfold Machine.rearms; rw [h])
  | [] | .callback _ :: _ | .pool _ :: _ => isFalse (by unfold Machine.rearms; rw [h]; exact id)

instance (m : Machine) : (i : Input) → Decidable (NoTables m i)
  | .call (.table _ _) => isFalse id
  | .call (.submit _ _ _) | .call (.poolNew _ _ _ _) | .call (.poolFree _ _ _ _)
  | .call (.addPoll _ _ _) | .call (.removePoll _ _) | .poll _ | .go _ | .ret | .ready _ _
  | .failed _ _ | .complete _ _ _ => isTrue trivial

instance (m : Machine) (u : IoUringState) : (i : Input) → Decidable (CleanIn m u i)
  | .call (.submit _ _ _) | .call (.poolNew _ _ _ _) | .call (.poolFree _ _ _ _) =>
    inferInstanceAs (Decidable (_ ∧ _))
  | .call (.addPoll _ _ _) => inferInstanceAs (Decidable (_ → _))
  | .call (.removePoll _ _) =>
    inferInstanceAs (Decidable (_ → _))
  | .poll .ok => inferInstanceAs (Decidable (∀ s ∈ u.sq.queued, u.rejected s.tag = false))
  | .go _ => inferInstanceAs (Decidable (_ → _ → _))
  | .call (.table _ _) | .poll .soft | .poll .hard | .ret | .ready _ _ | .failed _ _
  | .complete _ _ _ => isTrue trivial

instance (m : Machine) (i : Input) : Decidable (Clean m i) :=
  inferInstanceAs (Decidable (_ ∧ _))

/-- **A failed submission leaves no trace.** For every ring size and every run in which no
successful call of the kernel finds the entry of a failed submission, or a submit function
another entry than its own, the entry of a submission reported as failed is never consumed
and no slot stays in use for it, and the entry of one reported as successful was consumed. -/
theorem failures_leave_no_trace (bits : ℕ) (hbits : bits ≤ 31) (ops n addr : ℕ) (is : List Input)
    (m : Machine) (hrun : Run Machine.step Clean (.start bits ops n addr) is m) :
    ReportsTrue m := by
  have hinv : ∃ u, m.loop.state = some u ∧ SubmissionOk u := by
    refine hrun.invariant (P := fun m => ∃ u, m.loop.state = some u ∧ SubmissionOk u) ?_
      ⟨_, rfl, .init hbits ops n⟩
    rintro m i m' ⟨u, hs, h⟩ hok hstep
    exact h.step hs hok hstep
  obtain ⟨u, hs, h⟩ := hinv
  exact h.reportsTrue hs

/-- A read and the removal of a poll are submitted, then a write fails; a poll that is
interrupted submits nothing. -/
def cleanRun : List Input :=
  [.call (.submit (.read 4 50 10 0 7 8) 200 true), .call (.removePoll 4 true),
    .call (.submit (.write 4 60 10 0 7 9) 200 false), .poll .soft, .go true]

theorem failures_leave_no_trace_clean :
    ∃ m, Run Machine.step Clean (.start 3 100 16 1) cleanRun m ∧
      (∃ u, m.loop.state = some u ∧ u.kernel.consumed = [0, 1] ∧
        u.reports = [⟨2, 2, false⟩, ⟨0, 1, true⟩]) ∧ ReportsTrue m := by
  have hexec : (exec Machine.step Clean (.start 3 100 16 1) cleanRun).map
      (fun m => m.loop.state.map fun u => (u.kernel.consumed, u.reports)) =
      some (some ([0, 1], [⟨2, 2, false⟩, ⟨0, 1, true⟩])) := by decide +kernel
  obtain ⟨m, hrun, hstate⟩ := Run.of_exec_map hexec
  obtain ⟨u, hu, hrec⟩ := Option.map_eq_some_iff.mp hstate
  obtain ⟨hconsumed, hreports⟩ := Prod.mk.inj hrec
  exact ⟨m, hrun, ⟨u, hu, hconsumed, hreports⟩,
    failures_leave_no_trace 3 (by decide) 100 16 1 _ _ hrun⟩

/-- A read fails, and a second one succeeds. -/
def staleEntryRun : List Input :=
  [.call (.submit (.read 4 50 10 0 7 8) 200 false), .call (.submit (.read 4 60 10 0 7 9) 200 true)]

/-- The second call consumes the entry of the first, and leaves its own. -/
theorem failure_leaves_entry :
    ¬ ∀ is m, Run Machine.step NoTables (.start 3 100 16 1) is m → ReportsTrue m := by
  intro hall
  have hexec : (exec Machine.step NoTables (.start 3 100 16 1) staleEntryRun).map
      (fun m => m.loop.state.map fun u => (u.kernel.consumed, u.reports)) =
      some (some ([0], [⟨1, 2, true⟩, ⟨0, 1, false⟩])) := by decide +kernel
  obtain ⟨m, hm, hstate⟩ := Run.of_exec_map hexec
  obtain ⟨u, hu, hrec⟩ := Option.map_eq_some_iff.mp hstate
  obtain ⟨hconsumed, hreports⟩ := Prod.mk.inj hrec
  obtain ⟨u', hu', htrue⟩ := hall _ _ hm
  obtain rfl := Option.some.inj (hu.symm.trans hu')
  have haccepted := (htrue ⟨1, 2, true⟩ (by rw [hreports]; exact List.mem_cons_self)).1 rfl
  rw [hconsumed] at haccepted
  exact absurd haccepted (by decide)

end Loopy.IoUring
