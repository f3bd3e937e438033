import Loopy.IoUring.Completions
import Loopy.IoUring.Slots

/-!
# Operation tracking

An operation is accepted into a slot, its completions call the callback stored there, and the
final one frees the slot. The completion loop holds a pointer to the slot while the callback
runs; a submission made there may move the array, and the pointer then writes to the old one.
Where that does not happen (`StaysPut`), the slots are exactly the operations accepted and
not yet finished.

`Finished` and `Live` read the record of events, and `TrackOk` ties the slots to it.
-/

namespace Loopy.IoUring

open Loopy.EventLoop Loopy.Lib Loopy.Epoll FileState

/-! ## Operations in the record -/

/-- The completion is the last one of the operation. -/
def FileOp.final (op : FileOp) (cqe : Cqe) : Bool := !(op.multishot && cqe.hasMore)

/-- A final completion of the operation was consumed after it was accepted. -/
inductive Finished (id : ℕ) : List Event → Prop
  | now {es : List Event} {r : OpRequest} {op : FileOp} {pos : ℕ} {cqe : Cqe}
      (hop : .accepted r op ∈ es) (hid : op.id = id) (hof : cqe.isOf id = true)
      (hfinal : op.final cqe = true) : Finished id (.consumed pos cqe :: es)
  | later {es : List Event} {e : Event} (h : Finished id es) : Finished id (e :: es)

/-- The operation was accepted and is not finished. -/
def Live (id : ℕ) (es : List Event) : Prop :=
  (∃ r op, .accepted r op ∈ es ∧ op.id = id) ∧ ¬ Finished id es

/-- The callbacks called for the entry at a position. -/
def callsAt (pos : ℕ) (es : List Event) : List (Option Invocation) :=
  es.filterMap fun e => match e with
    | .completed pos' _ _ call => if pos' = pos then some call else none
    | _ => none

/-- What an event says of the events before it: a consumed completion of a live operation has
called one callback, the one asked for, and callbacks are called for live operations only. -/
def Event.Good (es : List Event) : Event → Prop
  | .consumed pos cqe => ∀ r op, .accepted r op ∈ es → cqe.isOf op.id = true →
      ¬ Finished op.id es → ∃ call, callsAt pos es = [some call] ∧ call.cb = r.callback ∧
        call.userData = r.userData ∧ call.res = cqe.res
  | .completed _ cqe id _ => cqe.isOf id = true ∧ Live id es
  | _ => True

/-- The slots are the operations accepted and not finished, with distinct ids; a consumed
completion of such an operation called its callback once, and no other one did. -/
def TracksOperations (m : Machine) : Prop :=
  ∃ u, m.loop.state = some u ∧
    (∀ i j, u.fileState.Active i → u.fileState.Active j →
      (u.fileState.op i).id = (u.fileState.op j).id → i = j) ∧
    (∀ id, (∃ i, u.fileState.Active i ∧ (u.fileState.op i).id = id) ↔ Live id m.events) ∧
    ∀ e es, (e :: es) <:+ m.events → e.Good es

/-- An event that neither accepts nor finishes an operation. -/
def Event.Idle : Event → Prop
  | .accepted _ _ => False
  | .consumed _ cqe => isFileOp cqe.userData = false
  | _ => True

/-- An event that is no matter of tracking. -/
def Event.Untracked (e : Event) : Prop :=
  e.Idle ∧ ∀ pos cqe id call, e ≠ .completed pos cqe id call

section

variable {e : Event} {es : List Event} {id : ℕ} {r : OpRequest} {op : FileOp}

theorem isOf_id {cqe : Cqe} (h : cqe.isOf id = true) :
    isFileOp cqe.userData = true ∧ fileOpId cqe.userData = id := by
  unfold Cqe.isOf at h
  rw [Bool.and_eq_true, beq_iff_eq] at h
  exact h

theorem Event.Idle.accepted_iff (he : e.Idle) :
    .accepted r op ∈ e :: es ↔ .accepted r op ∈ es := by
  rw [List.mem_cons]
  constructor
  · rintro (rfl | h)
    · exact he.elim
    · exact h
  · exact Or.inr

theorem Event.Idle.finished_iff (he : e.Idle) :
    Finished id (e :: es) ↔ Finished id es := by
  constructor
  · intro h
    cases h with
    | now hop hid hof hfinal =>
      have hfile : isFileOp _ = false := he
      rw [(isOf_id hof).1] at hfile
      cases hfile
    | later h => exact h
  · exact .later

theorem Event.Untracked.good (he : e.Untracked) : e.Good es := by
  cases e with
  | accepted => exact he.1.elim
  | completed => exact absurd rfl (he.2 _ _ _ _)
  | consumed pos cqe =>
    intro r op _ hof
    have hfile : isFileOp cqe.userData = false := he.1
    rw [(isOf_id hof).1] at hfile
    cases hfile
  | _ => trivial

theorem Event.Untracked.callsAt_eq (he : e.Untracked) (pos : ℕ) :
    callsAt pos (e :: es) = callsAt pos es := by
  cases e with
  | completed => exact absurd rfl (he.2 _ _ _ _)
  | _ => rfl

/-- The history of a longer record. -/
theorem good_cons (hold : ∀ e es', (e :: es') <:+ es → e.Good es') (hnew : e.Good es) :
    ∀ e' es', (e' :: es') <:+ e :: es → e'.Good es' := by
  intro e' es' hsuf
  rcases List.suffix_cons_iff.mp hsuf with heq | hsuf
  · cases heq
    exact hnew
  · exact hold e' es' hsuf

end

/-! ## The invariant -/

/-- The branch of the completion loop for a completion of the operation. -/
def After.Of (op : FileOp) (cqe : Cqe) (after : After) : Prop :=
  after = if cqe.hasBuffer then .buffer cqe.hasMore
    else if op.multishot && cqe.hasMore then .more else .complete

/-- The completion loop still needs its pointer when the callback returns. -/
def Poll.usesPointer (p : Poll) : Bool :=
  match p.pc with
  | .returned _ .more _ => false
  | .returned _ _ _ => true
  | .loop => false

/-- What an activation waiting for a callback relies on: its slot is that of the completion's
operation, whose callback was called, and the pointer is good if it is still needed. -/
structure WaitOk (fs : FileState) (events : List Event) (p : Poll) (fileOp : SlotPtr)
    (after : After) (cqe : Cqe) : Prop where
  active : fs.Active fileOp.idx
  isOf : cqe.isOf (fs.op fileOp.idx).id = true
  after : after.Of (fs.op fileOp.idx) cqe
  pointer : p.usesPointer = true → fileOp.addr = fs.ops
  call : ∃ call, callsAt p.head events = [some call] ∧
    call.cb = (fs.op fileOp.idx).callback ∧ call.userData = (fs.op fileOp.idx).userData ∧
    call.res = cqe.res

/-- The slots agree with the record. -/
structure SlotsTrack (fs : FileState) (events : List Event) : Prop where
  ok : fs.Ok
  slots : ∀ i, fs.Active i →
    ∃ r, .accepted r (fs.op i) ∈ events ∧ ¬ Finished (fs.op i).id events
  live : ∀ r op, .accepted r op ∈ events → ¬ Finished op.id events →
    ∃ i, fs.Active i ∧ fs.op i = op
  accepted : ∀ r op, .accepted r op ∈ events → op.id < fs.nextId ∧ op.callback = r.callback ∧
    op.userData = r.userData ∧ op.callback ≠ 0

/-- The invariant of the machine. -/
structure TrackOk (m : Machine) (u : IoUringState) : Prop where
  consumed : ∃ k, ConsumedOk m u k
  slots : SlotsTrack u.fileState m.events
  calls : ∀ pos, pos ∉ positions m.events → callsAt pos m.events = []
  waits : ∀ p ∈ pollsOn m.frames, ∀ fileOp after cqe, p.pc = .returned fileOp after cqe →
    WaitOk u.fileState m.events p fileOp after cqe
  good : ∀ e es, (e :: es) <:+ m.events → e.Good es

variable {fs : FileState} {m : Machine} {u : IoUringState} {es es' : List Event} {r : OpRequest}
  {op : FileOp} {addr i : ℕ} {cqe : Cqe}

theorem SlotsTrack.live_iff {events : List Event} (h : SlotsTrack fs events) (id : ℕ) :
    (∃ i, fs.Active i ∧ (fs.op i).id = id) ↔ Live id events := by
  constructor
  · rintro ⟨i, hact, rfl⟩
    obtain ⟨r, hacc, hfin⟩ := h.slots i hact
    exact ⟨⟨r, _, hacc, rfl⟩, hfin⟩
  · rintro ⟨⟨r, op, hacc, rfl⟩, hfin⟩
    obtain ⟨i, hact, rfl⟩ := h.live r op hacc hfin
    exact ⟨i, hact, rfl⟩

theorem TrackOk.tracks (h : TrackOk m u) : TracksOperations m := by
  obtain ⟨k, hc⟩ := h.consumed
  exact ⟨u, hc.state, h.slots.ok.distinct, h.slots.live_iff, h.good⟩

theorem SlotsTrack.idle {e : Event} (h : SlotsTrack fs es) (he : e.Idle) :
    SlotsTrack fs (e :: es) where
  ok := h.ok
  slots := fun i hi => by
    obtain ⟨r, hacc, hfin⟩ := h.slots i hi
    exact ⟨r, he.accepted_iff.mpr hacc, fun hf => hfin (he.finished_iff.mp hf)⟩
  live := fun r op hacc hfin =>
    h.live r op (he.accepted_iff.mp hacc) fun hf => hfin (he.finished_iff.mpr hf)
  accepted := fun r op hacc => h.accepted r op (he.accepted_iff.mp hacc)

/-- A record that grows by events that are no matter of tracking. -/
inductive Extended : List Event → List Event → Prop
  | refl (es : List Event) : Extended es es
  | cons {e : Event} {es es' : List Event} (he : e.Untracked) (h : Extended es es') :
      Extended es (e :: es')

theorem Extended.slots (h : Extended es es') (hs : SlotsTrack fs es) : SlotsTrack fs es' := by
  induction h with
  | refl => exact hs
  | cons he _ ih => exact (ih hs).idle he.1

theorem Extended.callsAt_eq (h : Extended es es') (pos : ℕ) : callsAt pos es' = callsAt pos es := by
  induction h with
  | refl => rfl
  | cons he _ ih => rw [he.callsAt_eq, ih]

theorem Extended.good (h : Extended es es') (hg : ∀ e pre, (e :: pre) <:+ es → e.Good pre) :
    ∀ e pre, (e :: pre) <:+ es' → e.Good pre := by
  induction h with
  | refl => exact hg
  | cons he _ ih => exact good_cons (ih hg) he.good

variable {pos id : ℕ} {m' : Machine} {fs' : FileState} {p : Poll} {fileOp : SlotPtr} {after : After}

theorem Extended.positions (h : Extended es es') (hpos : pos ∉ positions es') :
    pos ∉ IoUring.positions es := by
  induction h with
  | refl => exact hpos
  | cons _ _ ih =>
    apply ih
    intro hin
    rw [positions_cons] at hpos
    exact hpos (List.mem_append_left _ hin)

/-- A step that leaves the slots alone. -/
theorem TrackOk.aside {u' : IoUringState} (h : TrackOk m u) (hc : ∃ k, ConsumedOk m' u' k)
    (hfs : u'.fileState = u.fileState) (hev : Extended m.events m'.events)
    (hpolls : ∀ p ∈ pollsOn m'.frames, p ∈ pollsOn m.frames ∨ p.pc = .loop) : TrackOk m' u' where
  consumed := hc
  slots := hfs ▸ hev.slots h.slots
  calls := fun pos hpos => by
    rw [hev.callsAt_eq]
    exact h.calls pos (hev.positions hpos)
  waits := fun p hp fileOp after cqe hpc => by
    rcases hpolls p hp with hp | hloop
    · obtain ⟨h1, h2, h3, h4, h5⟩ := h.waits p hp fileOp after cqe hpc
      rw [← hfs] at h1 h2 h3 h4 h5
      refine ⟨h1, h2, h3, h4, ?_⟩
      rw [hev.callsAt_eq]
      exact h5
    · rw [hloop] at hpc
      cases hpc
  good := hev.good h.good

/-! ## A new operation -/

theorem Finished.accepted (h : Finished id es) : ∃ r op, .accepted r op ∈ es ∧ op.id = id := by
  induction h with
  | now hop hid => exact ⟨_, _, List.mem_cons_of_mem _ hop, hid⟩
  | later _ ih =>
    obtain ⟨r, op, hop, hid⟩ := ih
    exact ⟨r, op, List.mem_cons_of_mem _ hop, hid⟩

theorem finished_accepted_iff : Finished id (.accepted r op :: es) ↔ Finished id es := by
  constructor
  · intro h
    cases h with
    | later h => exact h
  · exact .later

theorem SlotsTrack.placed (h : SlotsTrack fs es) (hp : Placed fs addr op fs' i)
    (hid : fs.nextId < fileBit) (hcb : op.callback = r.callback)
    (hdata : op.userData = r.userData) (hne : op.callback ≠ 0) :
    SlotsTrack fs' (.accepted r (fs'.op i) :: es) := by
  have hself : (fs'.op i).id = fs.nextId := by rw [hp.self]
  have hnext := hp.nextId_eq hid
  -- the new id was never used before
  have hnew : ¬ Finished (fs'.op i).id es := by
    intro hfin
    obtain ⟨r', op', hacc, hid'⟩ := hfin.accepted
    have := (h.accepted r' op' hacc).1
    omega
  refine ⟨hp.ok h.ok hid, fun j hj => ?_, fun r' op' hacc hfin => ?_, fun r' op' hacc => ?_⟩
  · by_cases hji : j = i
    · rw [hji]
      exact ⟨r, List.mem_cons_self, fun hf => hnew (finished_accepted_iff.mp hf)⟩
    · have hact := (hp.active j hji).mp hj
      obtain ⟨r', hacc, hfin⟩ := h.slots j hact
      rw [hp.other j hji hact]
      exact ⟨r', List.mem_cons_of_mem _ hacc, fun hf => hfin (finished_accepted_iff.mp hf)⟩
  · rcases List.mem_cons.mp hacc with heq | hacc
    · cases heq
      exact ⟨i, hp.active_self, rfl⟩
    · obtain ⟨j, hact, hop⟩ := h.live r' op' hacc fun hf => hfin (finished_accepted_iff.mpr hf)
      have hji : j ≠ i := by
        rintro rfl
        exact hp.free hact
      exact ⟨j, (hp.active j hji).mpr hact, (hp.other j hji hact).trans hop⟩
  · rcases List.mem_cons.mp hacc with heq | hacc
    · cases heq
      rw [hself, hnext, hp.self]
      exact ⟨Nat.lt_succ_self _, hcb, hdata, hne⟩
    · obtain ⟨h1, h2⟩ := h.accepted r' op' hacc
      exact ⟨by omega, h2⟩

/-- A submission does not move the array from under a pointer that is still needed. -/
def StaysPut (m : Machine) (addr : ℕ) : Prop :=
  ∀ u ∈ m.loop.state, (∃ p ∈ pollsOn m.frames, p.usesPointer = true) →
    u.fileState.freeSlot ≠ none ∨ addr = u.fileState.ops ∨ addr = 0

theorem WaitOk.placed (h : WaitOk fs es p fileOp after cqe) (hp : Placed fs addr op fs' i)
    (hput : p.usesPointer = true → fs.freeSlot ≠ none ∨ addr = fs.ops ∨ addr = 0)
    (hcalls : callsAt p.head es' = callsAt p.head es) : WaitOk fs' es' p fileOp after cqe := by
  have hne : fileOp.idx ≠ i := by
    rintro heq
    rw [← heq] at hp
    exact hp.free h.active
  have hop := hp.other _ hne h.active
  refine ⟨(hp.active _ hne).mpr h.active, by rw [hop]; exact h.isOf, by rw [hop]; exact h.after,
    fun huse => ?_, by rw [hop, hcalls]; exact h.call⟩
  rw [h.pointer huse]
  rcases hp.moved with hsame | ⟨hnone, haddr, hops⟩
  · exact hsame.symm
  · rcases hput huse with hfree | hat | hzero
    · exact absurd hnone hfree
    · rw [hops, hat]
    · exact absurd hzero haddr

/-- A successful submission. -/
theorem TrackOk.submitted (h : TrackOk m u) (hs : m.loop.state = some u)
    (hc : ∃ k, ConsumedOk m' (u.submitRequest addr true r).2 k)
    (hid : u.fileState.nextId < fileBit) (hnull : r.nullBufferCb = false) (hput : StaysPut m addr)
    (hpolls : pollsOn m'.frames = pollsOn m.frames)
    (hev : m'.events = if (u.submitRequest addr true r).1 = 0 then m.events else
      .accepted r (Machine.acceptedOp (u.submitRequest addr true r).2
        (u.submitRequest addr true r).1) :: m.events) :
    TrackOk m' (u.submitRequest addr true r).2 := by
  rcases submitRequest_spec u addr r h.slots.ok hid hnull with
    ⟨hzero, hfs⟩ | ⟨hne, op, i, hp, hop, hcb, hdata, hcb0⟩
  · rw [if_pos hzero] at hev
    exact h.aside hc hfs (hev ▸ .refl _) fun p hp => Or.inl (hpolls ▸ hp)
  · rw [if_neg hne, hop] at hev
    have hcalls : ∀ pos, callsAt pos m'.events = callsAt pos m.events := by
      intro pos
      rw [hev]
      rfl
    refine ⟨hc, ?_, fun pos hpos => ?_, fun p hpin fileOp after cqe hpc => ?_, ?_⟩
    · rw [hev]
      exact h.slots.placed hp hid hcb hdata hcb0
    · rw [hcalls]
      refine h.calls pos fun hin => hpos ?_
      rw [hev, positions_cons]
      exact List.mem_append_left _ hin
    · rw [hpolls] at hpin
      exact (h.waits p hpin fileOp after cqe hpc).placed hp
        (fun huse => hput u hs ⟨p, hpin, huse⟩) (hcalls p.head)
    · rw [hev]
      exact good_cons h.good trivial

/-! ## A completion -/

/-- The completion of an operation that is not in a slot finishes nothing. -/
theorem SlotsTrack.ignored (h : SlotsTrack fs es) (pos : ℕ)
    (hfind : ioUringFileOpFind fs (fileOpId cqe.userData) = none) :
    SlotsTrack fs (.consumed pos cqe :: es) ∧ (Event.consumed pos cqe).Good es := by
  -- an operation with this completion is not live
  have hdead : ∀ r op, .accepted r op ∈ es → cqe.isOf op.id = true → Finished op.id es := by
    intro r op hacc hof
    by_contra hfin
    obtain ⟨i, hact, rfl⟩ := h.live r op hacc hfin
    have hne := not_active_of_find hfind hact
    rw [fileOpId_fileOpId] at hne
    exact hne (isOf_id hof).2.symm
  have hfin : ∀ id, Finished id (.consumed pos cqe :: es) ↔ Finished id es := by
    intro id
    constructor
    · intro hf
      cases hf with
      | now hop hid hof hfinal =>
        subst hid
        exact hdead _ _ hop hof
      | later hf => exact hf
    · exact .later
  refine ⟨⟨h.ok, fun i hi => ?_, fun r op hacc hf => ?_, fun r op hacc => ?_⟩, ?_⟩
  · obtain ⟨r, hacc, hf⟩ := h.slots i hi
    exact ⟨r, List.mem_cons_of_mem _ hacc, fun hf' => hf ((hfin _).mp hf')⟩
  · refine h.live r op ?_ fun hf' => hf ((hfin _).mpr hf')
    simpa using hacc
  · exact h.accepted r op (by simpa using hacc)
  · intro r op hacc hof hf
    exact absurd (hdead r op hacc hof) hf

/-- The end of a completion frees the slot exactly if the completion was the final one. -/
theorem WaitOk.finish_eq (h : WaitOk fs es p fileOp after cqe)
    (hpc : p.pc = .returned fileOp after cqe) :
    fs.finish fileOp after = if (fs.op fileOp.idx).final cqe then fs.deactivate ⟨fs.ops, fileOp.idx⟩
      else fs := by
  have hafter : after = _ := h.after
  have hptr : after ≠ .more → fileOp = ⟨fs.ops, fileOp.idx⟩ := by
    intro hne
    have haddr : fileOp.addr = fs.ops := by
      apply h.pointer
      unfold Poll.usesPointer
      rw [hpc]
      cases after with
      | more => exact absurd rfl hne
      | _ => rfl
    rw [← haddr]
  unfold FileOp.final
  by_cases hbuf : cqe.hasBuffer = true
  · rw [if_pos hbuf] at hafter
    have hload : fs.load fileOp = fs.op fileOp.idx := by
      rw [hptr (by rw [hafter]; nofun)]
      rfl
    subst hafter
    show (if !(fs.load fileOp).multishot || !cqe.hasMore then fs.deactivate fileOp else fs) = _
    rw [hload, ← hptr (by nofun), Bool.not_and]
  · rw [if_neg hbuf] at hafter
    by_cases hmore : ((fs.op fileOp.idx).multishot && cqe.hasMore) = true
    · rw [if_pos hmore] at hafter
      subst hafter
      rw [hmore]
      rfl
    · rw [if_neg hmore] at hafter
      subst hafter
      rw [Bool.not_eq_true] at hmore
      rw [hmore, ← hptr (by nofun)]
      rfl

/-- The completion of the operation in a slot is consumed. -/
theorem SlotsTrack.consumed (h : SlotsTrack fs es) (hact : fs.Active i)
    (hof : cqe.isOf (fs.op i).id = true) :
    SlotsTrack (if (fs.op i).final cqe then fs.deactivate ⟨fs.ops, i⟩ else fs)
      (.consumed pos cqe :: es) := by
  obtain ⟨r, hacc, hfin⟩ := h.slots i hact
  -- an operation with this completion is the one in the slot
  have hone : ∀ r' op', .accepted r' op' ∈ es → cqe.isOf op'.id = true → ¬ Finished op'.id es →
      op' = fs.op i := by
    intro r' op' hacc' hof' hfin'
    obtain ⟨j, hactj, rfl⟩ := h.live r' op' hacc' hfin'
    have hid : (fs.op j).id = (fs.op i).id := (isOf_id hof').2.symm.trans (isOf_id hof).2
    rw [h.ok.distinct j i hactj hact hid]
  have hmem : ∀ r' op', .accepted r' op' ∈ .consumed pos cqe :: es → .accepted r' op' ∈ es := by
    intro r' op' hin
    simpa using hin
  by_cases hfinal : (fs.op i).final cqe = true
  · rw [if_pos hfinal]
    have hnow : Finished (fs.op i).id (.consumed pos cqe :: es) := .now hacc rfl hof hfinal
    have hfewer := deactivate_fewer fs ⟨fs.ops, i⟩
    have hother : ∀ j, j ≠ i → (fs.deactivate ⟨fs.ops, i⟩).op j = fs.op j :=
      fun j hj => store_op_other _ hj
    refine ⟨hfewer.ok h.ok, fun j hj => ?_, fun r' op' hacc' hfin' => ?_, fun r' op' hacc' => ?_⟩
    · obtain ⟨hactj, hop⟩ := hfewer.active j hj
      have hji : j ≠ i := by
        rintro rfl
        have hoff := hj.2
        rw [deactivate_op_self (p := ⟨fs.ops, j⟩) rfl] at hoff
        cases hoff
      obtain ⟨r', hacc', hfin'⟩ := h.slots j hactj
      rw [hop]
      refine ⟨r', List.mem_cons_of_mem _ hacc', fun hf => ?_⟩
      cases hf with
      | now hop' hid hof' hfinal' =>
        have hid' : (fs.op j).id = (fs.op i).id := (isOf_id hof').2.symm.trans (isOf_id hof).2
        exact hji (h.ok.distinct j i hactj hact hid')
      | later hf => exact hfin' hf
    · obtain ⟨j, hactj, rfl⟩ := h.live r' op' (hmem r' op' hacc') fun hf => hfin' (.later hf)
      have hji : j ≠ i := by
        rintro rfl
        exact hfin' hnow
      refine ⟨j, ⟨hactj.1, ?_⟩, hother j hji⟩
      rw [hother j hji]
      exact hactj.2
    · exact h.accepted r' op' (hmem r' op' hacc')
  · rw [if_neg hfinal]
    have hiff : ∀ id, Finished id (.consumed pos cqe :: es) ↔ Finished id es := by
      intro id
      constructor
      · intro hf
        cases hf with
        | @now _ r' op' _ _ hop' hid hof' hfinal' =>
          by_contra hfin'
          subst hid
          rw [hone r' op' hop' hof' hfin'] at hfinal'
          exact hfinal hfinal'
        | later hf => exact hf
      · exact .later
    refine ⟨h.ok, fun j hj => ?_, fun r' op' hacc' hfin' => ?_, fun r' op' hacc' => ?_⟩
    · obtain ⟨r', hacc', hfin'⟩ := h.slots j hj
      exact ⟨r', List.mem_cons_of_mem _ hacc', fun hf => hfin' ((hiff _).mp hf)⟩
    · exact h.live r' op' (hmem r' op' hacc') fun hf => hfin' ((hiff _).mpr hf)
    · exact h.accepted r' op' (hmem r' op' hacc')

theorem FileOp.plainCall_spec (hne : op.callback ≠ 0) (res : ℤ) :
    ∃ call, op.plainCall res = some call ∧ call.cb = op.callback ∧ call.userData = op.userData ∧
      call.res = res := by
  unfold FileOp.callback at hne ⊢
  unfold FileOp.plainCall
  by_cases hbuf : op.bufferCb = 0
  · simp only [hbuf, ne_eq, not_true_eq_false, if_false] at hne ⊢
    rw [if_pos hne]
    exact ⟨_, rfl, rfl, rfl, rfl⟩
  · simp only [ne_eq, hbuf, not_false_eq_true, if_true]
    exact ⟨_, rfl, rfl, rfl, rfl⟩

theorem IoUringState.bufferCall_spec (u : IoUringState) (hne : op.callback ≠ 0) (cqe : Cqe) :
    ∃ call, u.bufferCall op cqe = some call ∧ call.cb = op.callback ∧
      call.userData = op.userData ∧ call.res = cqe.res := by
  unfold FileOp.callback at hne ⊢
  unfold bufferCall
  by_cases hbuf : op.bufferCb = 0
  · simp only [hbuf, ne_eq, not_true_eq_false, if_false] at hne ⊢
    rw [if_pos hne]
    exact ⟨_, rfl, rfl, rfl, rfl⟩
  · simp only [ne_eq, hbuf, not_false_eq_true, if_true]
    exact ⟨_, rfl, rfl, rfl, rfl⟩

/-- A completion calls the operation's callback, with its user data and result. -/
theorem IoUringState.completion_spec (u : IoUringState) (hne : op.callback ≠ 0) (cqe : Cqe) :
    ∃ call after, u.completion op cqe = (some call, after) ∧ after.Of op cqe ∧
      call.cb = op.callback ∧ call.userData = op.userData ∧ call.res = cqe.res := by
  unfold completion After.Of
  by_cases hbuf : cqe.hasBuffer = true
  · rw [if_pos hbuf, if_pos hbuf]
    obtain ⟨call, hcall, hspec⟩ := u.bufferCall_spec hne cqe
    exact ⟨call, _, by rw [hcall], rfl, hspec⟩
  · rw [if_neg hbuf, if_neg hbuf]
    obtain ⟨call, hcall, hspec⟩ := FileOp.plainCall_spec hne cqe.res
    rw [hcall]
    by_cases hmore : (op.multishot && cqe.hasMore) = true
    · rw [if_pos hmore, if_pos hmore]
      exact ⟨call, _, rfl, rfl, hspec⟩
    · rw [if_neg hmore, if_neg hmore]
      exact ⟨call, _, rfl, rfl, hspec⟩

end Loopy.IoUring
