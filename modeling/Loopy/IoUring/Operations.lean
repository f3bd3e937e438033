import Loopy.IoUring.Tracking

/-!
# Runs of the completion loop and the operations they complete

Every step of the machine keeps the slots in agreement with the record, as long as no
submission moves them from under the completion loop (`Trackable`). The array first moves
when all of its 256 slots are in use; `movedRun` gets there, and the slot of an operation
whose final completion has been consumed then stays in use.
-/

namespace Loopy.IoUring

open Loopy.EventLoop Loopy.Lib Loopy.Epoll FileState
open Function (update update_eq_self update_idem update_of_ne update_self)

/-! ## The machine -/

/-- What the callbacks and the kernel may do: submissions succeed, with ids below bit 63, and
no completion loop is entered while another one runs. -/
def Submits (m : Machine) : Input → Prop
  | .call (.submit _ _ ok) | .call (.poolNew _ _ _ ok) | .call (.poolFree _ _ _ ok) =>
      ok = true ∧ ∀ u ∈ m.loop.state, u.fileState.nextId < fileBit
  | i => NoReentry m i

/-- A buffer operation has a callback, and no submission moves the slots from under a pointer
that is still needed. -/
def KeepsSlots (m : Machine) : Input → Prop
  | .call (.submit r addr _) => r.nullBufferCb = false ∧ StaysPut m addr
  | .call (.poolNew _ _ addr _) | .call (.poolFree _ _ addr _) => StaysPut m addr
  | _ => True

/-- Both. -/
def Trackable (m : Machine) (i : Input) : Prop := Submits m i ∧ KeepsSlots m i

instance (m : Machine) (addr : ℕ) : Decidable (StaysPut m addr) :=
  inferInstanceAs (Decidable (∀ u ∈ m.loop.state,
    (∃ p ∈ pollsOn m.frames, p.usesPointer = true) → _ ∨ _ ∨ _))

instance (m : Machine) : (i : Input) → Decidable (Submits m i)
  | .call (.submit _ _ _) | .call (.poolNew _ _ _ _) | .call (.poolFree _ _ _ _) =>
    inferInstanceAs (Decidable (_ ∧ _))
  | .poll outcome => inferInstanceAs (Decidable (NoReentry m (.poll outcome)))
  | .call (.table _ _) | .call (.addPoll _ _ _) | .call (.removePoll _ _) | .go _ | .ret
  | .ready _ _ | .failed _ _ | .complete _ _ _ => isTrue trivial

instance (m : Machine) : (i : Input) → Decidable (KeepsSlots m i)
  | .call (.submit _ _ _) => inferInstanceAs (Decidable (_ ∧ _))
  | .call (.poolNew _ _ addr _) | .call (.poolFree _ _ addr _) =>
    inferInstanceAs (Decidable (StaysPut m addr))
  | .call (.table _ _) | .call (.addPoll _ _ _) | .call (.removePoll _ _) | .poll _ | .go _ | .ret
  | .ready _ _ | .failed _ _ | .complete _ _ _ => isTrue trivial

instance (m : Machine) (i : Input) : Decidable (Trackable m i) :=
  inferInstanceAs (Decidable (_ ∧ _))

variable {m m' : Machine} {u : IoUringState} {p : Poll} {cqe : Cqe} {fs : List Frame} {k : ℕ}

theorem Submits.noReentry {i : Input} (h : Submits m i) : NoReentry m i := by
  cases i with
  | call => trivial
  | _ => exact h

theorem Trackable.pool {create : Bool} {pool : BufferPool} {ctx addr : ℕ} {ok : Bool}
    (h : Trackable m (.call (Machine.poolCall create pool ctx addr ok))) :
    (ok = true ∧ ∀ u ∈ m.loop.state, u.fileState.nextId < fileBit) ∧ StaysPut m addr := by
  cases create with
  | true => exact h
  | false => exact h

/-- The completion loop finds the operation of its entry and calls its callback. -/
theorem TrackOk.called {fileOp : SlotPtr} {call : Option Invocation} {after : After}
    (h : TrackOk m u) (hr : m.Reads u p cqe fs) (hfile : isFileOp cqe.userData = true)
    (hfind : ioUringFileOpFind u.fileState (fileOpId cqe.userData) = some fileOp)
    (hcall : u.completion (u.fileState.load fileOp) cqe = (call, after))
    (hc : ∃ k, ConsumedOk m' u k)
    (hpolls : pollsOn m'.frames = { p with pc := .returned fileOp after cqe } :: pollsOn fs)
    (hev : m'.events = .completed p.head cqe (u.fileState.load fileOp).id call ::
      .processed p.head cqe :: m.events) :
    TrackOk m' u := by
  obtain ⟨k, hcons⟩ := h.consumed
  have hstage := hcons.stage
  rw [hr.frames, pollsOn_poll] at hstage
  obtain ⟨hnil, -, hk, -, -⟩ := hstage.poll
  obtain ⟨haddr, hlt, hact, hid⟩ := ioUringFileOpFind_inv hfind
  rw [fileOpId_fileOpId] at hid
  rw [load_live haddr] at hcall hact hid hev
  have hactive : u.fileState.Active fileOp.idx := ⟨hlt, hact⟩
  have hof : cqe.isOf (u.fileState.op fileOp.idx).id = true := by
    unfold Cqe.isOf
    rw [hfile, hid, Bool.true_and, beq_iff_eq]
  obtain ⟨r, hacc, hfin⟩ := h.slots.slots _ hactive
  obtain ⟨-, hcb, hdata, hne⟩ := h.slots.accepted _ _ hacc
  obtain ⟨call', after', hcompl, hafter, hspec⟩ := u.completion_spec hne cqe
  obtain ⟨rfl, rfl⟩ := Prod.mk.inj (hcall.symm.trans hcompl)
  -- nothing was called for this position before
  have hfresh : callsAt p.head m.events = [] := by
    apply h.calls
    rw [hcons.positions, List.mem_range, ← hk, Poll.next, hr.pc]
    exact lt_irrefl _
  have hslots : SlotsTrack u.fileState (.processed p.head cqe :: m.events) := h.slots.idle trivial
  refine ⟨hc, ?_, fun pos hpos => ?_, fun q hq fileOp' after' cqe' hpc => ?_, ?_⟩
  · rw [hev]
    exact hslots.idle trivial
  · have hne' : p.head ≠ pos := by
      rintro rfl
      apply hpos
      rw [hev, positions_cons, positions_cons]
      simp [positions]
    have hold : pos ∉ positions m.events := by
      intro hin
      apply hpos
      rw [hev, positions_cons, positions_cons]
      exact List.mem_append_left _ (List.mem_append_left _ hin)
    have hcalls : callsAt pos m'.events = callsAt pos m.events := by
      rw [hev]
      simp [callsAt, hne']
    rw [hcalls]
    exact h.calls pos hold
  · rw [hpolls, hnil, List.mem_singleton] at hq
    subst hq
    cases hpc
    refine ⟨hactive, hof, hafter, fun _ => haddr, call', ?_, hspec⟩
    have hcalls : callsAt p.head m'.events = some call' :: callsAt p.head m.events := by
      rw [hev]
      simp [callsAt]
    show callsAt p.head m'.events = _
    rw [hcalls, hfresh]
  · rw [hev]
    refine good_cons (good_cons h.good trivial) ⟨hof, ⟨r, _, ?_, rfl⟩, fun hf => hfin ?_⟩
    · exact List.mem_cons_of_mem _ hacc
    · exact (Event.Idle.finished_iff (e := .processed p.head cqe) trivial).mp hf

/-- The callback has returned. -/
theorem TrackOk.returned {fileOp : SlotPtr} {after : After} (h : TrackOk m u)
    (hf : m.frames = .poll p :: fs) (hpc : p.pc = .returned fileOp after cqe)
    (hc : ∃ k, ConsumedOk m' { u with fileState := u.fileState.finish fileOp after } k)
    (hpolls : pollsOn m'.frames = { p with head := p.head + 1, pc := .loop } :: pollsOn fs)
    (hev : m'.events = .consumed p.head cqe :: m.events) :
    TrackOk m' { u with fileState := u.fileState.finish fileOp after } := by
  obtain ⟨k, hcons⟩ := h.consumed
  have hstage := hcons.stage
  rw [hf, pollsOn_poll] at hstage
  obtain ⟨hnil, -⟩ := hstage.poll
  have hwait := h.waits p (by rw [hf]; exact List.mem_cons_self) fileOp after cqe hpc
  refine ⟨hc, ?_, fun pos hpos => ?_, fun q hq fileOp' after' cqe' hq' => ?_, ?_⟩
  · show SlotsTrack (u.fileState.finish fileOp after) m'.events
    rw [hev, hwait.finish_eq hpc]
    exact h.slots.consumed hwait.active hwait.isOf
  · rw [hev] at hpos ⊢
    refine h.calls pos fun hin => hpos ?_
    rw [positions_cons]
    exact List.mem_append_left _ hin
  · rw [hpolls, hnil, List.mem_singleton] at hq
    subst hq
    cases hq'
  · rw [hev]
    refine good_cons h.good fun r op hacc hof hfin => ?_
    -- the live operation of this completion is the one in the slot
    obtain ⟨i, hact, rfl⟩ := h.slots.live r op hacc hfin
    have hid : (u.fileState.op i).id = (u.fileState.op fileOp.idx).id :=
      (isOf_id hof).2.symm.trans (isOf_id hwait.isOf).2
    have hi := h.slots.ok.distinct i fileOp.idx hact hwait.active hid
    obtain ⟨-, hcb, hdata, -⟩ := h.slots.accepted r _ hacc
    obtain ⟨call, hcalls, h1, h2, h3⟩ := hwait.call
    rw [← hi] at h1 h2
    exact ⟨call, hcalls, h1.trans hcb, h2.trans hdata, h3⟩

/-- A completion of a file operation that is in no slot is passed over. -/
theorem TrackOk.ignored (h : TrackOk m u) (hr : m.Reads u p cqe fs)
    (hfind : ioUringFileOpFind u.fileState (fileOpId cqe.userData) = none)
    (hc : ∃ k, ConsumedOk (((m.emit (.processed p.head cqe)).emit (.consumed p.head cqe)).withFrames
      (.poll { p with head := p.head + 1 } :: fs)) u k) :
    TrackOk (((m.emit (.processed p.head cqe)).emit (.consumed p.head cqe)).withFrames
      (.poll { p with head := p.head + 1 } :: fs)) u := by
  obtain ⟨k, hcons⟩ := h.consumed
  have hread := h.slots.idle (e := .processed p.head cqe) trivial
  obtain ⟨hslots, hgood⟩ := hread.ignored p.head hfind
  have hstage := hcons.stage
  rw [hr.frames, pollsOn_poll] at hstage
  obtain ⟨hnil, -⟩ := hstage.poll
  refine ⟨hc, hslots, fun pos hpos => ?_, fun q hq fileOp after cqe' hpc => ?_,
    good_cons (good_cons h.good trivial) hgood⟩
  · refine h.calls pos fun hin => hpos ?_
    show pos ∈ positions (.consumed p.head cqe :: .processed p.head cqe :: m.events)
    rw [positions_cons, positions_cons]
    exact List.mem_append_left _ (List.mem_append_left _ hin)
  · have hq' : q ∈ { p with head := p.head + 1 } :: pollsOn fs := hq
    rw [hnil, List.mem_singleton] at hq'
    rw [hq', hr.pc] at hpc
    cases hpc

/-- A poll that reads the next entry joins the ones on the stack. -/
theorem loops_or_on {q₀ : Poll} {ps : List Poll} (hpc : q₀.pc = .loop)
    (hps : ∀ q ∈ ps, q ∈ pollsOn m.frames) : ∀ q ∈ q₀ :: ps, q ∈ pollsOn m.frames ∨ q.pc = .loop := by
  intro q hq
  rcases List.mem_cons.mp hq with rfl | hq
  · exact Or.inr hpc
  · exact Or.inl (hps q hq)

theorem Machine.Reads.mem_pollsOn (hr : m.Reads u p cqe fs) :
    ∀ q ∈ pollsOn fs, q ∈ pollsOn m.frames := by
  rw [hr.frames, pollsOn_poll]
  exact fun _ => List.mem_cons_of_mem p

open Machine in
/-- Every step keeps the operations in their slots. -/
theorem TrackOk.step {i : Input} (h : TrackOk m u) (hok : Trackable m i)
    (hstep : m.step i = some m') : ∃ u', TrackOk m' u' := by
  obtain ⟨k, hcons⟩ := h.consumed
  obtain ⟨u₁, k₁, hcons'⟩ := hcons.step hok.1.noReentry hstep
  obtain ⟨u₀, hs₀, htrans⟩ := step_inv hstep
  obtain rfl := Option.some.inj (hcons.state.symm.trans hs₀)
  refine ⟨u₁, ?_⟩
  have hsame : ∀ {fs}, pollsOn fs = pollsOn m.frames →
      ∀ p ∈ pollsOn fs, p ∈ pollsOn m.frames ∨ p.pc = .loop := fun heq p hp => Or.inl (heq ▸ hp)
  -- the state the consumption invariant speaks of is the one of the step
  have hstate : ∀ {v}, m'.loop.state = some v → u₁ = v := fun hv =>
    Option.some.inj (hcons'.state.symm.trans hv)
  cases htrans with
  | ready hp hne hsub =>
    obtain rfl := hstate rfl
    exact h.aside ⟨_, hcons'⟩ rfl (.cons ⟨trivial, nofun⟩ (.refl _)) (hsame rfl)
  | failed hp herr hne =>
    obtain rfl := hstate rfl
    exact h.aside ⟨_, hcons'⟩ rfl (.refl _) (hsame rfl)
  | complete =>
    obtain rfl := hstate rfl
    exact h.aside ⟨_, hcons'⟩ rfl (.refl _) (hsame rfl)
  | table hu he =>
    obtain ⟨u', hs', hspares⟩ := tableEffect_spares hcons.state he
    obtain rfl := hstate hs'
    exact h.aside ⟨_, hcons'⟩ hspares.fileState (.refl _) (hsame rfl)
  | @submit r addr ok hu =>
    obtain ⟨⟨rfl, hid⟩, hnull, hput⟩ := hok
    obtain rfl := hstate (by rw [submitted_loop])
    exact h.submitted hcons.state ⟨_, hcons'⟩ (hid u hcons.state) hnull hput
      (by rw [submitted_frames]) (submitted_events _ _ _ _ _)
  | addPoll hu =>
    obtain rfl := hstate rfl
    exact h.aside ⟨_, hcons'⟩ (u.ioUringAddPoll_spares _ _ _).fileState (.refl _) (hsame rfl)
  | removePoll hu =>
    obtain rfl := hstate rfl
    exact h.aside ⟨_, hcons'⟩ (u.ioUringRemovePoll_spares _ _).fileState (.refl _) (hsame rfl)
  | poolRefused hu =>
    obtain rfl := hstate hcons.state
    exact h
  | @pool create pool ctx addr ok fs hu hfs =>
    obtain ⟨⟨rfl, hid⟩, hput⟩ := hok.pool
    obtain rfl := hstate (by rw [withFrames_loop, submitted_loop])
    refine h.submitted hcons.state ⟨_, hcons'⟩ (hid u hcons.state) ?_ hput ?_
      (submitted_events _ _ _ _ _)
    · cases create <;> rfl
    · show pollsOn fs = _
      rcases hfs with rfl | rfl
      · rfl
      · rfl
  | ret hf =>
    obtain rfl := hstate hcons.state
    refine h.aside ⟨_, hcons'⟩ rfl (.refl _) (hsame ?_)
    rw [hf, pollsOn_callback]
    rfl
  | pollOk hu hfs =>
    obtain rfl := hstate rfl
    exact h.aside ⟨_, hcons'⟩ (u.ioUringEnter_spares _ true).fileState (.refl _)
      (loops_or_on rfl fun _ hq => hfs.pollsOn_eq ▸ hq)
  | pollSoft hu hfs =>
    obtain rfl := hstate rfl
    exact h.aside ⟨_, hcons'⟩ rfl (.refl _) (loops_or_on rfl fun _ hq => hfs.pollsOn_eq ▸ hq)
  | pollHard hu hfs =>
    obtain rfl := hstate hcons.state
    exact h.aside ⟨_, hcons'⟩ rfl (.refl _) (hsame hfs.pollsOn_eq)
  | ignored hr hfile hfind =>
    obtain rfl := hstate hcons.state
    exact h.ignored hr hfind ⟨_, hcons'⟩
  | called hr hfile hfind hcall | silent hr hfile hfind hcall =>
    obtain rfl := hstate hcons.state
    exact h.called hr hfile hfind hcall ⟨_, hcons'⟩ rfl rfl
  | @fired p cqe fs ok ev hr hfile hfires hev =>
    obtain rfl := hstate rfl
    exact h.aside ⟨_, hcons'⟩ (u.rearm_spares cqe.userData ok).fileState
      (.cons ⟨hfile, nofun⟩ (.cons ⟨trivial, nofun⟩ (.cons ⟨trivial, nofun⟩ (.refl _))))
      (loops_or_on hr.pc hr.mem_pollsOn)
  | @skipped p cqe fs ok hr hfile hfires =>
    obtain rfl := hstate hcons.state
    exact h.aside ⟨_, hcons'⟩ rfl (.cons ⟨hfile, nofun⟩ (.cons ⟨trivial, nofun⟩ (.refl _)))
      (loops_or_on hr.pc hr.mem_pollsOn)
  | @published p fs ok hf hpc hend =>
    obtain rfl := hstate rfl
    refine h.aside ⟨_, hcons'⟩ rfl (.cons ⟨trivial, nofun⟩ (.refl _)) fun q hq => Or.inl ?_
    rw [hf]
    exact List.mem_cons_of_mem _ hq
  | returned hf hpc =>
    obtain rfl := hstate rfl
    exact h.returned hf hpc ⟨_, hcons'⟩ rfl rfl
  | poolDone hf =>
    obtain rfl := hstate rfl
    refine h.aside ⟨_, hcons'⟩ (u.setBufferGroup_spares _ _).fileState (.refl _) (hsame ?_)
    rw [hf, pollsOn_pool]
    rfl
  | poolFailed hf =>
    obtain rfl := hstate hcons.state
    refine h.aside ⟨_, hcons'⟩ rfl (.refl _) (hsame ?_)
    rw [hf, pollsOn_pool]
    rfl

theorem TrackOk.start (bits ops n addr : ℕ) :
    TrackOk (.start bits ops n addr) (ioUringInit bits ops n) where
  consumed := ⟨0, .start bits ops n addr⟩
  slots :=
    { ok := .init bits ops n
      slots := fun i hi => absurd hi.2 (by simp [ioUringInit, FileState.op, FileOp.zero])
      live := fun _ _ hacc => absurd hacc List.not_mem_nil
      accepted := fun _ _ hacc => absurd hacc List.not_mem_nil }
  calls := fun _ _ => rfl
  waits := fun _ hp => absurd hp List.not_mem_nil
  good := fun e es hsuf => absurd (List.suffix_nil.mp hsuf) (List.cons_ne_nil e es)

/-- **Operations are tracked.** In every run in which submissions succeed and none moves the
slots from under a pointer of the completion loop that is still needed, the active slots are
exactly the operations accepted and not yet finished, under distinct ids; every consumed
completion of such an operation has called its callback once, with its user data and result,
and no callback is called for any other operation. -/
theorem operations_tracked (bits ops n addr : ℕ) (is : List Input) (m : Machine)
    (hrun : Run Machine.step Trackable (.start bits ops n addr) is m) : TracksOperations m := by
  have hinv : ∃ u, TrackOk m u := by
    refine hrun.invariant (P := fun m => ∃ u, TrackOk m u) ?_ ⟨_, .start bits ops n addr⟩
    rintro m i m' ⟨u, h⟩ hok hstep
    exact h.step hok hstep
  obtain ⟨u, h⟩ := hinv
  exact h.tracks

/-- A multishot accept and a read: the accept completes twice, the second time for good, and
the callback of the read submits a write. -/
def trackedRun : List Input :=
  [.call (.submit (.acceptMultishot 5 0 6 9) 200 true), .call (.submit (.read 4 50 10 0 7 8) 200 true),
    .complete 1 12 IORING_CQE_F_MORE, .complete 2 10 0, .complete 1 13 0, .poll .ok,
    .go true, .ret, .go true, .go true,
    -- inside the callback of the read
    .call (.submit (.write 4 50 10 0 7 8) 200 true), .ret, .go true,
    .go true, .ret, .go true, .go true]

theorem operations_tracked_multishot :
    ∃ m, Run Machine.step Trackable (.start 3 100 16 1) trackedRun m ∧
      (∃ u, m.loop.state = some u ∧ (u.fileState.op 0).active = false ∧
        (u.fileState.op 1).active = false ∧ u.fileState.op 2 = ⟨3, 7, 8, true, false, 0, 0⟩) ∧
      callbacks 1 m.events = 2 ∧ TracksOperations m := by
  have hexec : (exec Machine.step Trackable (.start 3 100 16 1) trackedRun).map
      (fun m => (m.loop.state.map fun u => ((u.fileState.op 0).active, (u.fileState.op 1).active,
        u.fileState.op 2), callbacks 1 m.events)) =
      some (some (false, false, ⟨3, 7, 8, true, false, 0, 0⟩), 2) := by decide +kernel
  obtain ⟨m, hrun, hrec⟩ := Run.of_exec_map hexec
  obtain ⟨hstate, hcalls⟩ := Prod.mk.inj hrec
  obtain ⟨u, hu, hops⟩ := Option.map_eq_some_iff.mp hstate
  obtain ⟨h0, h12⟩ := Prod.mk.inj hops
  obtain ⟨h1, h2⟩ := Prod.mk.inj h12
  exact ⟨m, hrun, ⟨u, hu, h0, h1, h2⟩, hcalls, operations_tracked 3 100 16 1 _ _ hrun⟩

/-! ## Moving the slots -/

/-- A read to submit. -/
def fillRead : Input := .call (.submit (.read 4 50 10 0 7 8) 200 true)

/-- The slots with the first `k` in use. -/
def filledSlots (k i : ℕ) : FileOp := if i < k then ⟨i + 1, 7, 8, true, false, 0, 0⟩ else .zero

/-- The entry of the `k`-th read. -/
def fillSqe (k : ℕ) : Sqe :=
  { opcode := .READ, fd := 4, addr := 50, len := 10, userData := markFile k, tag := k - 1 }

/-- The submission ring of one entry, after `k` entries. -/
def oneRing (k : ℕ) (last : Sqe) : Lib.Ring Sqe :=
  { bits := 0
    head := BitVec.ofNat 32 k
    tail := BitVec.ofNat 32 k
    array := fun _ => 0
    slots := update (fun _ => {}) 0 last }

/-- The state after `k` reads. -/
def filledState (k : ℕ) : IoUringState :=
  { ioUringInit 0 100 16 with
    sq := oneRing k (if k = 0 then {} else fillSqe k)
    kernel := { polls := [], cq := [], consumed := List.range k }
    fileState :=
      { mem := update (fun _ _ => .zero) 100 (filledSlots k)
        ops := 100
        opsSize := 256
        nextId := k + 1 }
    nextTag := k
    reports := ((List.range k).map fun i => ⟨i, i + 1, true⟩).reverse }

/-- The machine after `k` reads. -/
def filled (k : ℕ) : Machine :=
  { Machine.start 0 100 16 1 with
    loop := { (Machine.start 0 100 16 1).loop with state := some (filledState k) }
    events := ((List.range k).map fun i =>
      .accepted (.read 4 50 10 0 7 8) (⟨i + 1, 7, 8, true, false, 0, 0⟩ : FileOp)).reverse }

theorem filled_zero : filled 0 = .start 0 100 16 1 := by
  have hmem : update (fun _ _ => FileOp.zero) 100 (filledSlots 0) = fun _ _ => .zero := by
    funext a i
    by_cases ha : a = 100
    · rw [ha, update_self]
      rfl
    · rw [update_of_ne ha]
  have hslots : update (fun _ => ({} : Sqe)) 0 {} = fun _ : ℕ => {} :=
    update_eq_self 0 _
  unfold filled filledState
  simp only [hmem, if_pos, oneRing, hslots]
  rfl

theorem op_filled (k i : ℕ) : (filledState k).fileState.op i = filledSlots k i := by
  show update (fun _ _ => FileOp.zero) 100 (filledSlots k) 100 i = _
  rw [update_self]

theorem freeSlot_filled (hk : k < 256) : (filledState k).fileState.freeSlot = some k := by
  have hop : ∀ i, ((filledState k).fileState.op i).active = decide (i < k) := by
    intro i
    rw [op_filled, filledSlots]
    by_cases hi : i < k <;> simp [hi, FileOp.zero]
  unfold freeSlot
  simp only [hop]
  rw [List.find?_range_eq_some]
  refine ⟨by simp, List.mem_range.mpr hk, fun j hj => by simpa using hj⟩

theorem slots_filled (k : ℕ) : update (filledSlots k) k ⟨k + 1, 7, 8, true, false, 0, 0⟩ =
    filledSlots (k + 1) := by
  funext i
  by_cases hi : i = k
  · rw [hi, update_self, filledSlots, if_pos (Nat.lt_succ_self k)]
  · rw [update_of_ne hi, filledSlots, filledSlots]
    by_cases hlt : i < k
    · rw [if_pos hlt, if_pos (by omega)]
    · rw [if_neg hlt, if_neg (by omega)]

/-- A ring of one entry hands an entry on at once. -/
theorem oneRing_submit (k : ℕ) (last sqe : Sqe) :
    (((oneRing k last).write {}).write sqe).publish.queued = [sqe] ∧
      (((oneRing k last).write {}).write sqe).publish.advance 1 = oneRing (k + 1) sqe := by
  have hindex : ∀ (r : Lib.Ring Sqe) i, r.bits = 0 → r.index i = 0 := by
    intro r i h
    simp [Ring.index, Ring.mask, h]
  generalize hr : oneRing k last = r
  have hbits : r.bits = 0 := by rw [← hr]; rfl
  have hcount : ((r.write {}).write sqe).publish.count = 1 := by
    rw [← hr]
    show (BitVec.ofNat 32 k + 1#32 - BitVec.ofNat 32 k).toNat = 1
    rw [BitVec.add_comm, BitVec.add_sub_cancel]
    rfl
  have hslots : ((r.write {}).write sqe).slots = update (fun _ => {}) 0 sqe := by
    show update (update r.slots (r.index r.tail) {}) ((r.write {}).index r.tail)
      sqe = _
    rw [hindex r _ hbits, hindex (r.write {}) _ hbits, update_idem, ← hr]
    exact update_idem _ _ _
  have harray : ((r.write {}).write sqe).publish.array = fun _ => 0 := by
    show update r.array (((r.write {}).write sqe).index r.tail)
      (((r.write {}).write sqe).index r.tail) = _
    rw [hindex ((r.write {}).write sqe) _ hbits, ← hr]
    exact update_eq_self 0 _
  constructor
  · unfold Ring.queued
    rw [hcount, harray]
    show [((r.write {}).write sqe).slots 0] = _
    rw [hslots, update_self]
  · have hnext : BitVec.ofNat 32 k + 1#32 = BitVec.ofNat 32 (k + 1) := by
      rw [← BitVec.ofNat_add]
    show Lib.Ring.mk r.bits (r.head + 1#32) (r.tail + 1#32)
      ((r.write {}).write sqe).publish.array ((r.write {}).write sqe).slots = _
    rw [harray, hslots, ← hr]
    show Lib.Ring.mk 0 (BitVec.ofNat 32 k + 1#32) (BitVec.ofNat 32 k + 1#32) _ _ = _
    rw [hnext]
    rfl

theorem submit_filled (hk : k < 256) :
    (filledState k).submitRequest 200 true (.read 4 50 10 0 7 8) =
      (markFile (k + 1), filledState (k + 1)) := by
  have hget : (filledState k).ioUringGetSqe =
      some { filledState k with sq := (filledState k).sq.write {} } := by
    unfold IoUringState.ioUringGetSqe
    rw [if_neg]
    simp [filledState, oneRing, Ring.full, Ring.mask]
  have halloc : ioUringFileOpAllocate (filledState k).fileState 7 8 200 =
      (markFile (k + 1), (filledState (k + 1)).fileState) := by
    unfold ioUringFileOpAllocate
    simp only [freeSlot_filled hk]
    rw [if_neg (by decide)]
    unfold FileState.place FileState.store
    refine Prod.ext rfl ?_
    show FileState.mk _ _ _ _ = FileState.mk _ _ _ _
    have hmem : update (filledState k).fileState.mem 100
        (update ((filledState k).fileState.mem 100) k ⟨k + 1, 7, 8, true, false, 0, 0⟩) =
        update (fun _ _ => .zero) 100 (filledSlots (k + 1)) := by
      show update (update (fun _ _ => FileOp.zero) 100 (filledSlots k)) 100
        (update (update (fun _ _ => FileOp.zero) 100 (filledSlots k) 100) k _) = _
      rw [update_idem, update_self, slots_filled]
    have hnext : (k + 1 + 1) % 2 ^ 64 = k + 1 + 1 := Nat.mod_eq_of_lt (by omega)
    exact congr (congrArg (FileState.mk · 100 256) hmem) hnext
  obtain ⟨hqueued, hring⟩ := oneRing_submit k (if k = 0 then {} else fillSqe k) (fillSqe (k + 1))
  simp only [IoUringState.submitRequest, IoUringState.ioUringSubmitRead, IoUringState.submitOp, hget]
  rw [if_neg (by decide), halloc]
  simp only []
  rw [if_neg (markFile_ne_zero (lt_fileBit (by omega)))]
  refine Prod.ext rfl ?_
  have hreports : ((List.range (k + 1)).map fun i => (⟨i, i + 1, true⟩ : Report)).reverse =
      ⟨k, k + 1, true⟩ :: ((List.range k).map fun i => (⟨i, i + 1, true⟩ : Report)).reverse := by
    rw [List.range_succ, List.map_append, List.reverse_append]
    rfl
  have hid : fileOpId (markFile (k + 1)) = k + 1 := markFile_fileOpId (lt_fileBit (by omega))
  have hkernel : ([fillSqe (k + 1)].take 1).foldl .execute (filledState k).kernel =
      (filledState (k + 1)).kernel := by
    show Kernel.mk [] [] (List.range k ++ [k]) = Kernel.mk [] [] (List.range (k + 1))
    rw [List.range_succ]
  unfold IoUringState.report IoUringState.submit IoUringState.ioUringEnter
  rw [if_pos rfl]
  show IoUringState.mk ((((oneRing k _).write {}).write (fillSqe (k + 1))).publish.advance 1)
    (((((oneRing k _).write {}).write (fillSqe (k + 1))).publish.queued.take 1).foldl .execute
      (filledState k).kernel) 0 _ _ _ _ (k + 1) (⟨k, fileOpId (markFile (k + 1)), true⟩ :: _) = _
  rw [hring, hqueued, hkernel, hid]
  unfold filledState
  rw [hreports]
  rfl

theorem filled_ok (k : ℕ) : (filledState k).fileState.Ok := by
  have hact : ∀ i, (filledState k).fileState.Active i →
      i < k ∧ ((filledState k).fileState.op i).id = i + 1 := by
    rintro i ⟨-, hact⟩
    rw [op_filled, filledSlots] at hact ⊢
    by_cases hi : i < k
    · rw [if_pos hi]
      exact ⟨hi, rfl⟩
    · rw [if_neg hi] at hact
      cases hact
  refine ⟨Nat.succ_pos 255, fun i hi => ?_, fun i j hi hj hid => ?_⟩
  · obtain ⟨hlt, hid⟩ := hact i hi
    rw [hid]
    exact Nat.succ_lt_succ hlt
  · have h1 := (hact i hi).2
    have h2 := (hact j hj).2
    omega

theorem step_filled (hk : k < 256) : (filled k).step fillRead = some (filled (k + 1)) := by
  have hstep : (filled k).step fillRead =
      some ((filled k).submitted (filledState k) (.read 4 50 10 0 7 8) 200 true) := rfl
  rw [hstep]
  unfold Machine.submitted
  rw [submit_filled hk]
  simp only []
  rw [if_neg (markFile_ne_zero (lt_fileBit (by omega)))]
  have hop : Machine.acceptedOp (filledState (k + 1)) (markFile (k + 1)) =
      ⟨k + 1, 7, 8, true, false, 0, 0⟩ := by
    have hop : (filledState (k + 1)).fileState.op k = ⟨k + 1, 7, 8, true, false, 0, 0⟩ := by
      rw [op_filled, filledSlots, if_pos (Nat.lt_succ_self k)]
    have hid : fileOpId (markFile (k + 1)) = k + 1 := markFile_fileOpId (lt_fileBit (by omega))
    have hfind : ioUringFileOpFind (filledState (k + 1)).fileState (markFile (k + 1)) =
        some ⟨(filledState (k + 1)).fileState.ops, k⟩ :=
      (filled_ok (k + 1)).find ⟨hk, by rw [hop]⟩ (by rw [hop, hid])
    unfold Machine.acceptedOp
    rw [hfind]
    exact hop
  rw [hop]
  unfold Machine.withState Machine.emit filled
  rw [List.range_succ, List.map_append, List.reverse_append]
  rfl

theorem run_filled (hk : k ≤ 256) :
    Run Machine.step Submits (.start 0 100 16 1) (List.replicate k fillRead) (filled k) := by
  induction k with
  | zero => exact filled_zero ▸ .nil _
  | succ k ih =>
    rw [List.replicate_succ']
    refine (ih (by omega)).append (.single ⟨rfl, fun u hu => ?_⟩ (step_filled (by omega)))
    cases hu
    show k + 1 < fileBit
    unfold fileBit
    omega

/-- All slots are in use when the first read completes; its callback submits another one. -/
def movedRun : List Input :=
  List.replicate 256 fillRead ++
    [.complete 1 10 0, .poll .ok, .go true,
      -- inside the callback
      fillRead, .ret, .go true]

/-- The slot of the first read stays in use after its final completion: it was freed in the
array the slots have left. -/
theorem operation_leaked :
    ¬ ∀ is m, Run Machine.step Submits (.start 0 100 16 1) is m → TracksOperations m := by
  intro hall
  have hexec : (exec Machine.step Submits (filled 256)
      [.complete 1 10 0, .poll .ok, .go true, fillRead, .ret, .go true]).map
      (fun m => (m.loop.state.map fun u => (u.fileState.opsSize, u.fileState.op 0), m.events.head?,
        decide (.accepted (.read 4 50 10 0 7 8) ⟨1, 7, 8, true, false, 0, 0⟩ ∈ m.events.tail))) =
      some (some (512, ⟨1, 7, 8, true, false, 0, 0⟩),
        some (.consumed 0 ⟨markFile 1, 10, 0, .operation⟩),
        true) := by decide +kernel
  obtain ⟨m, hm, hrec⟩ := Run.of_exec_map hexec
  obtain ⟨hstate, hrest⟩ := Prod.mk.inj hrec
  obtain ⟨hhead, hmem⟩ := Prod.mk.inj hrest
  obtain ⟨u, hu, hop⟩ := Option.map_eq_some_iff.mp hstate
  have hrun : Run Machine.step Submits (.start 0 100 16 1) movedRun m :=
    (run_filled le_rfl).append hm
  obtain ⟨u', hu', -, hlive, -⟩ := hall _ _ hrun
  obtain rfl := Option.some.inj (hu.symm.trans hu')
  obtain ⟨hsize, hop⟩ := Prod.mk.inj hop
  have hactive : u.fileState.Active 0 := ⟨by rw [hsize]; decide, by rw [hop]⟩
  have hnot : ¬ Finished 1 m.events := ((hlive 1).mp ⟨0, hactive, by rw [hop]⟩).2
  obtain ⟨es, hes⟩ := List.head?_eq_some_iff.mp hhead
  rw [hes, List.tail_cons, decide_eq_true_iff] at hmem
  apply hnot
  rw [hes]
  exact .now hmem rfl (by decide) rfl

end Loopy.IoUring
