import Loopy.IoUring.Firing

/-!
# One poll per descriptor

Interest is emulated by one-shot polls: a registration removes the poll of the old mask and
adds one of the new mask, and the completion loop adds the poll again when it has consumed its
completion. The polls of a descriptor that count are the armed ones and those that completed
by readiness with the completion still queued. Two things break the count: a call that arms a
poll while a readiness completion of the descriptor is queued, and the completion of a removed
poll, which makes the completion loop arm a second one. `Settled` excludes both.
-/

namespace Loopy.IoUring

open Loopy.EventLoop Loopy.Lib Loopy.Epoll
open Function (update update_of_ne update_self)

/-! ## Counting polls -/

/-- The interests of the polls armed for a descriptor. -/
def Kernel.armed (k : Kernel) (fd : ℕ) : Multiset (BitVec 32) :=
  ((k.polls : Multiset ArmedPoll).filter (·.userData = fd)).map (·.events)

/-- The interest of a poll that completed by readiness. -/
def Cqe.readyInterest (fd : ℕ) (cqe : Cqe) : Option (BitVec 32) :=
  match cqe.origin with
  | .ready interest => if cqe.userData = fd then some interest else none
  | _ => none

/-- The interests of the polls of a descriptor whose readiness completion is at `pos` or
behind. -/
def Kernel.readied (k : Kernel) (pos fd : ℕ) : Multiset (BitVec 32) :=
  ((k.cq.drop pos).filterMap (Cqe.readyInterest fd) : List (BitVec 32))

variable {k : Kernel} {cqe : Cqe} {fd : ℕ} {u : IoUringState} {m : Machine}

/-- One poll more. -/
theorem armed_of_cons {p : ArmedPoll} (k' : Kernel)
    (h : (k.polls : Multiset ArmedPoll) = p ::ₘ (k'.polls : Multiset ArmedPoll)) (fd : ℕ) :
    k.armed fd = if p.userData = fd then p.events ::ₘ k'.armed fd else k'.armed fd := by
  unfold Kernel.armed
  rw [h, Multiset.filter_cons, Multiset.map_add]
  split
  · rw [Multiset.map_singleton, Multiset.singleton_add]
  · rw [Multiset.map_zero, zero_add]

theorem armed_append (k : Kernel) (p : ArmedPoll) (fd : ℕ) :
    ({ k with polls := k.polls ++ [p] } : Kernel).armed fd =
      if p.userData = fd then p.events ::ₘ k.armed fd else k.armed fd := by
  apply armed_of_cons k
  exact Multiset.coe_eq_coe.mpr (List.perm_append_singleton p k.polls)

theorem readied_append {pos : ℕ} (hpos : pos ≤ k.cq.length) (cqe : Cqe) (fd : ℕ) :
    (k.post cqe).readied pos fd =
      k.readied pos fd + ((Cqe.readyInterest fd cqe).toList : Multiset (BitVec 32)) := by
  unfold Kernel.readied Kernel.post
  rw [List.drop_append_of_le_length hpos, List.filterMap_append, Multiset.coe_add]
  cases hint : Cqe.readyInterest fd cqe with
  | none => simp [hint]
  | some interest => simp [hint]

/-- Reading a completion. -/
theorem readied_step {pos : ℕ} (hcqe : k.cq[pos]? = some cqe) (fd : ℕ) :
    k.readied pos fd =
      ((Cqe.readyInterest fd cqe).toList : Multiset (BitVec 32)) + k.readied (pos + 1) fd := by
  unfold Kernel.readied
  obtain ⟨hlt, hget⟩ := List.getElem?_eq_some_iff.mp hcqe
  rw [List.drop_eq_getElem_cons hlt, hget]
  cases hint : Cqe.readyInterest fd cqe with
  | none => simp [hint]
  | some interest => simp [hint]

/-! ## What the kernel does -/

/-- The polls armed for `fd` become `s`; nothing else changes that counts. -/
structure Sets (pos fd : ℕ) (s : Multiset (BitVec 32)) (k k' : Kernel) : Prop where
  armed : ∀ fd', k'.armed fd' = if fd' = fd then s else k.armed fd'
  readied : ∀ fd', k'.readied pos fd' = k.readied pos fd'
  le_length : pos ≤ k'.cq.length

theorem Sets.trans {pos : ℕ} {s s' : Multiset (BitVec 32)} {k' k'' : Kernel}
    (h : Sets pos fd s k k') (h' : Sets pos fd s' k' k'') : Sets pos fd s' k k'' := by
  refine ⟨fun fd' => ?_, fun fd' => (h'.readied fd').trans (h.readied fd'), h'.le_length⟩
  rw [h'.armed, h.armed]
  split <;> rfl

theorem execute_add (k : Kernel) (fd : ℕ) (events : BitVec 32) (tag : ℕ) {pos : ℕ}
    (hpos : pos ≤ k.cq.length) :
    Sets pos fd (events ::ₘ k.armed fd) k (k.execute
      { opcode := .POLL_ADD, fd := fd, opFlags := events, userData := fd, tag := tag }) := by
  refine ⟨fun fd' => ?_, fun _ => rfl, hpos⟩
  refine (armed_append k ⟨fd, events⟩ fd').trans ?_
  show (if fd = fd' then _ else _) = _
  by_cases heq : fd = fd'
  · rw [if_pos heq, if_pos heq.symm, heq]
  · rw [if_neg heq, if_neg (Ne.symm heq)]

/-- A removal takes the one poll of a descriptor away, and posts no readiness. -/
theorem execute_remove (k : Kernel) (fd tag : ℕ) {pos : ℕ} (hpos : pos ≤ k.cq.length)
    (hone : Multiset.card (k.armed fd) ≤ 1) :
    Sets pos fd 0 k
      (k.execute { opcode := .POLL_REMOVE, fd := -1, addr := fd, userData := 0, tag := tag }) := by
  unfold Kernel.execute
  simp only []
  cases hfind : k.polls.find? (·.userData = fd) with
  | none =>
    simp only []
    refine ⟨fun fd' => ?_, fun fd' => ?_, ?_⟩
    · -- no poll of the descriptor is armed
      show k.armed fd' = _
      split
      · rename_i heq
        subst heq
        unfold Kernel.armed
        rw [Multiset.filter_eq_nil.mpr, Multiset.map_zero]
        intro p hp
        simpa using List.find?_eq_none.mp hfind p hp
      · rfl
    · rw [readied_append (by exact hpos)]
      simp [Cqe.readyInterest, Kernel.readied]
    · simp only [Kernel.post, List.length_append]
      omega
  | some p =>
    simp only []
    have hp : p.userData = fd := by simpa using List.find?_some hfind
    have hcons : (k.polls : Multiset ArmedPoll) = p ::ₘ (k.polls.erase p : Multiset ArmedPoll) :=
      Multiset.coe_eq_coe.mpr (List.perm_cons_erase (List.mem_of_find?_eq_some hfind))
    have hall := armed_of_cons { k with polls := k.polls.erase p } hcons
    refine ⟨fun fd' => ?_, fun fd' => ?_, ?_⟩
    · show ({ k with polls := k.polls.erase p } : Kernel).armed fd' = _
      split
      · rename_i heq
        subst heq
        rw [hall, if_pos hp, Multiset.card_cons] at hone
        exact Multiset.card_eq_zero.mp (by omega)
      · rename_i hne
        rw [hall, if_neg (by rw [hp]; exact Ne.symm hne)]
    · rw [readied_append (by simp only [Kernel.post, List.length_append]; omega),
        readied_append (by exact hpos)]
      simp [Cqe.readyInterest, Kernel.readied]
    · simp only [Kernel.post, List.length_append]
      omega

/-! ## Calls on an empty queue -/

/-- Nothing is queued for the kernel. -/
structure Idle (u : IoUringState) : Prop where
  wf : u.sq.Wf
  count : u.sq.count = 0

/-- The parts of the state that a submission keeps. -/
structure SameMasks (u u' : IoUringState) : Prop where
  pollMasks : u'.pollMasks = u.pollMasks
  pollMasksSize : u'.pollMasksSize = u.pollMasksSize
  cqHead : u'.cqHead = u.cqHead

theorem Idle.getSqe (h : Idle u) : ∃ v, u.ioUringGetSqe = some v ∧ Idle v ∧
    v = { u with sq := v.sq } := by
  have hfull : u.sq.full = false := by
    rw [Bool.eq_false_iff]
    intro hfull
    have hcount := (Ring.full_iff h.wf).mp hfull
    rw [h.count] at hcount
    have := Nat.two_pow_pos u.sq.bits
    omega
  have hget : u.ioUringGetSqe = some { u with sq := u.sq.write {} } := by
    unfold IoUringState.ioUringGetSqe
    rw [hfull]
    rfl
  obtain ⟨hwf, hqueued, -, heq⟩ := getSqe_queue h.wf hget
  refine ⟨_, hget, ⟨hwf, ?_⟩, heq⟩
  rw [← Ring.length_queued, hqueued, Ring.length_queued, h.count]

/-- The kernel executes the entry at once. -/
theorem Idle.submit (h : Idle u) (sqe : Sqe) :
    Idle (u.submit sqe true) ∧
      (u.submit sqe true).kernel = u.kernel.execute { sqe with tag := u.nextTag } ∧
      SameMasks u (u.submit sqe true) := by
  have hlt : u.sq.count < 2 ^ u.sq.bits := by
    rw [h.count]
    exact Nat.two_pow_pos _
  obtain ⟨hwf, done, hkernel, hqueue, hlen⟩ := submit_queue h.wf hlt sqe true
  have hnil : u.sq.queued = [] := by
    rw [← List.length_eq_zero_iff, Ring.length_queued, h.count]
  rw [hnil, List.nil_append] at hqueue
  have hempty : (u.submit sqe true).sq.queued = [] := by
    have hlen' := congrArg List.length hqueue
    rw [List.length_append, List.length_singleton, hlen, if_pos rfl] at hlen'
    exact List.length_eq_zero_iff.mp (by omega)
  rw [hempty, List.append_nil] at hqueue
  refine ⟨⟨hwf, ?_⟩, ?_, ⟨rfl, rfl, rfl⟩⟩
  · rw [← Ring.length_queued, hempty, List.length_nil]
  · rw [hkernel, hqueue]
    rfl

theorem Idle.addPoll (h : Idle u) (fd : ℕ) (events : BitVec 32) {pos : ℕ}
    (hpos : pos ≤ u.kernel.cq.length) :
    (u.ioUringAddPoll fd events true).1 = true ∧ Idle (u.ioUringAddPoll fd events true).2 ∧
      Sets pos fd (events ::ₘ u.kernel.armed fd) u.kernel
        (u.ioUringAddPoll fd events true).2.kernel ∧
      SameMasks u (u.ioUringAddPoll fd events true).2 := by
  obtain ⟨v, hget, hv, heq⟩ := h.getSqe
  obtain ⟨hidle, hkernel, hsame⟩ := hv.submit
    { opcode := .POLL_ADD, fd := fd, opFlags := events, userData := fd }
  have hvk : v.kernel = u.kernel := by rw [heq]
  have hvm : SameMasks u v := by rw [heq]; exact ⟨rfl, rfl, rfl⟩
  simp only [IoUringState.ioUringAddPoll, hget]
  refine ⟨trivial, ⟨hidle.wf, hidle.count⟩, ?_, ⟨hsame.pollMasks.trans hvm.pollMasks,
    hsame.pollMasksSize.trans hvm.pollMasksSize, hsame.cqHead.trans hvm.cqHead⟩⟩
  show Sets pos fd _ u.kernel (v.submit _ true).kernel
  rw [hkernel, hvk]
  exact execute_add _ _ _ _ hpos

theorem Idle.removePoll (h : Idle u) (fd : ℕ) {pos : ℕ} (hpos : pos ≤ u.kernel.cq.length)
    (hone : Multiset.card (u.kernel.armed fd) ≤ 1) :
    Idle (u.ioUringRemovePoll fd true) ∧
      Sets pos fd 0 u.kernel (u.ioUringRemovePoll fd true).kernel ∧
      SameMasks u (u.ioUringRemovePoll fd true) := by
  obtain ⟨v, hget, hv, heq⟩ := h.getSqe
  obtain ⟨hidle, hkernel, hsame⟩ := hv.submit
    { opcode := .POLL_REMOVE, fd := -1, addr := fd, userData := 0 }
  have hvk : v.kernel = u.kernel := by rw [heq]
  have hvm : SameMasks u v := by rw [heq]; exact ⟨rfl, rfl, rfl⟩
  simp only [IoUringState.ioUringRemovePoll, hget]
  refine ⟨hidle, ?_, ⟨hsame.pollMasks.trans hvm.pollMasks,
    hsame.pollMasksSize.trans hvm.pollMasksSize, hsame.cqHead.trans hvm.cqHead⟩⟩
  rw [hkernel, hvk]
  exact execute_remove _ _ _ hpos hone

/-! ## The count -/

/-- With `pos` completions consumed: what is remembered of a descriptor is its registration, a
registered one has one poll, of its mask, armed or completed by readiness, and one that is not
registered has none armed. -/
structure Counts (events : ℕ → LoopyFileEvent) (setSize : ℕ) (u : IoUringState) (pos : ℕ) :
    Prop where
  idle : Idle u
  size : u.pollMasksSize = setSize
  le_length : pos ≤ u.kernel.cq.length
  mask : ∀ fd, u.pollMask fd = ioUringPollEvents (events fd).mask
  one : ∀ fd, (events fd).mask ≠ .NONE →
    u.kernel.armed fd + u.kernel.readied pos fd = {ioUringPollEvents (events fd).mask}
  zero : ∀ fd, (events fd).mask = .NONE → u.kernel.armed fd = 0

theorem ioUringPollEvents_eq_zero (mask : LoopyAction) :
    ioUringPollEvents mask = 0 ↔ mask = .NONE := by
  obtain ⟨read, write⟩ := mask
  cases read <;> cases write <;> decide

namespace Counts

variable {events : ℕ → LoopyFileEvent} {setSize pos fd : ℕ} {u u' : IoUringState}

theorem card_armed (h : Counts events setSize u pos) (fd : ℕ) :
    Multiset.card (u.kernel.armed fd) ≤ 1 := by
  by_cases hmask : (events fd).mask = .NONE
  · rw [h.zero fd hmask]
    exact Nat.zero_le 1
  · have hcard := congrArg Multiset.card (h.one fd hmask)
    rw [Multiset.card_add, Multiset.card_singleton] at hcard
    omega

/-- The polls of one descriptor are set to those of its new mask. -/
theorem set (h : Counts events setSize u pos) {fe : LoopyFileEvent} {s : Multiset (BitVec 32)}
    (hidle : Idle u') (hsize : u'.pollMasksSize = u.pollMasksSize)
    (hmask : ∀ fd', u'.pollMask fd' =
      if fd' = fd then ioUringPollEvents fe.mask else u.pollMask fd')
    (hsets : Sets pos fd s u.kernel u'.kernel)
    (hone : fe.mask ≠ .NONE → s + u.kernel.readied pos fd = {ioUringPollEvents fe.mask})
    (hnone : fe.mask = .NONE → s = 0) :
    Counts (update events fd fe) setSize u' pos := by
  refine ⟨hidle, hsize.trans h.size, hsets.le_length, fun fd' => ?_, fun fd' => ?_, fun fd' => ?_⟩
  · rw [hmask]
    by_cases heq : fd' = fd
    · rw [if_pos heq, heq, update_self]
    · rw [if_neg heq, update_of_ne heq]
      exact h.mask fd'
  · rw [hsets.armed, hsets.readied]
    by_cases heq : fd' = fd
    · rw [if_pos heq, heq, update_self]
      exact hone
    · rw [if_neg heq, update_of_ne heq]
      exact h.one fd'
  · rw [hsets.armed]
    by_cases heq : fd' = fd
    · rw [if_pos heq, heq, update_self]
      exact hnone
    · rw [if_neg heq, update_of_ne heq]
      exact h.zero fd'

end Counts

theorem setPollMask_eq (hfd : fd < u.pollMasksSize) (events : BitVec 32) :
    u.setPollMask fd events = { u with pollMasks := update u.pollMasks fd events } :=
  if_pos hfd

theorem pollMask_setPollMask (hfd : fd < u.pollMasksSize) (events : BitVec 32) (fd' : ℕ) :
    (u.setPollMask fd events).pollMask fd' = if fd' = fd then events else u.pollMask fd' := by
  rw [setPollMask_eq hfd]
  unfold IoUringState.pollMask
  by_cases heq : fd' = fd
  · subst heq
    simp only [update_self, if_pos hfd, if_true]
  · simp only [update_of_ne heq, if_neg heq]

theorem SameMasks.pollMask {u' : IoUringState} (h : SameMasks u u') (fd : ℕ) :
    u'.pollMask fd = u.pollMask fd := by
  unfold IoUringState.pollMask
  rw [h.pollMasks, h.pollMasksSize]

theorem SameMasks.trans {v w : IoUringState} (h : SameMasks u v) (h' : SameMasks v w) :
    SameMasks u w :=
  ⟨h'.pollMasks.trans h.pollMasks, h'.pollMasksSize.trans h.pollMasksSize,
    h'.cqHead.trans h.cqHead⟩

namespace Counts

variable {events : ℕ → LoopyFileEvent} {setSize pos fd : ℕ} {u : IoUringState}

section

variable (h : Counts events setSize u pos)

include h

/-- The poll of the old mask is gone, and one of the new mask is added. -/
theorem replace (hfd : fd < setSize)
    (hready : u.kernel.readied pos fd = 0) {v : IoUringState} (hidle : Idle v)
    (hsets : Sets pos fd 0 u.kernel v.kernel) (hsame : SameMasks u v) {fe : LoopyFileEvent}
    (hfe : fe.mask ≠ .NONE) :
    Counts (update events fd fe) setSize
      ((v.ioUringAddPoll fd (ioUringPollEvents fe.mask) true).2.setPollMask fd
        (ioUringPollEvents fe.mask)) pos := by
  obtain ⟨-, hidle', hadd, hsame'⟩ :=
    hidle.addPoll fd (ioUringPollEvents fe.mask) hsets.le_length
  generalize (v.ioUringAddPoll fd (ioUringPollEvents fe.mask) true).2 = w at *
  have hone : Sets pos fd {ioUringPollEvents fe.mask} u.kernel w.kernel := by
    have harmed : v.kernel.armed fd = 0 := by rw [hsets.armed, if_pos rfl]
    rw [harmed] at hadd
    exact hsets.trans hadd
  have hmasks := hsame.trans hsame'
  have hlt : fd < w.pollMasksSize := by
    rw [hmasks.pollMasksSize, h.size]
    exact hfd
  refine h.set (s := {ioUringPollEvents fe.mask}) ?_ ?_ ?_ ?_ ?_ ?_
  · rw [setPollMask_eq hlt]
    exact ⟨hidle'.wf, hidle'.count⟩
  · rw [setPollMask_eq hlt]
    exact hmasks.pollMasksSize
  · intro fd'
    rw [pollMask_setPollMask hlt, hmasks.pollMask]
  · rw [setPollMask_eq hlt]
    exact hone
  · intro _
    rw [hready, add_zero]
  · intro hnone
    exact absurd hnone hfe

/-- The first half of a registration: the poll of the old mask goes, if there is one. -/
theorem removeOld (fd : ℕ) : ∃ v,
    (if u.pollMask fd ≠ 0 then u.ioUringRemovePoll fd true else u) = v ∧ Idle v ∧
      Sets pos fd 0 u.kernel v.kernel ∧ SameMasks u v := by
  by_cases hold : (events fd).mask = .NONE
  · have hzero : u.pollMask fd = 0 := by
      rw [h.mask, ioUringPollEvents_eq_zero]
      exact hold
    refine ⟨u, if_neg (not_not.mpr hzero), h.idle, ⟨fun fd' => ?_, fun _ => rfl, h.le_length⟩,
      ⟨rfl, rfl, rfl⟩⟩
    split
    · rename_i heq
      rw [heq, h.zero fd hold]
    · rfl
  · have hne : u.pollMask fd ≠ 0 := by
      rw [h.mask, ne_eq, ioUringPollEvents_eq_zero]
      exact hold
    exact ⟨_, if_pos hne, h.idle.removePoll fd h.le_length (h.card_armed fd)⟩

/-- A registration is never refused. -/
theorem addEvent_ok (fd : ℕ) (mask : LoopyAction) :
    (loopyInternalAddEvent ⟨true, true⟩ events u fd mask).1 = true := by
  obtain ⟨v, hv, hidle, hsets, -⟩ := h.removeOld fd
  obtain ⟨hok, -⟩ := hidle.addPoll fd (ioUringPollEvents (mask.union (events fd).mask))
    hsets.le_length
  unfold loopyInternalAddEvent
  simp only [hv, hok, Bool.not_true, Bool.false_eq_true, if_false]

/-- A registration of a descriptor without a queued readiness completion. -/
theorem addEvent (hfd : fd < setSize)
    (hready : u.kernel.readied pos fd = 0) {mask : LoopyAction} (hmask : mask ≠ .NONE)
    (cb clientData : ℕ) :
    Counts (update events fd ((events fd).register mask cb clientData)) setSize
      (loopyInternalAddEvent ⟨true, true⟩ events u fd mask).2 pos := by
  have hunion : mask.union (events fd).mask = ((events fd).register mask cb clientData).mask := by
    show _ = (events fd).mask.union mask
    unfold LoopyAction.union
    rw [Bool.or_comm, Bool.or_comm mask.write]
  have hne : ((events fd).register mask cb clientData).mask ≠ .NONE :=
    LoopyAction.union_ne_none hmask
  obtain ⟨v, hv, hidle, hsets, hsame⟩ := h.removeOld fd
  obtain ⟨hok, -⟩ := hidle.addPoll fd (ioUringPollEvents
    ((events fd).register mask cb clientData).mask) hsets.le_length
  unfold loopyInternalAddEvent
  simp only [hv, hunion, hok, Bool.not_true, Bool.false_eq_true, if_false]
  exact h.replace hfd hready hidle hsets hsame hne

/-- An unregistration that drops every direction, or finds no queued readiness completion. -/
theorem delEvent (hfd : fd < setSize) (delmask : LoopyAction)
    (hready : (events fd).mask.diff delmask ≠ .NONE → u.kernel.readied pos fd = 0) :
    Counts (update events fd { events fd with mask := (events fd).mask.diff delmask })
      setSize (loopyInternalDelEvent ⟨true, true⟩ events u fd delmask) pos := by
  obtain ⟨hidle, hsets, hsame⟩ := h.idle.removePoll fd h.le_length (h.card_armed fd)
  unfold loopyInternalDelEvent
  by_cases hleft : (events fd).mask.diff delmask = .NONE
  · have hlt : fd < (u.ioUringRemovePoll fd true).pollMasksSize := by
      rw [hsame.pollMasksSize, h.size]
      exact hfd
    simp only [hleft, ne_eq, not_true_eq_false, if_false]
    refine h.set (s := 0) ?_ ?_ ?_ ?_ ?_ ?_
    · rw [setPollMask_eq hlt]
      exact ⟨hidle.wf, hidle.count⟩
    · rw [setPollMask_eq hlt]
      exact hsame.pollMasksSize
    · intro fd'
      rw [pollMask_setPollMask hlt, hsame.pollMask]
      rfl
    · rw [setPollMask_eq hlt]
      exact hsets
    · intro hne
      exact absurd rfl hne
    · intro _
      rfl
  · simp only [hleft, ne_eq, not_false_eq_true, if_true]
    have hne : ({ events fd with mask := (events fd).mask.diff delmask } : LoopyFileEvent).mask ≠
        .NONE := hleft
    exact h.replace hfd (hready hleft) hidle hsets hsame hne

/-- An armed poll becomes ready. -/
theorem ready {i : ℕ} {p : ArmedPoll}
    (hp : u.kernel.polls[i]? = some p) (res : ℤ) :
    Counts events setSize
      (u.onKernel (·.firePoll i ⟨p.userData, res, 0, .ready p.events⟩)) pos := by
  obtain ⟨hi, hget⟩ := List.getElem?_eq_some_iff.mp hp
  have hcons : (u.kernel.polls : Multiset ArmedPoll) =
      p ::ₘ (u.kernel.polls.eraseIdx i : Multiset ArmedPoll) := by
    have hperm := List.getElem_cons_eraseIdx_perm hi
    rw [hget] at hperm
    exact (Multiset.coe_eq_coe.mpr hperm).symm
  have harmed := armed_of_cons { u.kernel with polls := u.kernel.polls.eraseIdx i } hcons
  have hreadied : ∀ fd, (u.kernel.firePoll i ⟨p.userData, res, 0, .ready p.events⟩).readied pos fd =
      u.kernel.readied pos fd + if p.userData = fd then {p.events} else 0 := by
    intro fd
    refine (readied_append (by exact h.le_length) _ fd).trans ?_
    show u.kernel.readied pos fd + _ = _
    unfold Cqe.readyInterest
    by_cases heq : p.userData = fd
    · simp [heq]
    · simp [heq]
  refine ⟨⟨h.idle.wf, h.idle.count⟩, h.size, ?_, h.mask, fun fd hmask => ?_, fun fd hmask => ?_⟩
  · show pos ≤ (u.kernel.cq ++ [_]).length
    rw [List.length_append]
    have := h.le_length
    omega
  · rw [← h.one fd hmask, harmed fd]
    show Kernel.armed { u.kernel with polls := u.kernel.polls.eraseIdx i } fd +
      (u.kernel.firePoll i ⟨p.userData, res, 0, .ready p.events⟩).readied pos fd = _
    rw [hreadied]
    by_cases heq : p.userData = fd
    · rw [if_pos heq, if_pos heq, Multiset.cons_add, add_comm (u.kernel.readied pos fd),
        Multiset.singleton_add, Multiset.add_cons]
    · rw [if_neg heq, if_neg heq, add_zero]
  · have hzero := h.zero fd hmask
    rw [harmed fd] at hzero
    show Kernel.armed { u.kernel with polls := u.kernel.polls.eraseIdx i } fd = 0
    by_cases heq : p.userData = fd
    · rw [if_pos heq] at hzero
      exact absurd hzero Multiset.cons_ne_zero
    · rw [if_neg heq] at hzero
      exact hzero

/-- A consumed completion that counted for nothing. -/
theorem skip (hcqe : u.kernel.cq[pos]? = some cqe)
    (hnot : ∀ fd, Cqe.readyInterest fd cqe = none) : Counts events setSize u (pos + 1) := by
  obtain ⟨hlt, -⟩ := List.getElem?_eq_some_iff.mp hcqe
  refine ⟨h.idle, h.size, hlt, h.mask, fun fd hmask => ?_, h.zero⟩
  have hone := h.one fd hmask
  rw [readied_step hcqe, hnot fd, Option.toList_none, Multiset.coe_nil, zero_add] at hone
  exact hone

/-- A consumed readiness completion, whose poll is armed again. -/
theorem rearm {interest : BitVec 32}
    (hcqe : u.kernel.cq[pos]? = some cqe) (ho : cqe.origin = .ready interest) :
    Counts events setSize (u.rearm cqe.userData true) (pos + 1) := by
  obtain ⟨hlt, -⟩ := List.getElem?_eq_some_iff.mp hcqe
  have hread : ∀ fd, Cqe.readyInterest fd cqe =
      if cqe.userData = fd then some interest else none := by
    intro fd
    simp only [Cqe.readyInterest, ho]
  -- behind the completion, what is left of its descriptor is armed nowhere
  have hother : ∀ fd, (events fd).mask ≠ .NONE → fd ≠ cqe.userData →
      u.kernel.armed fd + u.kernel.readied (pos + 1) fd =
        {ioUringPollEvents (events fd).mask} := by
    intro fd hmask hne
    have hone := h.one fd hmask
    rw [readied_step hcqe, hread, if_neg (Ne.symm hne), Option.toList_none, Multiset.coe_nil,
      zero_add] at hone
    exact hone
  unfold IoUringState.rearm
  by_cases hmask : (events cqe.userData).mask = .NONE
  · have hzero : u.pollMask cqe.userData = 0 := by
      rw [h.mask, ioUringPollEvents_eq_zero]
      exact hmask
    rw [if_neg (not_not.mpr hzero)]
    refine ⟨h.idle, h.size, hlt, h.mask, fun fd hfd => hother fd hfd ?_, h.zero⟩
    intro heq
    exact hfd (heq ▸ hmask)
  · have hne : u.pollMask cqe.userData ≠ 0 := by
      rw [h.mask, ne_eq, ioUringPollEvents_eq_zero]
      exact hmask
    have hself : u.kernel.armed cqe.userData = 0 ∧
        u.kernel.readied (pos + 1) cqe.userData = 0 := by
      have hcard := congrArg Multiset.card (h.one cqe.userData hmask)
      rw [readied_step hcqe, hread, if_pos rfl, Multiset.card_add, Multiset.card_add,
        Multiset.card_singleton] at hcard
      have hlen : Multiset.card ((some interest).toList : Multiset (BitVec 32)) = 1 := rfl
      rw [hlen] at hcard
      exact ⟨Multiset.card_eq_zero.mp (by omega), Multiset.card_eq_zero.mp (by omega)⟩
    rw [if_pos hne]
    obtain ⟨-, hidle, hadd, hsame⟩ := h.idle.addPoll cqe.userData (u.pollMask cqe.userData) hlt
    rw [hself.1] at hadd
    refine ⟨hidle, hsame.pollMasksSize.trans h.size, hadd.le_length, ?_, ?_, ?_⟩
    · intro fd
      rw [hsame.pollMask]
      exact h.mask fd
    · intro fd hfd
      rw [hadd.armed, hadd.readied]
      by_cases heq : fd = cqe.userData
      · rw [if_pos heq, heq, hself.2, add_zero, h.mask]
        rfl
      · rw [if_neg heq]
        exact hother fd hfd heq
    · intro fd hfd
      have hne : fd ≠ cqe.userData := by
        intro heq
        rw [heq] at hfd
        exact hmask hfd
      rw [hadd.armed, if_neg hne]
      exact h.zero fd hfd

/-- The kernel is entered with nothing queued. -/
theorem enter :
    Counts events setSize (u.ioUringEnter u.sq.count true) pos ∧
      (u.ioUringEnter u.sq.count true).cqHead = u.cqHead := by
  have hnil : u.sq.queued = [] := by
    rw [← List.length_eq_zero_iff, Ring.length_queued, h.idle.count]
  obtain ⟨hwf, hdrop⟩ := Ring.advance_spec h.idle.wf (le_refl u.sq.count)
  have hkernel : (u.ioUringEnter u.sq.count true).kernel = u.kernel := by
    show (u.sq.queued.take u.sq.count).foldl _ u.kernel = _
    rw [hnil, List.take_nil]
    rfl
  refine ⟨⟨⟨hwf, ?_⟩, h.size, ?_, h.mask, ?_, ?_⟩, rfl⟩
  · show (u.sq.advance u.sq.count).count = 0
    rw [← Ring.length_queued, hdrop, hnil, List.drop_nil, List.length_nil]
  · rw [hkernel]; exact h.le_length
  · rw [hkernel]; exact h.one
  · rw [hkernel]; exact h.zero

/-- The published head does not count. -/
theorem publish (head : ℕ) : Counts events setSize { u with cqHead := head } pos :=
  ⟨⟨h.idle.wf, h.idle.count⟩, h.size, h.le_length, h.mask, h.one, h.zero⟩

/-- The table grows. -/
theorem resize {n : ℕ} (hn : setSize < n) :
    Counts events n (loopyInternalResize u n) pos ∧
      (loopyInternalResize u n).cqHead = u.cqHead ∧
      (loopyInternalResize u n).kernel = u.kernel := by
  unfold loopyInternalResize
  rw [if_pos (by rw [h.size]; exact hn)]
  refine ⟨⟨⟨h.idle.wf, h.idle.count⟩, rfl, h.le_length, fun fd => ?_, h.one, h.zero⟩, rfl, rfl⟩
  rw [← h.mask fd]
  unfold IoUringState.pollMask
  simp only [h.size]
  by_cases hfd : fd < setSize
  · rw [if_pos hfd, if_pos (hfd.trans hn), if_neg (by omega)]
  · rw [if_neg hfd]
    split
    · rw [if_pos (by omega)]
    · rfl

end

theorem init {bits : ℕ} (hbits : bits ≤ 31) (ops n : ℕ) :
    Counts (fun _ => .zero) n (ioUringInit bits ops n) 0 where
  idle := ⟨ring_init_wf hbits ops n, count_init bits ops n⟩
  size := rfl
  le_length := Nat.zero_le _
  mask := fun fd => by
    unfold IoUringState.pollMask
    split <;> rfl
  one := fun _ hmask => absurd rfl hmask
  zero := fun _ _ => rfl

end Counts

/-! ## The machine -/

/-- The number of completions consumed so far. -/
def Machine.pos (m : Machine) (u : IoUringState) : ℕ :=
  match m.frames with
  | .poll p :: _ => p.head
  | _ => u.cqHead

/-- Registrations, readiness and polls, with every `io_uring_enter` succeeding. -/
def AllEnter (_ : Machine) : Input → Prop
  | .call (.table _ env) => env.sys = ⟨true, true⟩
  | .poll .ok | .go true | .ready _ _ => True
  | _ => False

/-- The descriptor a table call arms a poll for. -/
def TableCall.arms (l : LoopyLoop IoUringState) (c : TableCall) : Option ℤ :=
  match c.registration, c.unregistration with
  | some r, _ => if c.exclusive ∧ (l.events r.fd.toNat).mask.write then none else some r.fd
  | none, some (fd, mask) => if (l.events fd.toNat).mask.diff mask = .NONE then none else some fd
  | none, none => none

/-- A call arms a poll only for a descriptor without a queued readiness completion, and the
completion loop reads the completion of a removed poll only for a descriptor that is not
registered any more. -/
def Settled (m : Machine) : Input → Prop
  | .call (.table c _) => ∀ u ∈ m.loop.state, ∀ fd ∈ TableCall.arms m.loop c,
      u.kernel.readied (m.pos u) fd.toNat = 0
  | .go _ => ∀ u ∈ m.loop.state, ∀ cqe ∈ m.nextCqe, cqe.res = -ECANCELED →
      u.pollMask cqe.userData = 0
  | _ => True

/-- Between operations, every registered descriptor has exactly one poll, of its mask, armed or
completed by readiness and not consumed, and no poll is armed for any other. -/
def OnePoll (m : Machine) : Prop :=
  m.frames = [] → ∃ u, m.loop.state = some u ∧ ∀ fd,
    ((m.loop.events fd).mask ≠ .NONE → u.kernel.armed fd + u.kernel.readied u.cqHead fd =
      {ioUringPollEvents (m.loop.events fd).mask}) ∧
    ((m.loop.events fd).mask = .NONE → u.kernel.armed fd = 0)

/-- The invariant: the ring is in order, the completion loop runs at most once, and the polls
are counted. -/
structure CountInv (m : Machine) : Prop where
  ring : RingInv m
  frames : m.frames = [] ∨ ∃ p, m.frames = [.poll p] ∧ p.pc = .loop
  counts : ∃ u, m.loop.state = some u ∧ Counts m.loop.events m.loop.setSize u (m.pos u)

theorem CountInv.onePoll (h : CountInv m) : OnePoll m := by
  intro hframes
  obtain ⟨u, hs, hu⟩ := h.counts
  have hpos : m.pos u = u.cqHead := by rw [Machine.pos, hframes]
  rw [hpos] at hu
  exact ⟨u, hs, fun fd => ⟨hu.one fd, hu.zero fd⟩⟩

/-- User code runs between operations only. -/
theorem CountInv.idle (h : CountInv m) (hu : m.userRuns = true ∨ ∃ p gs, m.frames = .pool p :: gs) :
    m.frames = [] := by
  rcases h.frames with hframes | ⟨p, hframes, -⟩
  · exact hframes
  · rcases hu with hu | ⟨q, gs, hpool⟩
    · rw [Machine.userRuns, hframes] at hu
      cases hu
    · rw [hframes] at hpool
      cases hpool

variable {fs : List Frame} {es : List Event} {bits : ℕ} {i : Input}

/-- The completion loop is the only activation. -/
theorem CountInv.poll (h : CountInv m) (u : IoUringState) {p : Poll}
    (hf : m.frames = .poll p :: fs) : fs = [] ∧ p.pc = .loop ∧ m.pos u = p.head := by
  have hpos : m.pos u = p.head := by rw [Machine.pos, hf]
  rcases h.frames with hnil | ⟨q, hq, hpc⟩
  · rw [hf] at hnil
    cases hnil
  · rw [hf] at hq
    cases hq
    exact ⟨rfl, hpc, hpos⟩

/-- No pool function runs. -/
theorem CountInv.not_pool (h : CountInv m) {p : PoolCall} : m.frames ≠ .pool p :: fs := by
  intro hf
  rcases h.frames with hnil | ⟨q, hq, -⟩
  · rw [hf] at hnil
    cases hnil
  · rw [hf] at hq
    cases hq

/-- What a readiness completion carries is reported. -/
theorem ready_fires (h : cqe.Proper es) {interest : BitVec 32} (ho : cqe.origin = .ready interest) :
    cqe.Fires := by
  have horigin := h.2
  simp only [ho] at horigin
  obtain ⟨mask, events, hint, hne, hsub, hres, -⟩ := horigin
  rw [hint] at hsub
  have hle : events.toNat ≤ 29 := by
    have hbound : (ioUringPollEvents mask ||| EPOLLERR ||| EPOLLHUP).toNat ≤ 29 := by
      obtain ⟨read, write⟩ := mask
      cases read <;> cases write <;> decide
    rw [← hsub, BitVec.toNat_and]
    exact Nat.and_le_right.trans hbound
  refine ⟨Or.inl ?_, ?_⟩
  · rw [hres, BitVec.toInt_eq_toNat_of_lt (by omega)]
    omega
  · rw [hres, BitVec.ofInt_toInt]
    intro hnone
    cases hin : hasBit events EPOLLIN with
    | true =>
      have hread := firedMask_read events
      rw [hnone, hin] at hread
      cases hread
    | false =>
      have hwrite := write_of_reported hsub hne hin
      rw [hnone] at hwrite
      cases hwrite

/-- A reported completion is read, and the poll of its descriptor re-armed. -/
theorem Counts.fired {events : ℕ → LoopyFileEvent} {setSize : ℕ} {pos : ℕ}
    (h : Counts events setSize u pos) (hcqe : u.kernel.cq[pos]? = some cqe)
    (hproper : cqe.Proper es) (hfires : cqe.Fires)
    (hsettled : cqe.res = -ECANCELED → u.pollMask cqe.userData = 0) :
    Counts events setSize (u.rearm cqe.userData true) (pos + 1) := by
  cases ho : cqe.origin with
  | ready interest => exact h.rearm hcqe ho
  | _ =>
    -- what fires without being ready was canceled, and its descriptor is not re-armed
    have hcanceled : cqe.res = -ECANCELED := by
      by_contra hne
      obtain ⟨interest, -, hready, -⟩ := hproper.genuine hfires hne rfl
      rw [ho] at hready
      cases hready
    unfold IoUringState.rearm
    rw [if_neg (not_not.mpr (hsettled hcanceled))]
    apply h.skip hcqe
    intro fd
    simp only [Cqe.readyInterest, ho]

/-- What a table call does between operations. -/
theorem Counts.effect {l l' : LoopyLoop IoUringState} (ht : TableInv l) (hs : l.state = some u)
    (h : Counts l.events l.setSize u u.cqHead) {ops : ℕ} {env : Env EnterOks} {c : TableCall}
    {b : Bool} (henv : env.sys = ⟨true, true⟩)
    (hsettled : ∀ fd ∈ TableCall.arms l c, u.kernel.readied u.cqHead fd.toNat = 0)
    (he : TableEffect (ioUringAdapter bits ops) env l c b l') :
    ∃ u', l'.state = some u' ∧ Counts l'.events l'.setSize u' u.cqHead := by
  have hgrown : ∀ l₁, Grown (ioUringAdapter bits ops) env.addr l l₁ → l₁.events = l.events ∧
      ∃ u₁, l₁.state = some u₁ ∧ Counts l₁.events l₁.setSize u₁ u.cqHead ∧
        u₁.kernel = u.kernel := by
    rintro l₁ (rfl | ⟨n, hn, -, rfl⟩)
    · exact ⟨rfl, u, hs, h, rfl⟩
    · obtain ⟨hcounts, -, hkernel⟩ := h.resize hn
      rw [ht.growTo_eq]
      refine ⟨rfl, loopyInternalResize u n, ?_, hcounts, hkernel⟩
      simp only [hs, Option.map_some]
      rfl
  cases he with
  | @register _ r l₁ s i hc hr hg hsame hi hs₁ hfree hok =>
    obtain ⟨hev, u₁, hu₁, h₁, hkernel⟩ := hgrown _ hg
    obtain rfl := Option.some.inj (hs₁.symm.trans hu₁)
    have harms : TableCall.arms l c = some r.fd := by
      unfold TableCall.arms
      rw [hc]
      refine if_neg fun hex => ?_
      have hwrite := hfree hex.1
      rw [hev] at hwrite
      rw [hr, Int.toNat_natCast, hwrite] at hex
      exact absurd hex.2 Bool.false_ne_true
    have hready := hsettled _ harms
    rw [hr, Int.toNat_natCast, ← hkernel] at hready
    have hcounts := h₁.addEvent hi hready (TableCall.registration_mask hc) r.cb r.clientData
    rw [henv]
    exact ⟨_, rfl, hcounts⟩
  | @refuse _ r l₁ s i hc hr hg hi hs₁ hok =>
    obtain ⟨hev, u₁, hu₁, h₁, hkernel⟩ := hgrown _ hg
    obtain rfl := Option.some.inj (hs₁.symm.trans hu₁)
    rw [henv] at hok
    have hfalse : true = false := (h₁.addEvent_ok i r.mask).symm.trans hok
    cases hfalse
  | taken hc hg =>
    obtain ⟨-, u₁, hu₁, h₁, -⟩ := hgrown _ hg
    exact ⟨u₁, hu₁, h₁⟩
  | @unregister _ s i mask hc hi hmask hs₁ =>
    obtain rfl := Option.some.inj (hs.symm.trans hs₁)
    have hready : (l.events i).mask.diff mask ≠ .NONE → u.kernel.readied u.cqHead i = 0 := by
      intro hleft
      have harms : TableCall.arms l c = some (i : ℤ) := by
        unfold TableCall.arms
        have hnone : c.registration = none := by
          cases c <;> first | rfl | cases hc
        rw [hnone, hc]
        simp only [Int.toNat_natCast, if_neg hleft]
      have := hsettled _ harms
      rw [Int.toNat_natCast] at this
      exact this
    have hcounts := h.delEvent hi mask hready
    refine ⟨_, unregistered_state _ _ _ _, ?_⟩
    rw [unregistered_events, unregistered_frame, henv]
    exact hcounts
  | absent => exact ⟨u, hs, h⟩
  | resize hg =>
    obtain ⟨-, u₁, hu₁, h₁, -⟩ := hgrown _ hg
    exact ⟨u₁, hu₁, h₁⟩

theorem AllEnter.pollInput (h : AllEnter m i) : PollInput m i := by
  cases i with
  | call c => cases c <;> first | exact trivial | exact h.elim
  | _ => first | exact trivial | exact h.elim

/-- Every step of the domain that keeps to the condition keeps the count. -/
theorem CountInv.step {m' : Machine} (h : CountInv m) (hin : AllEnter m i) (hok : Settled m i)
    (hstep : m.step i = some m') : CountInv m' := by
  have hring := h.ring.step hin.pollInput hstep
  obtain ⟨u, hs, ht⟩ := Machine.step_inv hstep
  obtain ⟨u', hs', hu⟩ := h.counts
  obtain rfl := Option.some.inj (hs.symm.trans hs')
  have hidle : ∀ {fs : List Frame}, m.frames = [] → Machine.PollStack m.frames fs → fs = [] := by
    intro fs hnil hfs
    rw [hnil] at hfs
    cases hfs
    rfl
  cases ht with
  | ready hp hne hsub =>
    exact ⟨hring, h.frames, _, rfl, hu.ready hp _⟩
  | failed => exact hin.elim
  | complete => exact hin.elim
  | @table c env b l' hrun he =>
    have hnil := h.idle (Or.inl hrun)
    have hpos : m.pos u = u.cqHead := by rw [Machine.pos, hnil]
    rw [hpos] at hu
    have hsettled : ∀ fd ∈ TableCall.arms m.loop c, u.kernel.readied u.cqHead fd.toNat = 0 := by
      intro fd hfd
      rw [← hpos]
      exact hok u hs fd hfd
    obtain ⟨u', hs', hcounts⟩ := hu.effect h.ring.table hs hin hsettled he
    refine ⟨hring, Or.inl hnil, u', hs', ?_⟩
    have hpos' : Machine.pos { m with loop := l' } u' = u.cqHead := by
      obtain ⟨u'', hs'', hspares⟩ := tableEffect_spares hs he
      obtain rfl := Option.some.inj (hs'.symm.trans hs'')
      rw [Machine.pos, hnil]
      exact hspares.cqHead
    rw [hpos']
    exact hcounts
  | submit => exact hin.elim
  | addPoll => exact hin.elim
  | removePoll => exact hin.elim
  | poolRefused => exact hin.elim
  | @pool create => cases create <;> exact hin.elim
  | ret => exact hin.elim
  | @pollOk fs hrun hfs =>
    have hnil := h.idle hrun
    obtain rfl := hidle hnil hfs
    have hpos : m.pos u = u.cqHead := by rw [Machine.pos, hnil]
    rw [hpos] at hu
    exact ⟨hring, Or.inr ⟨_, rfl, rfl⟩, _, rfl, hu.enter.1⟩
  | pollSoft => exact hin.elim
  | pollHard => exact hin.elim
  | ignored hr hfile => exact ((h.ring.nextCqe_proper (hr.nextCqe hs)).not_fileOp hfile).elim
  | called hr hfile => exact ((h.ring.nextCqe_proper (hr.nextCqe hs)).not_fileOp hfile).elim
  | silent hr hfile => exact ((h.ring.nextCqe_proper (hr.nextCqe hs)).not_fileOp hfile).elim
  | @fired p cqe fs ok ev hr hfile hfires hev =>
    obtain ⟨rfl, hpc, hpos⟩ := h.poll u hr.frames
    rw [hpos] at hu
    cases ok with
    | false => exact hin.elim
    | true =>
      exact ⟨hring, Or.inr ⟨_, rfl, hpc⟩, _, rfl, hu.fired hr.cqe
        (h.ring.nextCqe_proper (hr.nextCqe hs)) hfires (hok u hs cqe (hr.nextCqe hs))⟩
  | @skipped p cqe fs ok hr hfile hfires =>
    obtain ⟨rfl, hpc, hpos⟩ := h.poll u hr.frames
    rw [hpos] at hu
    have hproper := h.ring.nextCqe_proper (hr.nextCqe hs)
    refine ⟨hring, Or.inr ⟨_, rfl, hpc⟩, u, hs, hu.skip hr.cqe ?_⟩
    intro fd
    cases ho : cqe.origin with
    | ready interest => exact absurd (ready_fires hproper ho) hfires
    | _ => simp only [Cqe.readyInterest, ho]
  | @published p fs ok hf hpc hend =>
    obtain ⟨rfl, -, hpos⟩ := h.poll u hf
    rw [hpos] at hu
    exact ⟨hring, Or.inl rfl, _, rfl, hu.publish p.head⟩
  | returned hf hpc =>
    obtain ⟨-, hloop, -⟩ := h.poll u hf
    rw [hpc] at hloop
    cases hloop
  | poolDone hf => exact (h.not_pool hf).elim
  | poolFailed hf => exact (h.not_pool hf).elim

theorem CountInv.start (hbits : bits ≤ 31) {n : ℕ} (hn : 1 ≤ n) (hn31 : n < 2 ^ 31) (ops addr : ℕ) :
    CountInv (.start bits ops n addr) :=
  ⟨.start hbits hn hn31 ops addr, Or.inl rfl, _, rfl, .init hbits ops n⟩

instance (m : Machine) : (i : Input) → Decidable (AllEnter m i)
  | .call (.table _ env) => inferInstanceAs (Decidable (env.sys = ⟨true, true⟩))
  | .poll .ok | .go true | .ready _ _ => isTrue trivial
  | .poll .soft | .poll .hard | .go false | .failed _ _ | .call (.submit _ _ _)
  | .call (.addPoll _ _ _) | .call (.removePoll _ _) | .call (.poolNew _ _ _ _)
  | .call (.poolFree _ _ _ _) | .ret | .complete _ _ _ => isFalse id

instance (m : Machine) : (i : Input) → Decidable (Settled m i)
  | .call (.table c _) => inferInstanceAs (Decidable (∀ u ∈ m.loop.state,
      ∀ fd ∈ TableCall.arms m.loop c, u.kernel.readied (m.pos u) fd.toNat = 0))
  | .go _ => inferInstanceAs (Decidable (∀ u ∈ m.loop.state, ∀ cqe ∈ m.nextCqe,
      cqe.res = -ECANCELED → u.pollMask cqe.userData = 0))
  | .poll _ | .ready _ _ | .failed _ _ | .call (.submit _ _ _) | .call (.addPoll _ _ _)
  | .call (.removePoll _ _) | .call (.poolNew _ _ _ _) | .call (.poolFree _ _ _ _) | .ret
  | .complete _ _ _ => isTrue trivial

/-- **One poll per descriptor.** For every ring and table size and every run of registrations,
readiness and polls in which no call arms a poll for a descriptor with a queued readiness
completion and no completion of a removed poll is read for a registered descriptor, between
operations every registered descriptor has exactly one poll armed or completed and not
consumed, of the interest of its mask, and no other descriptor has one armed. -/
theorem one_poll_per_descriptor (bits : ℕ) (hbits : bits ≤ 31) (n : ℕ) (hn : 1 ≤ n)
    (hn31 : n < 2 ^ 31) (ops addr : ℕ) (is : List Input) (m : Machine)
    (hrun : Run Machine.step (fun m i => AllEnter m i ∧ Settled m i) (.start bits ops n addr) is m) :
    OnePoll m := by
  have hinv : CountInv m := by
    refine hrun.invariant (P := CountInv) ?_ (.start hbits hn hn31 ops addr)
    intro m i m' h hok hstep
    exact h.step hok.1 hok.2 hstep
  exact hinv.onePoll

/-- Descriptor 3 is registered for reading, becomes readable, is reported and armed again;
then it is registered for writing as well, and unregistered before the next poll. -/
def rearmedRun : List Input :=
  [.call (.table (.registerRead 3 7 8) ⟨1, ⟨true, true⟩⟩), .ready 0 EPOLLIN, .poll .ok, .go true,
    .go true, .call (.table (.registerWrite 3 7 8) ⟨1, ⟨true, true⟩⟩),
    .call (.table (.unregisterReadWrite 3) ⟨1, ⟨true, true⟩⟩), .poll .ok, .go true, .go true,
    .go true, .go true, .go true, .call (.table (.registerWrite 3 7 8) ⟨1, ⟨true, true⟩⟩)]

theorem one_poll_per_descriptor_rearmed :
    ∃ m, Run Machine.step (fun m i => AllEnter m i ∧ Settled m i) (.start 3 100 16 1)
        rearmedRun m ∧
      (∃ u, m.loop.state = some u ∧ u.kernel.polls = [⟨3, EPOLLOUT⟩] ∧ u.cqHead = 5) ∧
      m.frames = [] ∧ OnePoll m := by
  have hexec : (exec Machine.step (fun m i => AllEnter m i ∧ Settled m i) (.start 3 100 16 1)
      rearmedRun).map (fun m =>
        (m.loop.state.map fun u => (u.kernel.polls, u.cqHead), m.frames)) =
      some (some ([⟨3, EPOLLOUT⟩], 5), []) := by decide +kernel
  obtain ⟨m, hrun, hstate⟩ := Run.of_exec_map hexec
  obtain ⟨hu, hframes⟩ := Prod.mk.inj hstate
  obtain ⟨u, hs, hrec⟩ := Option.map_eq_some_iff.mp hu
  obtain ⟨hpolls, hhead⟩ := Prod.mk.inj hrec
  exact ⟨m, hrun, ⟨u, hs, hpolls, hhead⟩, hframes,
    one_poll_per_descriptor 3 (by decide) 16 (by decide) (by decide) 100 1 _ _ hrun⟩

/-- Descriptor 3 is registered for reading, then for writing, and polled once. -/
def doubledRun : List Input :=
  [.call (.table (.registerRead 3 7 8) ⟨1, ⟨true, true⟩⟩),
    .call (.table (.registerWrite 3 7 8) ⟨1, ⟨true, true⟩⟩), .poll .ok, .go true, .go true,
    .go true]

/-- The completion of the removed poll makes the completion loop arm a second one. -/
theorem poll_doubled :
    ¬ ∀ is m, Run Machine.step AllEnter (.start 3 100 16 1) is m → OnePoll m := by
  intro hall
  have hexec : (exec Machine.step AllEnter (.start 3 100 16 1) doubledRun).map
      (fun m => (m.loop.state.map fun u => Multiset.card (u.kernel.armed 3 +
        u.kernel.readied u.cqHead 3), m.frames, (m.loop.events 3).mask)) =
      some (some 2, [], .ALL) := by decide +kernel
  obtain ⟨m, hm, hstate⟩ := Run.of_exec_map hexec
  obtain ⟨hu, hrest⟩ := Prod.mk.inj hstate
  obtain ⟨hframes, hmask⟩ := Prod.mk.inj hrest
  obtain ⟨u, hs, hcard⟩ := Option.map_eq_some_iff.mp hu
  obtain ⟨u', hs', hone⟩ := hall _ _ hm hframes
  obtain rfl := Option.some.inj (hs.symm.trans hs')
  have hne : (m.loop.events 3).mask ≠ .NONE := by
    rw [hmask]
    decide
  rw [(hone 3).1 hne, Multiset.card_singleton] at hcard
  cases hcard

end Loopy.IoUring
