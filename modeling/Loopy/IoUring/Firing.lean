import Loopy.IoUring.Submission
import Loopy.Epoll.Poll

/-!
# What the completion loop reports

A completion of a poll carries readiness bits, `-ECANCELED` or another error in one signed
field, and the completion loop reports the bits of the first two. Those of `-ECANCELED`
contain `POLLIN`, so a removed poll is reported as readable. Where no such completion is read
(`NoCanceled`), every reported entry comes from a readiness completion of its descriptor.
The dispatch loop calls a read callback only for an entry with `LOOPY_ACTION_READ`
(`Turn.Fair`).
-/

namespace Loopy.IoUring

open Loopy.EventLoop Loopy.Lib Loopy.Epoll
open Function (update update_of_ne update_self)

/-! ## The queue as a whole -/

variable {u : IoUringState} {es es' : List Event} {cqe : Cqe} {k : Kernel} {m : Machine}

/-- What a submission does: the entry goes behind the queued ones, and the kernel executes as
many as it takes from the front. -/
theorem submit_queue (hwf : u.sq.Wf) (hlt : u.sq.count < 2 ^ u.sq.bits) (sqe : Sqe) (ok : Bool) :
    (u.submit sqe ok).sq.Wf ∧ ∃ done,
      (u.submit sqe ok).kernel = done.foldl Kernel.execute u.kernel ∧
      done ++ (u.submit sqe ok).sq.queued = u.sq.queued ++ [{ sqe with tag := u.nextTag }] ∧
      done.length = if ok then 1 else 0 := by
  obtain ⟨hpub, hqueued⟩ := Ring.publish_spec hwf hlt { sqe with tag := u.nextTag }
  cases ok with
  | false => exact ⟨hpub, [], rfl, hqueued, rfl⟩
  | true =>
    have hone : 1 ≤ (u.sq.write { sqe with tag := u.nextTag }).publish.count := by
      rw [← Ring.length_queued, hqueued, List.length_append]
      exact Nat.le_add_left _ _
    obtain ⟨hwf', hdrop⟩ := Ring.advance_spec hpub hone
    refine ⟨hwf', (u.sq.write { sqe with tag := u.nextTag }).publish.queued.take 1, rfl, ?_, ?_⟩
    · show _ ++ ((u.sq.write { sqe with tag := u.nextTag }).publish.advance 1).queued = _
      rw [hdrop, List.take_append_drop, hqueued]
    · rw [List.length_take, Ring.length_queued, if_pos rfl]
      omega

/-- The entry `ioUringGetSqe` hands out is behind the queued ones. -/
theorem getSqe_queue {v : IoUringState} (hwf : u.sq.Wf) (hget : u.ioUringGetSqe = some v) :
    v.sq.Wf ∧ v.sq.queued = u.sq.queued ∧ v.sq.count < 2 ^ v.sq.bits ∧
      v = { u with sq := v.sq } := by
  obtain ⟨hfull, rfl⟩ := IoUringState.ioUringGetSqe_inv hget
  have hlt : u.sq.count < 2 ^ u.sq.bits := by
    have hne : u.sq.count ≠ 2 ^ u.sq.bits := by
      intro heq
      rw [(Ring.full_iff hwf).mpr heq] at hfull
      cases hfull
    have := hwf.count_le
    omega
  obtain ⟨hwf', hqueued⟩ := Ring.write_spec hwf hlt {}
  exact ⟨hwf', hqueued, hlt, rfl⟩

/-! ## Well-formed entries and completions -/

/-- A poll is asked for with the events of a mask, under a descriptor's number. -/
def Sqe.Proper (sqe : Sqe) : Prop :=
  match sqe.opcode with
  | .POLL_ADD => sqe.userData < fileBit ∧ ∃ mask, sqe.opFlags = ioUringPollEvents mask
  | .POLL_REMOVE => sqe.addr < fileBit ∧ sqe.userData = 0
  | _ => False

/-- An armed poll is one that was asked for so. -/
def ArmedPoll.Proper (p : ArmedPoll) : Prop :=
  p.userData < fileBit ∧ ∃ mask, p.events = ioUringPollEvents mask

/-- A completion carries what its origin says; `es` is what has happened so far. -/
def Cqe.Proper (es : List Event) (cqe : Cqe) : Prop :=
  cqe.userData < fileBit ∧
  match cqe.origin with
  | .ready interest => ∃ mask events, interest = ioUringPollEvents mask ∧ events ≠ 0#32 ∧
      events &&& (interest ||| EPOLLERR ||| EPOLLHUP) = events ∧ cqe.res = events.toInt ∧
      .ready cqe.userData events ∈ es
  | .canceled => cqe.res = -ECANCELED
  | .failed => cqe.res < 0 ∧ cqe.res ≠ -ECANCELED
  | .removal => cqe.userData = 0 ∧ (cqe.res = 0 ∨ cqe.res = -ENOENT)
  | .operation => False

/-- A proper completion is of no file operation. -/
theorem Cqe.Proper.not_fileOp (h : cqe.Proper es) : ¬ isFileOp cqe.userData = true := by
  intro hfile
  have hge : fileBit ≤ cqe.userData := by simpa [isFileOp] using hfile
  exact absurd h.1 (not_lt.mpr hge)

/-- A completion stays proper when more has happened. -/
theorem Cqe.Proper.mono (hes : es ⊆ es') (h : cqe.Proper es) : cqe.Proper es' := by
  refine ⟨h.1, ?_⟩
  have horigin := h.2
  cases ho : cqe.origin with
  | ready interest =>
    simp only [ho] at horigin ⊢
    obtain ⟨mask, events, hint, hne, hsub, hres, hseen⟩ := horigin
    exact ⟨mask, events, hint, hne, hsub, hres, hes hseen⟩
  | operation => simp only [ho] at horigin
  | _ => simpa only [ho] using horigin

/-- The kernel holds proper polls and completions only. -/
structure Kernel.Proper (es : List Event) (k : Kernel) : Prop where
  polls : ∀ p ∈ k.polls, p.Proper
  cq : ∀ cqe ∈ k.cq, cqe.Proper es

/-- So does the kernel. -/
theorem Kernel.Proper.mono (hes : es ⊆ es') (h : k.Proper es) :
    k.Proper es' := ⟨h.polls, fun cqe hin => (h.cq cqe hin).mono hes⟩

/-- The kernel may post a proper completion. -/
theorem Kernel.Proper.post (h : k.Proper es) (hc : cqe.Proper es) : (k.post cqe).Proper es := by
  refine ⟨h.polls, fun c hin => ?_⟩
  rcases List.mem_append.mp hin with hin | hin
  · exact h.cq c hin
  · rw [List.mem_singleton.mp hin]
    exact hc

/-- It may lose polls. -/
theorem Kernel.Proper.fewer (h : k.Proper es) (polls : List ArmedPoll)
    (hsub : ∀ p ∈ polls, p ∈ k.polls) : ({ k with polls := polls } : Kernel).Proper es :=
  ⟨fun p hp => h.polls p (hsub p hp), h.cq⟩

theorem fileBit_pos : 0 < fileBit := by unfold fileBit; omega

/-- Executing a proper entry posts proper completions only. -/
theorem Kernel.Proper.execute (h : k.Proper es) {sqe : Sqe} (hs : sqe.Proper) :
    (k.execute sqe).Proper es := by
  have hbase : ({ k with consumed := k.consumed ++ [sqe.tag] } : Kernel).Proper es :=
    ⟨h.polls, h.cq⟩
  unfold Sqe.Proper at hs
  unfold Kernel.execute
  cases hop : sqe.opcode with
  | POLL_ADD =>
    simp only [hop] at hs ⊢
    refine ⟨fun p hp => ?_, h.cq⟩
    rcases List.mem_append.mp hp with hp | hp
    · exact h.polls p hp
    · rw [List.mem_singleton.mp hp]
      exact hs
  | POLL_REMOVE =>
    simp only [hop] at hs ⊢
    have hack : sqe.userData < fileBit := by
      rw [hs.2]
      exact fileBit_pos
    cases hfind : k.polls.find? (·.userData = sqe.addr) with
    | none => exact hbase.post ⟨hack, hs.2, Or.inr rfl⟩
    | some p =>
      have hfewer := hbase.fewer (k.polls.erase p) fun q hq => List.mem_of_mem_erase hq
      exact (hfewer.post ⟨hs.1, rfl⟩).post ⟨hack, hs.2, Or.inl rfl⟩
  | _ => simp only [hop] at hs

/-- So does executing any number of them. -/
theorem Kernel.Proper.executes (h : k.Proper es) {sqes : List Sqe} (hs : ∀ sqe ∈ sqes, sqe.Proper) :
    (sqes.foldl Kernel.execute k).Proper es := by
  induction sqes generalizing k with
  | nil => exact h
  | cons sqe sqes ih =>
    exact ih (h.execute (hs sqe List.mem_cons_self)) fun s hin => hs s (List.mem_cons_of_mem _ hin)

/-! ## The backend -/

/-- Everything queued, armed, posted and remembered is of a poll of a descriptor. -/
structure PollsOnly (es : List Event) (u : IoUringState) : Prop where
  wf : u.sq.Wf
  queued : ∀ sqe ∈ u.sq.queued, sqe.Proper
  kernel : u.kernel.Proper es
  masks : ∀ fd, ∃ mask, u.pollMasks fd = ioUringPollEvents mask

namespace PollsOnly

variable {es : List Event} {u : IoUringState}

/-- What holds of the events so far holds after more of them. -/
theorem mono (h : PollsOnly es u) (hes : es ⊆ es') : PollsOnly es' u :=
  ⟨h.wf, h.queued, h.kernel.mono hes, h.masks⟩

variable {bits : ℕ}

/-- A new ring has no poll. -/
theorem init (hbits : bits ≤ 31) (ops n : ℕ) :
    PollsOnly [] (ioUringInit bits ops n) where
  wf := ring_init_wf hbits ops n
  queued := by rw [queued_init]; exact fun _ hs => absurd hs List.not_mem_nil
  kernel := ⟨fun _ hp => absurd hp List.not_mem_nil, fun _ hc => absurd hc List.not_mem_nil⟩
  masks := fun _ => ⟨.NONE, rfl⟩

/-- An entry is taken where the queue has room. -/
theorem getSqe (h : PollsOnly es u) {v : IoUringState} (hget : u.ioUringGetSqe = some v) :
    PollsOnly es v ∧ v.sq.count < 2 ^ v.sq.bits := by
  obtain ⟨hwf, hqueued, hlt, heq⟩ := getSqe_queue h.wf hget
  rw [heq]
  refine ⟨⟨hwf, ?_, h.kernel, h.masks⟩, hlt⟩
  show ∀ sqe ∈ v.sq.queued, sqe.Proper
  rw [hqueued]
  exact h.queued

/-- A proper entry may be submitted. -/
theorem submit (h : PollsOnly es u) (hlt : u.sq.count < 2 ^ u.sq.bits) {sqe : Sqe}
    (hs : sqe.Proper) (ok : Bool) : PollsOnly es (u.submit sqe ok) := by
  obtain ⟨hwf, done, hkernel, hqueue, -⟩ := submit_queue h.wf hlt sqe ok
  -- what the kernel executed and what is left are the queued entries and the new one
  have hall : ∀ s ∈ done ++ (u.submit sqe ok).sq.queued, s.Proper := by
    rw [hqueue]
    intro s hin
    rcases List.mem_append.mp hin with hin | hin
    · exact h.queued s hin
    · rw [List.mem_singleton.mp hin]
      exact hs
  refine ⟨hwf, fun s hin => hall s (List.mem_append_right _ hin), ?_, ?_⟩
  · rw [hkernel]
    exact h.kernel.executes fun s hin => hall s (List.mem_append_left _ hin)
  · cases ok <;> exact h.masks

variable {fd : ℕ}

/-- Adding a poll submits a proper entry. -/
theorem addPoll (h : PollsOnly es u) (hfd : fd < fileBit) (mask : LoopyAction) (ok : Bool) :
    PollsOnly es (u.ioUringAddPoll fd (ioUringPollEvents mask) ok).2 := by
  unfold IoUringState.ioUringAddPoll
  cases hget : u.ioUringGetSqe with
  | none => exact h
  | some v =>
    obtain ⟨hv, hlt⟩ := h.getSqe hget
    have hsqe : Sqe.Proper
        { opcode := .POLL_ADD, fd := fd, opFlags := ioUringPollEvents mask, userData := fd } :=
      ⟨hfd, mask, rfl⟩
    obtain ⟨hwf, hqueued, hkernel, hmasks⟩ := hv.submit hlt hsqe ok
    exact ⟨hwf, hqueued, hkernel, hmasks⟩

/-- So does removing one. -/
theorem removePoll (h : PollsOnly es u) (hfd : fd < fileBit) (ok : Bool) :
    PollsOnly es (u.ioUringRemovePoll fd ok) := by
  unfold IoUringState.ioUringRemovePoll
  cases hget : u.ioUringGetSqe with
  | none => exact h
  | some v =>
    obtain ⟨hv, hlt⟩ := h.getSqe hget
    have hsqe : Sqe.Proper { opcode := .POLL_REMOVE, fd := -1, addr := fd, userData := 0 } :=
      ⟨hfd, rfl⟩
    exact hv.submit hlt hsqe ok

/-- The table of masks has masks of the adapter only. -/
theorem setPollMask (h : PollsOnly es u) (fd : ℕ) (mask : LoopyAction) :
    PollsOnly es (u.setPollMask fd (ioUringPollEvents mask)) := by
  unfold IoUringState.setPollMask
  split
  · refine ⟨h.wf, h.queued, h.kernel, fun fd' => ?_⟩
    show ∃ mask', update u.pollMasks fd (ioUringPollEvents mask) fd' = _
    by_cases heq : fd' = fd
    · exact ⟨mask, by rw [heq, update_self]⟩
    · rw [update_of_ne heq]
      exact h.masks fd'
  · exact h

/-- A mask in it is one of the adapter's. -/
theorem pollMask (h : PollsOnly es u) (fd : ℕ) : ∃ mask, u.pollMask fd = ioUringPollEvents mask := by
  unfold IoUringState.pollMask
  split
  · exact h.masks fd
  · exact ⟨.NONE, rfl⟩

/-- Arming a poll again submits a proper entry. -/
theorem rearm (h : PollsOnly es u) (hfd : fd < fileBit) (ok : Bool) :
    PollsOnly es (u.rearm fd ok) := by
  unfold IoUringState.rearm
  split
  · obtain ⟨mask, hmask⟩ := h.pollMask fd
    rw [hmask]
    exact h.addPoll hfd mask ok
  · exact h

/-- A resize leaves the ring. -/
theorem resize (h : PollsOnly es u) (setSize : ℕ) :
    PollsOnly es (loopyInternalResize u setSize) := by
  unfold loopyInternalResize
  split
  · refine ⟨h.wf, h.queued, h.kernel, fun fd => ?_⟩
    by_cases hnew : u.pollMasksSize ≤ fd ∧ fd < setSize
    · exact ⟨.NONE, if_pos hnew⟩
    · obtain ⟨mask, hmask⟩ := h.masks fd
      exact ⟨mask, (if_neg hnew).trans hmask⟩
  · exact h

/-- Every branch of `loopyInternalAddEvent` submits proper entries. -/
theorem addEvent (h : PollsOnly es u) (oks : EnterOks) (events : ℕ → LoopyFileEvent)
    (hfd : fd < fileBit) (mask : LoopyAction) :
    PollsOnly es (loopyInternalAddEvent oks events u fd mask).2 := by
  unfold loopyInternalAddEvent
  have hremove : PollsOnly es
      (if u.pollMask fd ≠ 0 then u.ioUringRemovePoll fd oks.remove else u) := by
    split
    · exact h.removePoll hfd oks.remove
    · exact h
  generalize (if u.pollMask fd ≠ 0 then u.ioUringRemovePoll fd oks.remove else u) = v at hremove
  have hadd := hremove.addPoll hfd (mask.union (events fd).mask) oks.add
  simp only []
  split
  · exact hadd
  · exact hadd.setPollMask fd _

/-- So does every branch of `loopyInternalDelEvent`. -/
theorem delEvent (h : PollsOnly es u) (oks : EnterOks) (events : ℕ → LoopyFileEvent)
    (hfd : fd < fileBit) (delmask : LoopyAction) :
    PollsOnly es (loopyInternalDelEvent oks events u fd delmask) := by
  unfold loopyInternalDelEvent
  have hremove := h.removePoll hfd oks.remove
  simp only []
  split
  · exact (hremove.addPoll hfd _ oks.add).setPollMask fd _
  · exact hremove.setPollMask fd .NONE

/-- A successful `io_uring_enter` of a poll executes everything that is queued. -/
theorem enter (h : PollsOnly es u) : PollsOnly es (u.ioUringEnter u.sq.count true) := by
  obtain ⟨hwf, hdrop⟩ := Ring.advance_spec h.wf (le_refl u.sq.count)
  refine ⟨hwf, ?_, h.kernel.executes fun s hin => h.queued s (List.mem_of_mem_take hin), h.masks⟩
  show ∀ s ∈ (u.sq.advance u.sq.count).queued, s.Proper
  rw [hdrop]
  exact fun s hin => h.queued s (List.mem_of_mem_drop hin)

/-- An armed poll is gone, with a completion. -/
theorem firePoll (h : PollsOnly es u) (i : ℕ) (hc : cqe.Proper es) :
    PollsOnly es (u.onKernel (·.firePoll i cqe)) :=
  ⟨h.wf, h.queued, (h.kernel.fewer _ fun _ hp => List.mem_of_mem_eraseIdx hp).post hc, h.masks⟩

/-- Every table call keeps it: a descriptor's number is below bit 63. -/
theorem effect (h : PollsOnly es u) {ops : ℕ} {env : Env EnterOks} {l l' : LoopyLoop IoUringState}
    {c : TableCall} {b : Bool} (hs : l.state = some u) (ht : TableInv l)
    (he : TableEffect (ioUringAdapter bits ops) env l c b l') :
    ∃ u', l'.state = some u' ∧ PollsOnly es u' := by
  have hgrown : ∀ l₁, Grown (ioUringAdapter bits ops) env.addr l l₁ →
      ∃ u₁, l₁.state = some u₁ ∧ PollsOnly es u₁ := fun _ => grown_keeps hs h h.resize
  cases he with
  | register hc hr hg hsame hi hs₁ hfree hok =>
    obtain ⟨u₁, hu₁, h₁⟩ := hgrown _ hg
    obtain rfl := Option.some.inj (hs₁.symm.trans hu₁)
    exact ⟨_, rfl, h₁.addEvent _ _ (lt_fileBit_of_setSize (ht.grown hg) hi) _⟩
  | refuse hc hr hg hi hs₁ hok =>
    obtain ⟨u₁, hu₁, h₁⟩ := hgrown _ hg
    obtain rfl := Option.some.inj (hs₁.symm.trans hu₁)
    exact ⟨_, rfl, h₁.addEvent _ _ (lt_fileBit_of_setSize (ht.grown hg) hi) _⟩
  | taken hc hg => exact hgrown _ hg
  | unregister hc hi hmask hs₁ =>
    obtain rfl := Option.some.inj (hs.symm.trans hs₁)
    exact ⟨_, unregistered_state _ _ _ _, h.delEvent _ _ (lt_fileBit_of_setSize ht hi) _⟩
  | absent => exact ⟨u, hs, h⟩
  | resize hg => exact hgrown _ hg

end PollsOnly

/-! ## The machine -/

/-- An entry of `l->fired` written for a readiness completion of its descriptor, within the
bits that completion reported. -/
def Genuine (es : List Event) (ev : LoopyFiredEvent) (cqe : Cqe) : Prop :=
  ∃ interest events, cqe.origin = .ready interest ∧ cqe.userData = ev.fd ∧
    cqe.res = events.toInt ∧ .ready ev.fd events ∈ es ∧
    (ev.mask.read = true → hasBit events EPOLLIN = true) ∧
    (ev.mask.write = true → (hasBit events EPOLLOUT || hasBit events EPOLLERR ||
      hasBit events EPOLLHUP) = true)

variable {ev : LoopyFiredEvent} {l : LoopyLoop IoUringState} {m' : Machine} {i : Input}

/-- A genuine firing stays so. -/
theorem Genuine.mono (hes : es ⊆ es') (h : Genuine es ev cqe) : Genuine es' ev cqe := by
  obtain ⟨interest, events, horigin, hfd, hres, hseen, hread, hwrite⟩ := h
  exact ⟨interest, events, horigin, hfd, hres, hes hseen, hread, hwrite⟩

/-- Every entry written to `l->fired` so far is genuine. -/
def FiredGenuine (m : Machine) : Prop :=
  ∀ ev cqe, .fired ev cqe ∈ m.events → Genuine m.events ev cqe

/-- Registrations, polls and the kernel's answers, and nothing else. -/
def PollInput (_ : Machine) : Input → Prop
  | .call (.table _ _) | .poll _ | .go _ | .ready _ _ | .failed _ _ => True
  | .call (.submit _ _ _) | .call (.addPoll _ _ _) | .call (.removePoll _ _)
  | .call (.poolNew _ _ _ _) | .call (.poolFree _ _ _ _) | .ret | .complete _ _ _ => False

/-- The completion the loop is about to read. -/
def Machine.nextCqe (m : Machine) : Option Cqe :=
  match m.frames with
  | .poll p :: _ =>
    if p.pc = .loop ∧ p.head ≠ p.tail ∧ p.numevents < m.loop.setSize then
      m.loop.state.bind fun u => u.kernel.cq[p.head]?
    else none
  | _ => none

/-- What the loop reads is the next completion. -/
theorem Machine.Reads.nextCqe {p : Poll} {fs : List Frame} (hs : m.loop.state = some u)
    (hr : m.Reads u p cqe fs) : m.nextCqe = some cqe := by
  simp only [Machine.nextCqe, hr.frames]
  rw [if_pos ⟨hr.pc, hr.more, hr.room⟩, hs]
  exact hr.cqe

/-- The completion loop reads no completion of a removed poll. -/
def NoCanceled (m : Machine) : Input → Prop
  | .go _ => ∀ cqe ∈ m.nextCqe, cqe.res ≠ -ECANCELED
  | _ => True

/-- The tables agree, and the ring carries polls only. -/
structure RingInv (m : Machine) : Prop where
  table : TableInv m.loop
  polls : ∃ u, m.loop.state = some u ∧ PollsOnly m.events u

/-- The table does not depend on the ring. -/
theorem TableInv.withState (h : TableInv l) (s : Option IoUringState) :
    TableInv { l with state := s } :=
  ⟨⟨h.sized.pos, h.sized.lt, h.sized.maxfd_lt⟩, h.heap, h.holds, h.maxfd_eq, h.beyond,
    h.fired_beyond⟩

/-- Nor on what has fired. -/
theorem TableInv.withFired (h : TableInv l) {i : ℕ} (hi : i < l.setSize) (ev : LoopyFiredEvent) :
    TableInv { l with fired := update l.fired i ev } := by
  refine ⟨⟨h.sized.pos, h.sized.lt, h.sized.maxfd_lt⟩, h.heap, h.holds, h.maxfd_eq, h.beyond,
    fun j hj => ?_⟩
  have hne : j ≠ i := by
    have : l.setSize ≤ j := hj
    omega
  show update l.fired i ev j = _
  rw [update_of_ne hne]
  exact h.fired_beyond j hj

/-- A completion of the ring that is no cancellation is reported only if it is a readiness
completion, with the bits it carries. -/
theorem Cqe.Proper.genuine (h : cqe.Proper es) (hfires : cqe.Fires) (hne : cqe.res ≠ -ECANCELED)
    (hev : ev = ⟨cqe.userData, firedMask (BitVec.ofInt 32 cqe.res)⟩) : Genuine es ev cqe := by
  have hpos : cqe.res ≥ 0 := hfires.1.resolve_right hne
  have horigin := h.2
  subst hev
  cases ho : cqe.origin with
  | ready interest =>
    simp only [ho] at horigin
    obtain ⟨mask, events, -, -, -, hres, hseen⟩ := horigin
    have hbits : BitVec.ofInt 32 cqe.res = events := by rw [hres, BitVec.ofInt_toInt]
    rw [hbits]
    refine ⟨interest, events, ho, rfl, hres, hseen, ?_, ?_⟩
    · intro hread
      rw [firedMask_read] at hread
      exact hread
    · intro hwrite
      rw [firedMask_write] at hwrite
      exact hwrite
  | canceled =>
    simp only [ho] at horigin
    exact absurd horigin hne
  | failed =>
    simp only [ho] at horigin
    exact absurd horigin.1 (not_lt.mpr hpos)
  | removal =>
    -- the acknowledgement of a removal carries no bits
    simp only [ho] at horigin
    exfalso
    rcases horigin.2 with hres | hres
    · apply hfires.2
      rw [hres]
      decide
    · rw [hres] at hpos
      exact absurd hpos (by decide)
  | operation => simp only [ho] at horigin

/-- What is remembered of the ring does not depend on the operation slots, the buffer groups
or the published head. -/
theorem PollsOnly.congr {u' : IoUringState} (h : PollsOnly es u) (hsq : u'.sq = u.sq)
    (hkernel : u'.kernel = u.kernel) (hmasks : u'.pollMasks = u.pollMasks) : PollsOnly es u' := by
  refine ⟨?_, ?_, ?_, ?_⟩
  · rw [hsq]; exact h.wf
  · rw [hsq]; exact h.queued
  · rw [hkernel]; exact h.kernel
  · rw [hmasks]; exact h.masks

namespace RingInv

variable {m m' : Machine} {u : IoUringState}

/-- The invariant is about the ring and the events. -/
theorem withState (h : RingInv m) (hu : PollsOnly m.events u) : RingInv (m.withState u) :=
  ⟨TableInv.withState h.table _, u, rfl, hu⟩

/-- Not about the frames. -/
theorem withFrames (h : RingInv m) (fs : List Frame) : RingInv (m.withFrames fs) :=
  ⟨h.table, h.polls⟩

/-- It stays when more has happened. -/
theorem emit (h : RingInv m) (e : Event) : RingInv (m.emit e) := by
  obtain ⟨u, hs, hu⟩ := h.polls
  exact ⟨h.table, u, hs, hu.mono (List.subset_cons_self _ _)⟩

/-- The completions of the ring, and with them the next one, are proper. -/
theorem nextCqe_proper (h : RingInv m) (hnext : m.nextCqe = some cqe) : cqe.Proper m.events := by
  obtain ⟨u, hs, hu⟩ := h.polls
  unfold Machine.nextCqe at hnext
  rw [hs] at hnext
  split at hnext
  · split at hnext
    · exact hu.kernel.cq cqe (List.mem_of_getElem? hnext)
    · cases hnext
  · cases hnext

/-- Every step of registrations and polls keeps the ring in order. -/
theorem step {i : Input} (h : RingInv m) (hin : PollInput m i) (hstep : m.step i = some m') :
    RingInv m' := by
  obtain ⟨u, hs, ht⟩ := Machine.step_inv hstep
  obtain ⟨u', hs', hu⟩ := h.polls
  obtain rfl := Option.some.inj (hs.symm.trans hs')
  have hproper : ∀ {p cqe fs}, m.Reads u p cqe fs → cqe.Proper m.events :=
    fun hr => hu.kernel.cq _ (List.mem_of_getElem? hr.cqe)
  cases ht with
  | @ready i events p hp hne hsub =>
    have hpoll := hu.kernel.polls p (List.mem_of_getElem? hp)
    obtain ⟨mask, hmask⟩ := hpoll.2
    have hcqe : Cqe.Proper (Event.ready p.userData events :: m.events)
        ⟨p.userData, events.toInt, 0, .ready p.events⟩ :=
      ⟨hpoll.1, mask, events, hmask, hne, hsub, rfl, List.mem_cons_self⟩
    exact (h.emit (.ready p.userData events)).withState
      ((hu.mono (List.subset_cons_self _ _)).firePoll i hcqe)
  | @failed i err p hp herr hne =>
    have hpoll := hu.kernel.polls p (List.mem_of_getElem? hp)
    refine h.withState (hu.firePoll i ⟨hpoll.1, ?_, ?_⟩)
    · show -(err : ℤ) < 0
      omega
    · show -(err : ℤ) ≠ -ECANCELED
      omega
  | complete => exact hin.elim
  | @table c env b l' hrun he => exact ⟨h.table.effect he, hu.effect hs h.table he⟩
  | submit => exact hin.elim
  | addPoll => exact hin.elim
  | removePoll => exact hin.elim
  | poolRefused => exact hin.elim
  | @pool create => cases create <;> exact hin.elim
  | ret => exact hin.elim
  | pollOk => exact (h.withState hu.enter).withFrames _
  | pollSoft => exact (h.withState hu).withFrames _
  | pollHard => exact h.withFrames _
  | ignored hr hfile => exact ((hproper hr).not_fileOp hfile).elim
  | called hr hfile => exact ((hproper hr).not_fileOp hfile).elim
  | silent hr hfile => exact ((hproper hr).not_fileOp hfile).elim
  | @fired p cqe fs ok ev hr hfile hfires hev =>
    refine ⟨TableInv.withState (TableInv.withFired h.table hr.room ev) _, _, rfl, ?_⟩
    apply (hu.rearm (hproper hr).1 ok).mono
    intro e he
    exact List.mem_cons_of_mem _ (List.mem_cons_of_mem _ (List.mem_cons_of_mem _ he))
  | skipped => exact ((h.emit _).emit _).withFrames _
  | @published p =>
    have hu' : PollsOnly m.events { u with cqHead := p.head } := hu.congr rfl rfl rfl
    exact ((h.withState hu').emit _).withFrames _
  | @returned p fs ok fileOp after =>
    have hu' : PollsOnly m.events { u with fileState := u.fileState.finish fileOp after } :=
      hu.congr rfl rfl rfl
    exact ((h.withState hu').emit _).withFrames _
  | @poolDone p fs ok pool =>
    refine (h.withState (hu.congr ?_ ?_ ?_)).withFrames _ <;>
    · unfold IoUringState.setBufferGroup
      split <;> rfl
  | poolFailed => exact h.withFrames _

end RingInv

/-- An entry is written to `l->fired` only for the completion just read. -/
theorem reported (hin : PollInput m i) (hstep : m.step i = some m') :
    m.events ⊆ m'.events ∧ ∀ ev cqe, .fired ev cqe ∈ m'.events → .fired ev cqe ∈ m.events ∨
      ∃ ok, i = .go ok ∧ m.nextCqe = some cqe ∧ cqe.Fires ∧
        ev = ⟨cqe.userData, firedMask (BitVec.ofInt 32 cqe.res)⟩ := by
  obtain ⟨u, hs, ht⟩ := Machine.step_inv hstep
  cases ht with
  | complete => exact hin.elim
  | submit => exact hin.elim
  | @pool create => cases create <;> exact hin.elim
  | @fired p cqe fs ok ev hr hfile hfires hev =>
    refine ⟨fun e he => by simp [he], fun ev' cqe' hmem => ?_⟩
    simp only [List.mem_cons, reduceCtorEq, false_or, Event.fired.injEq] at hmem
    rcases hmem with ⟨rfl, rfl⟩ | hmem
    · exact Or.inr ⟨ok, rfl, hr.nextCqe hs, hfires, hev⟩
    · exact Or.inl hmem
  | @called p cqe fs ok fileOp call after hr =>
    refine ⟨fun e he => List.mem_cons_of_mem _ (List.mem_cons_of_mem _ he), fun ev cqe hmem => ?_⟩
    exact Or.inl (by simpa [Machine.invoke] using hmem)
  | _ => exact ⟨fun e he => by simp [he], fun ev cqe hmem => Or.inl (by simpa using hmem)⟩

/-- A step that reads no cancellation reports something genuine or nothing. -/
theorem FiredGenuine.step (hring : RingInv m) (h : FiredGenuine m) (hin : PollInput m i)
    (hok : NoCanceled m i) (hstep : m.step i = some m') : FiredGenuine m' := by
  obtain ⟨hsub, hfired⟩ := reported hin hstep
  intro ev cqe hmem
  apply Genuine.mono hsub
  rcases hfired ev cqe hmem with hold | ⟨ok, rfl, hnext, hfires, hev⟩
  · exact h ev cqe hold
  · exact (hring.nextCqe_proper hnext).genuine hfires (hok cqe hnext) hev

/-- A new loop has fired nothing. -/
theorem RingInv.start {bits : ℕ} (hbits : bits ≤ 31) {n : ℕ} (hn : 1 ≤ n) (hn31 : n < 2 ^ 31)
    (ops addr : ℕ) : RingInv (.start bits ops n addr) :=
  ⟨.fresh hn hn31 addr, _, rfl, .init hbits ops n⟩

instance (m : Machine) : (i : Input) → Decidable (PollInput m i)
  | .call (.table _ _) | .poll _ | .go _ | .ready _ _ | .failed _ _ => isTrue trivial
  | .call (.submit _ _ _) | .call (.addPoll _ _ _) | .call (.removePoll _ _)
  | .call (.poolNew _ _ _ _) | .call (.poolFree _ _ _ _) | .ret | .complete _ _ _ => isFalse id

instance (m : Machine) : (i : Input) → Decidable (NoCanceled m i)
  | .go _ => inferInstanceAs (Decidable (∀ cqe ∈ m.nextCqe, cqe.res ≠ -ECANCELED))
  | .call _ | .poll _ | .ready _ _ | .failed _ _ | .ret | .complete _ _ _ => isTrue trivial

/-- **Only readiness is reported.** For every ring and table size and every run of
registrations, polls and answers of the kernel in which the completion loop reads no
completion of a removed poll, every entry written to `l->fired` comes from a readiness
completion of its descriptor: with `READ` only if that reported `POLLIN`, with `WRITE` only if
it reported `POLLOUT`, `POLLERR` or `POLLHUP`. -/
theorem fired_genuine (bits : ℕ) (hbits : bits ≤ 31) (n : ℕ) (hn : 1 ≤ n) (hn31 : n < 2 ^ 31)
    (ops addr : ℕ) (is : List Input) (m : Machine)
    (hrun : Run Machine.step (fun m i => PollInput m i ∧ NoCanceled m i)
      (.start bits ops n addr) is m) : FiredGenuine m := by
  have hinv : RingInv m ∧ FiredGenuine m := by
    refine hrun.invariant (P := fun m => RingInv m ∧ FiredGenuine m) ?_
      ⟨.start hbits hn hn31 ops addr, fun _ _ hin => absurd hin List.not_mem_nil⟩
    intro m i m' h hok hstep
    exact ⟨h.1.step hok.1 hstep, h.2.step h.1 hok.1 hok.2 hstep⟩
  exact hinv.2

/-- Descriptor 3 is registered for reading, becomes readable and hangs up, and is reported. -/
def readableRun : List Input :=
  [.call (.table (.registerRead 3 7 8) ⟨1, ⟨true, true⟩⟩), .ready 0 (EPOLLIN ||| EPOLLHUP),
    .poll .ok, .go true, .go true]

theorem fired_genuine_readable :
    ∃ m, Run Machine.step (fun m i => PollInput m i ∧ NoCanceled m i) (.start 3 100 16 1)
        readableRun m ∧
      Event.fired ⟨3, .ALL⟩ ⟨3, 17, 0, .ready EPOLLIN⟩ ∈ m.events ∧ FiredGenuine m := by
  have hexec : (exec Machine.step (fun m i => PollInput m i ∧ NoCanceled m i) (.start 3 100 16 1)
      readableRun).map (fun m =>
        decide (Event.fired ⟨3, .ALL⟩ ⟨3, 17, 0, .ready EPOLLIN⟩ ∈ m.events)) = some true := by
    decide +kernel
  obtain ⟨m, hrun, hfired⟩ := Run.of_exec_map hexec
  exact ⟨m, hrun, of_decide_eq_true hfired,
    fired_genuine 3 (by decide) 16 (by decide) (by decide) 100 1 _ _ hrun⟩

/-- Descriptor 3 is registered for reading, then for writing, and is never ready. -/
def canceledRun : List Input :=
  [.call (.table (.registerRead 3 7 8) ⟨1, ⟨true, true⟩⟩),
    .call (.table (.registerWrite 3 7 8) ⟨1, ⟨true, true⟩⟩), .poll .ok, .go true]

/-- The poll that the second registration removed is reported as readable. -/
theorem canceled_poll_fires :
    ¬ ∀ is m, Run Machine.step PollInput (.start 3 100 16 1) is m → FiredGenuine m := by
  intro hall
  have hexec : (exec Machine.step PollInput (.start 3 100 16 1) canceledRun).map
      (fun m => decide (Event.fired ⟨3, .READ⟩ ⟨3, -125, 0, .canceled⟩ ∈ m.events)) =
      some true := by decide +kernel
  obtain ⟨m, hm, hfired⟩ := Run.of_exec_map hexec
  obtain ⟨interest, events, horigin, -⟩ :=
    hall _ _ hm _ _ (of_decide_eq_true hfired)
  cases horigin

end Loopy.IoUring
