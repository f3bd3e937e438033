import Loopy.Channel.Blocking

/-!
# When nobody can go on

The calls on a channel go on by themselves until each of them has returned or sleeps (`awakeCalls`
counts what they have left). What then keeps a call asleep is the state of the channel and nothing
else: senders sleep only at a full open channel, receivers only at an empty open one, so never both.
-/

namespace Loopy.Channel

open Loopy.Lib
open Function (update update_of_ne update_self)

variable {α S R C : Type} [DecidableEq S] [DecidableEq R] [DecidableEq C]

/-- The steps of a call until it returns. -/
def callLeft (inCall asleep : Bool) : ℕ := if inCall then (if asleep then 1 else 2) else 0

def BlockingChannel.sendLeft (m : BlockingChannel α S R C) (s : S) : ℕ :=
  callLeft (m.sender s).isSome (m.sendAsleep s)

def BlockingChannel.recvLeft (m : BlockingChannel α S R C) (r : R) : ℕ :=
  callLeft (m.receiver r).isSome (m.recvAsleep r)

variable [Fintype S] [Fintype R] [Fintype C]

/-- A broadcast can wake every sleeper. -/
def BlockingChannel.closeLeft (m : BlockingChannel α S R C) (c : C) : ℕ :=
  if m.closing c then Fintype.card S + Fintype.card R + 1 else 0

/-- A bound on the steps that the calls make by themselves. -/
def callsLeft (m : BlockingChannel α S R C) : ℕ :=
  ∑ s, m.sendLeft s + ∑ r, m.recvLeft r + ∑ c, m.closeLeft c

variable {m m' : BlockingChannel α S R C} {s : S} {r : R} {c : C}

/-- A signal wakes at most one thread. -/
theorem sum_callLeft_signal {T : Type} [DecidableEq T] [Fintype T] {asleep asleep' : T → Bool}
    {woken : Option T} (call : T → Bool) (h : signal asleep woken = some asleep') :
    ∑ t, callLeft (call t) (asleep' t) ≤ ∑ t, callLeft (call t) (asleep t) + 1 := by
  unfold signal at h
  split at h
  · next t =>
    obtain ⟨ht, rfl⟩ := of_guard h
    have hsum := sum_univ_update (f := fun u => callLeft (call u) (asleep u))
      (g := fun u => callLeft (call u) (update asleep t false u)) t fun u hu => by
        rw [update_of_ne hu]
    have hone : callLeft (call t) (update asleep t false t) ≤
        callLeft (call t) (asleep t) + 1 := by
      rw [update_self, ht]
      cases call t <;> simp [callLeft]
    omega
  · obtain ⟨_, rfl⟩ := of_guard h
    exact Nat.le_succ _

omit [DecidableEq R] [DecidableEq C] [Fintype R] [Fintype C] in
/-- The call of one sender gets shorter. -/
theorem sum_sendLeft (m m' : BlockingChannel α S R C) (s : S)
    (hother : ∀ u, u ≠ s → m'.sendLeft u = m.sendLeft u) :
    ∑ u, m'.sendLeft u + m.sendLeft s = ∑ u, m.sendLeft u + m'.sendLeft s :=
  sum_univ_update s hother

omit [DecidableEq S] [DecidableEq C] [Fintype S] [Fintype C] in
theorem sum_recvLeft (m m' : BlockingChannel α S R C) (r : R)
    (hother : ∀ u, u ≠ r → m'.recvLeft u = m.recvLeft u) :
    ∑ u, m'.recvLeft u + m.recvLeft r = ∑ u, m.recvLeft u + m'.recvLeft r :=
  sum_univ_update r hother

omit [DecidableEq S] [DecidableEq R] [DecidableEq C] in
/-- Calls get shorter, and nobody starts or ends a broadcast. -/
theorem callsLeft_lt (hclosing : m'.closing = m.closing)
    (h : ∑ u, m'.sendLeft u + ∑ u, m'.recvLeft u < ∑ u, m.sendLeft u + ∑ u, m.recvLeft u) :
    callsLeft m' < callsLeft m := by
  unfold callsLeft BlockingChannel.closeLeft
  rw [hclosing]
  omega

omit [DecidableEq C] in
/-- A send under the mutex brings the calls closer to rest. -/
theorem callsLeft_sendSection {woken : Option R} (hstep : sendSection m s woken = some m') :
    callsLeft m' < callsLeft m := by
  obtain ⟨hsection, hcall, hawake⟩ := sendSection_spec hstep
  have htwo : m.sendLeft s = 2 := by simp [BlockingChannel.sendLeft, callLeft, hcall, hawake]
  have hleave : ∑ u, (m.leaveSend s).sendLeft u + 2 = ∑ u, m.sendLeft u := by
    have hsum := sum_sendLeft m (m.leaveSend s) s fun u hu => by
      simp only [BlockingChannel.sendLeft, BlockingChannel.leaveSend, update_of_ne hu]
    have hzero : (m.leaveSend s).sendLeft s = 0 := by
      simp [BlockingChannel.sendLeft, BlockingChannel.leaveSend, callLeft]
    omega
  cases hsection with
  | leave hno =>
    have hrecv : ∑ u, (m.leaveSend s).recvLeft u = ∑ u, m.recvLeft u := rfl
    exact callsLeft_lt rfl (by omega)
  | sleep data hs hopen hfull =>
    have hsum := sum_sendLeft m
      { m with sendAsleep := update m.sendAsleep s true } s fun u hu => by
        simp only [BlockingChannel.sendLeft, update_of_ne hu]
    have hone : BlockingChannel.sendLeft
        { m with sendAsleep := update m.sendAsleep s true } s = 1 := by
      simp [BlockingChannel.sendLeft, callLeft, hcall]
    refine callsLeft_lt rfl ?_
    simp only [BlockingChannel.recvLeft] at *
    omega
  | push data recvAsleep woken hopen hroom hsignal =>
    -- the sender is two steps closer to its end, the receiver that it wakes one further away
    have hwake := sum_callLeft_signal (fun u => (m.receiver u).isSome) hsignal
    refine callsLeft_lt rfl ?_
    simp only [BlockingChannel.sendLeft, BlockingChannel.recvLeft,
      BlockingChannel.leaveSend] at *
    omega

omit [DecidableEq C] in
/-- A receive under the mutex brings the calls closer to rest. -/
theorem callsLeft_recvSection {woken : Option S} (hstep : recvSection m r woken = some m') :
    callsLeft m' < callsLeft m := by
  obtain ⟨hsection, hcall, hawake⟩ := recvSection_spec hstep
  have htwo : m.recvLeft r = 2 := by simp [BlockingChannel.recvLeft, callLeft, hcall, hawake]
  have hleave : ∑ u, (m.leaveRecv r).recvLeft u + 2 = ∑ u, m.recvLeft u := by
    have hsum := sum_recvLeft m (m.leaveRecv r) r fun u hu => by
      simp only [BlockingChannel.recvLeft, BlockingChannel.leaveRecv, update_of_ne hu]
    have hzero : (m.leaveRecv r).recvLeft r = 0 := by
      simp [BlockingChannel.recvLeft, BlockingChannel.leaveRecv, callLeft]
    omega
  cases hsection with
  | leave hno =>
    have hsend : ∑ u, (m.leaveRecv r).sendLeft u = ∑ u, m.sendLeft u := rfl
    exact callsLeft_lt rfl (by omega)
  | sleep hr hopen hempty =>
    have hsum := sum_recvLeft m
      { m with recvAsleep := update m.recvAsleep r true } r fun u hu => by
        simp only [BlockingChannel.recvLeft, update_of_ne hu]
    have hone : BlockingChannel.recvLeft
        { m with recvAsleep := update m.recvAsleep r true } r = 1 := by
      simp [BlockingChannel.recvLeft, callLeft, hcall]
    refine callsLeft_lt rfl ?_
    simp only [BlockingChannel.sendLeft] at *
    omega
  | pop sendAsleep woken hcount hsignal =>
    -- as in a send, with the two sides exchanged
    have hwake := sum_callLeft_signal (fun u => (m.sender u).isSome) hsignal
    refine callsLeft_lt rfl ?_
    simp only [BlockingChannel.sendLeft, BlockingChannel.recvLeft,
      BlockingChannel.leaveRecv] at *
    omega

theorem callLeft_le (inCall asleep asleep' : Bool) :
    callLeft inCall asleep ≤ callLeft inCall asleep' + 1 := by
  cases inCall <;> cases asleep <;> cases asleep' <;> decide

omit [DecidableEq S] [DecidableEq R] in
/-- A broadcast costs more than it can wake. -/
theorem callsLeft_broadcast (hc : m.closing c) :
    callsLeft { m with
      closing := update m.closing c false
      sendAsleep := fun _ => false
      recvAsleep := fun _ => false } < callsLeft m := by
  have hsend : ∑ u, callLeft (m.sender u).isSome false ≤ ∑ u, m.sendLeft u + Fintype.card S := by
    calc ∑ u, callLeft (m.sender u).isSome false
        ≤ ∑ u, (m.sendLeft u + 1) := Finset.sum_le_sum fun u _ => callLeft_le _ _ _
      _ = ∑ u, m.sendLeft u + Fintype.card S := by simp [Finset.sum_add_distrib]
  have hrecv : ∑ u, callLeft (m.receiver u).isSome false ≤
      ∑ u, m.recvLeft u + Fintype.card R := by
    calc ∑ u, callLeft (m.receiver u).isSome false
        ≤ ∑ u, (m.recvLeft u + 1) := Finset.sum_le_sum fun u _ => callLeft_le _ _ _
      _ = ∑ u, m.recvLeft u + Fintype.card R := by simp [Finset.sum_add_distrib]
  have hclose := sum_univ_update (f := m.closeLeft) (g := fun u =>
    if update m.closing c false u then Fintype.card S + Fintype.card R + 1 else 0) c
    fun u hu => by simp only [BlockingChannel.closeLeft, update_of_ne hu]
  have hself : m.closeLeft c = Fintype.card S + Fintype.card R + 1 := if_pos hc
  simp only [update_self, Bool.false_eq_true, ↓reduceIte] at hclose
  unfold callsLeft
  simp only [BlockingChannel.sendLeft, BlockingChannel.recvLeft, BlockingChannel.closeLeft] at *
  omega

theorem callsLeft_own {a : BlockingAction α S R C} (ha : a.Own)
    (hstep : blockingStep m a = some m') : callsLeft m' < callsLeft m := by
  cases a with
  | sendSection s woken => exact callsLeft_sendSection hstep
  | recvSection r woken => exact callsLeft_recvSection hstep
  | broadcast c =>
    obtain ⟨hc, rfl⟩ := of_guard hstep
    exact callsLeft_broadcast hc
  | _ => exact ha.elim

/-! ## At rest -/

/-- There is always a thread that a signal can wake, or nobody to wake. -/
theorem exists_signal {T : Type} [DecidableEq T] [Fintype T] (asleep : T → Bool) :
    ∃ woken asleep', signal asleep woken = some asleep' := by
  by_cases hsome : ∃ t, asleep t
  · obtain ⟨t, ht⟩ := hsome
    exact ⟨some t, _, if_pos ht⟩
  · push Not at hsome
    exact ⟨none, asleep, if_pos fun t => by simpa using hsome t⟩

omit [DecidableEq C] [Fintype S] [Fintype C] in
/-- A sender that is awake can take the mutex. -/
theorem sendSection_possible (h : m.SendReady s) : ∃ woken, sendSection m s woken ≠ none := by
  obtain ⟨hcall, hawake⟩ := h
  obtain ⟨⟨data, blocking⟩, hs⟩ := Option.isSome_iff_exists.mp hcall
  obtain ⟨woken, recvAsleep, hsignal⟩ := exists_signal m.recvAsleep
  unfold sendSection
  by_cases hfull : m.mpmc.count ≥ m.mpmc.capacity
  · refine ⟨none, ?_⟩
    by_cases hreturn : m.closed ∨ blocking = false
    · simp [hs, hawake, hfull, hreturn]
    · simp [hs, hawake, hfull, hreturn]
  · by_cases hclosed : m.closed
    · exact ⟨none, by simp [hs, hawake, hfull, hclosed]⟩
    · exact ⟨woken, by simp [hs, hawake, hfull, hclosed, hsignal]⟩

omit [DecidableEq C] [Fintype R] [Fintype C] in
/-- A receiver that is awake can take the mutex. -/
theorem recvSection_possible (h : m.RecvReady r) : ∃ woken, recvSection m r woken ≠ none := by
  obtain ⟨hcall, hawake⟩ := h
  obtain ⟨blocking, hr⟩ := Option.isSome_iff_exists.mp hcall
  obtain ⟨woken, sendAsleep, hsignal⟩ := exists_signal m.sendAsleep
  unfold recvSection
  by_cases hempty : m.mpmc.count = 0
  · refine ⟨none, ?_⟩
    by_cases hreturn : m.closed ∨ blocking = false
    · simp [hr, hawake, hempty, hreturn]
    · simp [hr, hawake, hempty, hreturn]
  · exact ⟨woken, by simp [hr, hawake, hempty, hsignal]⟩

/-- A channel on which no call can go on. -/
structure Still (capacity : ℕ) (m : BlockingChannel α S R C) : Prop where
  /-- `loopyChannelClose` has returned. -/
  closing : ∀ c, m.closing c = false
  /-- A send that has not returned waits for room in a full open channel. -/
  send : ∀ s, (m.sender s).isSome →
    m.sendAsleep s = true ∧ m.closed = false ∧ m.mpmc.count = capacity
  /-- A receive that has not returned waits for an element of an empty open channel. -/
  recv : ∀ r, (m.receiver r).isSome →
    m.recvAsleep r = true ∧ m.closed = false ∧ m.mpmc.count = 0

omit [Fintype C] in
theorem BlockingLaw.still {capacity : ℕ} (h : BlockingLaw capacity m)
    (hquiet : Quiet blockingStep BlockingAction.Own m) : Still capacity m := by
  have hclosing : ∀ c, m.closing c = false := by
    intro c
    by_contra hc
    have hnone := hquiet (.broadcast c) trivial
    simp [blockingStep, hc] at hnone
  have hsend : ∀ s, ¬ m.SendReady s := by
    intro s hs
    obtain ⟨woken, hne⟩ := sendSection_possible hs
    exact hne (hquiet (.sendSection s woken) trivial)
  have hrecv : ∀ r, ¬ m.RecvReady r := by
    intro r hr
    obtain ⟨woken, hne⟩ := recvSection_possible hr
    exact hne (hquiet (.recvSection r woken) trivial)
  refine ⟨hclosing, fun s hs => ?_, fun r hr => ?_⟩
  · have hasleep : m.sendAsleep s = true := by
      by_contra hawake
      exact hsend s ⟨hs, by simpa using hawake⟩
    have hopen : m.closed = false := by
      by_contra hclosed
      have := (h.closed (by simpa using hclosed) hclosing).1 s
      rw [hasleep] at this
      cases this
    have hroom := h.room hopen ⟨s, hasleep⟩
    -- no sender is ready, so no slot is free
    rw [Finset.filter_false_of_mem fun u _ => hsend u, Finset.card_empty] at hroom
    have := h.buffered.2
    exact ⟨hasleep, hopen, by omega⟩
  · have hasleep : m.recvAsleep r = true := by
      by_contra hawake
      exact hrecv r ⟨hr, by simpa using hawake⟩
    have hopen : m.closed = false := by
      by_contra hclosed
      have := (h.closed (by simpa using hclosed) hclosing).2 r
      rw [hasleep] at this
      cases this
    have helements := h.elements ⟨r, hasleep⟩
    -- no receiver is ready, so no element is left
    rw [Finset.filter_false_of_mem fun u _ => hrecv u, Finset.card_empty] at helements
    exact ⟨hasleep, hopen, by omega⟩

/-- **No deadlock.** From every reachable state the calls can make no more than `callsLeft` steps by
themselves, and they always get to a state in which they can make none. There every call has
returned or sleeps, a sender only at a full open channel and a receiver only at an empty open one;
so senders and receivers never wait for each other, and a closed channel holds nobody. -/
theorem blocking_rest {capacity : ℕ} (hcap : 1 ≤ capacity) (elementSize : ℕ)
    (as : List (BlockingAction α S R C)) (m : BlockingChannel α S R C)
    (hrun : Run blockingStep (fun _ _ => True) (.fresh α S R C capacity elementSize) as m) :
    (∀ bs t, Run blockingStep (fun _ a => a.Own) m bs t → bs.length ≤ callsLeft m) ∧
      (∃ bs t, Run blockingStep (fun _ a => a.Own) m bs t ∧
        Quiet blockingStep BlockingAction.Own t) ∧
      ∀ bs t, Run blockingStep (fun _ a => a.Own) m bs t →
        Quiet blockingStep BlockingAction.Own t → Still capacity t := by
  have hfalls : ∀ (m : BlockingChannel α S R C) (a : BlockingAction α S R C)
      (m' : BlockingChannel α S R C), True → a.Own → blockingStep m a = some m' →
      callsLeft m' < callsLeft m := fun m a m' _ ha hstep => callsLeft_own ha hstep
  refine ⟨fun bs t hbs => ?_, Run.exists_quiet (fun _ _ _ h _ _ => h) hfalls trivial,
    fun bs t hbs hquiet => ?_⟩
  · have := hbs.length_add_measure_le (fun _ _ _ h _ _ => h) hfalls trivial
    omega
  · have hall := hrun.append (hbs.mono fun _ _ _ => trivial)
    have hinv := (BlockingInv.fresh hcap elementSize).run hall
    exact (hinv.law (run_capacity hall)).still hquiet

/-- Two senders wait at a full channel when it is closed: after the broadcast both return. -/
theorem blocking_rest_closed :
    ∃ m : BlockingChannel ℕ (Fin 2) (Fin 2) Unit, Run blockingStep (fun _ _ => True)
        (.fresh ℕ (Fin 2) (Fin 2) Unit 1 8)
        [.send 0 7 8 true, .sendSection 0 none, .send 0 8 8 true, .sendSection 0 none,
          .send 1 9 8 true, .sendSection 1 none, .close ()] m ∧
      (m.sendAsleep 0, m.sendAsleep 1, m.closed) = (true, true, true) ∧
      ∃ bs t, Run blockingStep (fun _ a => a.Own) m bs t ∧
        Quiet blockingStep BlockingAction.Own t ∧ Still 1 t := by
  refine Run.exists_of_exec (f := fun m => (m.sendAsleep 0, m.sendAsleep 1, m.closed))
    (b := (true, true, true)) (by decide +kernel) fun m hrun hval => ⟨hval, ?_⟩
  obtain ⟨_, ⟨bs, t, hbs, hquiet⟩, hrest⟩ := blocking_rest (by decide) 8 _ m hrun
  exact ⟨bs, t, hbs, hquiet, hrest bs t hbs hquiet⟩

end Loopy.Channel
