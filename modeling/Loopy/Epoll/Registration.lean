import Loopy.Epoll.Adapter
import Loopy.EventLoop.Theorems
import Loopy.Lib.Run

/-!
# The registration invariant of the epoll loop

Between table operations the kernel's interest set, the mask table, the fd heap and
`maxfd` describe the same set of descriptors (`registration_invariant`). The mask table,
heap and `maxfd` are `TableInv`, which holds for any adapter; `KernelOk` ties the epoll
instance to the mask table, and its step lemmas are one for each adapter function.
-/

namespace Loopy.Epoll

open Loopy.EventLoop Loopy.Lib

/-! ## The kernel follows the mask table -/

/-- The interest a registration mask asks the kernel for. -/
def interestOf (mask : LoopyAction) : Option (BitVec 32) :=
  if mask = .NONE then none else some (epollEvents mask)

/-- `EPOLL_CTL_ADD` was issued for an absent descriptor, the others for a present one. -/
def CtlCall.Proper (c : CtlCall) : Prop := c.present = (c.op != .add)

/-- The interest set is exactly the mask table, and every issued call was proper. -/
structure InterestOk (events : ℕ → LoopyFileEvent) (s : EpollState) : Prop where
  interest : ∀ i, s.interest i = interestOf (events i).mask
  proper : ∀ c ∈ s.issued, c.Proper

theorem interestOf_isSome (mask : LoopyAction) :
    (interestOf mask).isSome = decide (mask ≠ .NONE) := by
  unfold interestOf
  split <;> simp_all

variable {events : ℕ → LoopyFileEvent} {s : EpollState} {env : Env Bool} {c : TableCall}

/-- A granted or refused `epoll_ctl` whose operation fits the table. -/
theorem InterestOk.epollCtl (h : InterestOk events s) (grant : Bool) (op : CtlOp) (fd : ℕ)
    (ev : BitVec 32) (hop : (op = .add) ↔ (events fd).mask = .NONE) :
    (epollCtl grant s op fd ev).1 = grant ∧
      (∀ c ∈ (Epoll.epollCtl grant s op fd ev).2.issued, c.Proper) ∧
      (Epoll.epollCtl grant s op fd ev).2.interest =
        if grant then Function.update s.interest fd (if op = .del then none else some ev)
        else s.interest := by
  have hpresent : (s.interest fd).isSome = (op != .add) := by
    rw [h.interest fd, interestOf_isSome]
    by_cases hn : (events fd).mask = .NONE
    · simp [hn, hop.mpr hn]
    · have hne : op ≠ .add := fun he => hn (hop.mp he)
      simp [hn, hne]
  have hlog : ∀ c ∈ s.issued ++ [⟨op, fd, ev, (s.interest fd).isSome⟩], c.Proper := by
    intro c hc
    rcases List.mem_append.mp hc with hc | hc
    · exact h.proper c hc
    · rw [List.mem_singleton.mp hc]; exact hpresent
  cases grant <;> cases op <;> simp_all [Epoll.epollCtl]

theorem InterestOk.update {s' : EpollState} {fd : ℕ} {fe : LoopyFileEvent}
    (h : InterestOk events s) (hproper : ∀ c ∈ s'.issued, c.Proper)
    (hint : s'.interest = Function.update s.interest fd (interestOf fe.mask)) :
    InterestOk (Function.update events fd fe) s' := by
  refine ⟨fun i => ?_, hproper⟩
  rw [hint]
  by_cases hi : i = fd
  · subst hi; rw [Function.update_self, Function.update_self]
  · rw [Function.update_of_ne hi, Function.update_of_ne hi, h.interest i]

section AddDel

variable {events : ℕ → LoopyFileEvent} {s : EpollState} (h : InterestOk events s) (fd : ℕ)
  (mask : LoopyAction)

include h

theorem InterestOk.addEvent_spec (grant : Bool) :
    (loopyInternalAddEvent grant events s fd mask).1 = grant ∧
      (∀ c ∈ (loopyInternalAddEvent grant events s fd mask).2.issued, c.Proper) ∧
      (loopyInternalAddEvent grant events s fd mask).2.interest =
        if grant then
          Function.update s.interest fd (some (epollEvents (mask.union (events fd).mask)))
        else s.interest := by
  unfold loopyInternalAddEvent
  by_cases hn : (events fd).mask = .NONE
  · simpa [hn] using h.epollCtl grant .add fd (epollEvents (mask.union (events fd).mask))
      (by simp [hn])
  · simpa [hn] using h.epollCtl grant .mod fd (epollEvents (mask.union (events fd).mask))
      (by simp [hn])

/-- A granted registration. -/
theorem InterestOk.addEvent_granted (hmask : mask ≠ .NONE) (cb clientData : ℕ) :
    InterestOk (Function.update events fd ((events fd).register mask cb clientData))
      (loopyInternalAddEvent true events s fd mask).2 := by
  obtain ⟨-, hproper, hint⟩ := h.addEvent_spec fd mask true
  refine h.update hproper (hint.trans ?_)
  have hcomm : mask.union (events fd).mask = (events fd).mask.union mask := by
    simp [LoopyAction.union, Bool.or_comm]
  rw [if_pos rfl, hcomm]
  show _ = Function.update s.interest fd (interestOf ((events fd).mask.union mask))
  rw [interestOf, if_neg (LoopyAction.union_ne_none hmask)]

/-- A refused registration changes nothing the kernel remembers. -/
theorem InterestOk.addEvent_refused :
    (loopyInternalAddEvent false events s fd mask).2.interest = s.interest ∧
      InterestOk events (loopyInternalAddEvent false events s fd mask).2 := by
  obtain ⟨-, hproper, hint⟩ := h.addEvent_spec fd mask false
  rw [if_neg Bool.false_ne_true] at hint
  exact ⟨hint, fun i => by rw [hint, h.interest i], hproper⟩

/-- An unregistration of a registered descriptor. -/
theorem InterestOk.delEvent (hreg : (events fd).mask ≠ .NONE) :
    InterestOk
      (Function.update events fd { events fd with mask := (events fd).mask.diff mask })
      (loopyInternalDelEvent events s fd mask) := by
  unfold loopyInternalDelEvent
  by_cases hd : (events fd).mask.diff mask = .NONE
  · obtain ⟨-, hproper, hint⟩ := h.epollCtl true .del fd
      (epollEvents ((events fd).mask.diff mask)) (by simp [hreg])
    simp only [hd, ne_eq, not_true_eq_false, if_false] at hproper hint ⊢
    exact h.update hproper hint
  · obtain ⟨-, hproper, hint⟩ := h.epollCtl true .mod fd
      (epollEvents ((events fd).mask.diff mask)) (by simp [hreg])
    simp only [ne_eq, hd, not_false_eq_true, if_true]
    refine h.update hproper (hint.trans ?_)
    simp [interestOf, hd]

end AddDel

/-! ## The invariant -/

/-- The loop's epoll instance follows its mask table. -/
def KernelOk (l : LoopyLoop EpollState) : Prop :=
  ∃ s, l.state = some s ∧ InterestOk l.events s

/-- Mask table, heap, `maxfd` and interest set agree. -/
structure RegistrationInv (l : LoopyLoop EpollState) : Prop where
  table : TableInv l
  kernel : KernelOk l

variable {l l' : LoopyLoop EpollState} {addr : ℕ}

/-- Growing the tables leaves the epoll instance alone. -/
theorem grown_eq (h : TableInv l) (hg : Grown epollAdapter addr l l') :
    l' = { l with setSize := l'.setSize, eventsPtr := l'.eventsPtr } := by
  rcases hg with rfl | ⟨n, _, _, rfl⟩
  · rfl
  · have hstate : l.state.map (fun s => epollAdapter.resize s n) = l.state := by
      cases l.state <;> rfl
    rw [h.growTo_eq, hstate]

theorem grown_state (h : TableInv l) (hg : Grown epollAdapter addr l l') :
    l'.state = l.state := by rw [grown_eq h hg]

theorem KernelOk.grown (h : RegistrationInv l) (hg : Grown epollAdapter addr l l') :
    KernelOk l' := by
  obtain ⟨s, hs, hok⟩ := h.kernel
  rw [grown_eq h.table hg]
  exact ⟨s, hs, hok⟩

theorem RegistrationInv.effect {b : Bool} (h : RegistrationInv l)
    (he : TableEffect epollAdapter env l c b l') : RegistrationInv l' := by
  obtain ⟨s, hs, hint⟩ := h.kernel
  refine ⟨h.table.effect he, he.state_inv h.table hs hint (fun _ => hint) ?_ ?_ ?_⟩
  · intro s i mask cb clientData hint hmask hok
    have hgrant : env.sys = true := (hint.addEvent_spec _ _ env.sys).1.symm.trans hok
    show InterestOk _ (loopyInternalAddEvent env.sys _ _ _ _).2
    rw [hgrant]
    exact hint.addEvent_granted _ _ hmask _ _
  · intro s i mask hint hok
    have hgrant : env.sys = false := (hint.addEvent_spec _ _ env.sys).1.symm.trans hok
    show InterestOk _ (loopyInternalAddEvent env.sys _ _ _ _).2
    rw [hgrant]
    exact (hint.addEvent_refused _ _).2
  · intro i mask _ hmask
    exact hint.delEvent _ _ hmask

theorem RegistrationInv.fresh {n : ℕ} (hn : 1 ≤ n) (hn31 : n < 2 ^ 31) (addr : ℕ) :
    RegistrationInv (LoopyLoop.fresh epollAdapter n addr) :=
  ⟨.fresh hn hn31 addr, _, rfl, fun _ => rfl, fun _ hc => absurd hc List.not_mem_nil⟩

/-! ## Runs of table operations -/

/-- One table operation with its surroundings. -/
abbrev TableInput := TableCall × Env Bool

/-- A table operation as a step, forgetting what it returns. -/
def tableStep (l : LoopyLoop EpollState) (i : TableInput) : Option (LoopyLoop EpollState) :=
  (i.1.perform epollAdapter i.2 l).map Prod.snd

/-- Nothing has changed but possibly the size and with it the address of the tables. -/
def Unchanged (l l' : LoopyLoop EpollState) : Prop :=
  (∃ s s', l.state = some s ∧ l'.state = some s' ∧ s'.interest = s.interest ∧
    l' = { l with setSize := l'.setSize, eventsPtr := l'.eventsPtr, state := l'.state }) ∧
  l.setSize ≤ l'.setSize ∧ (l'.setSize = l.setSize → l'.eventsPtr = l.eventsPtr)

theorem Unchanged.grown (h : RegistrationInv l) (hg : Grown epollAdapter addr l l')
    (s' : EpollState) (hint : ∀ s, l.state = some s → s'.interest = s.interest) :
    Unchanged l { l' with state := some s' } := by
  obtain ⟨s, hs, -⟩ := h.kernel
  refine ⟨⟨s, s', hs, rfl, hint s hs, ?_⟩, hg.setSize_le, ?_⟩
  · conv_lhs => rw [grown_eq h.table hg]
  · rcases hg with rfl | ⟨n, hn, _, rfl⟩
    · exact fun _ => rfl
    · intro heq
      exact absurd heq (by show n ≠ l.setSize; omega)

/-- A call that returns `false` has changed nothing but possibly the size. -/
theorem TableEffect.unchanged (h : RegistrationInv l)
    (he : TableEffect epollAdapter env l c false l') : Unchanged l l' := by
  obtain ⟨s, hs, hok⟩ := h.kernel
  cases he with
  | refuse hc hr hg hi hs₁ hrefused =>
    obtain ⟨s', hs', hint⟩ := KernelOk.grown h hg
    obtain rfl : _ = s' := Option.some.inj (hs₁.symm.trans hs')
    have hgrant : env.sys = false := (hint.addEvent_spec _ _ env.sys).1.symm.trans hrefused
    refine Unchanged.grown h hg _ fun s hs => ?_
    obtain rfl := Option.some.inj (hs₁.symm.trans ((grown_state h.table hg).trans hs))
    show (loopyInternalAddEvent env.sys _ _ _ _).2.interest = _
    rw [hgrant]
    exact (hint.addEvent_refused _ _).1
  | taken _ hg =>
    have hstate : l'.state = some s := (grown_state h.table hg).trans hs
    have hun := Unchanged.grown h hg s fun s₁ hs₁ => by rw [Option.some.inj (hs.symm.trans hs₁)]
    rwa [← hstate] at hun

theorem tableStep_inv (l : LoopyLoop EpollState) (i : TableInput) (l' : LoopyLoop EpollState)
    (h : RegistrationInv l) (hstep : tableStep l i = some l') :
    RegistrationInv l' := by
  obtain ⟨⟨b, l₁⟩, hperf, rfl⟩ := Option.map_eq_some_iff.mp hstep
  exact h.effect (perform_inv hperf)

/-- **Registration invariant.** From `loopyInit`, after every sequence of table calls, the
kernel's interest set is the mask table and was changed only by proper `epoll_ctl` calls,
the heap holds the registered descriptors, `maxfd` is the largest of them and within the
table; every further call returns, and one that returns `false` changes nothing but
possibly the size of the tables. -/
theorem registration_invariant (n : ℕ) (hn : 1 ≤ n) (hn31 : n < 2 ^ 31) (addr : ℕ) :
    ∃ l₀, loopyInit epollAdapter .zero n addr = some (true, l₀) ∧
      ∀ is l, Run tableStep (fun l i => i.1.Admissible l) l₀ is l →
        KernelOk l ∧ HeapOk l ∧ MaxfdOk l ∧ -1 ≤ l.maxfd ∧ l.maxfd < l.setSize ∧
        ∀ (c : TableCall) env, c.Admissible l → ∃ b l', c.perform epollAdapter env l = some (b, l') ∧
          (b = false → Unchanged l l') := by
  refine ⟨_, loopyInit_zero hn addr false, fun is l hrun => ?_⟩
  have hinv : RegistrationInv l :=
    hrun.invariant (fun l i l' h _ => tableStep_inv l i l' h) (.fresh hn hn31 addr)
  have hmax := hinv.table.maxfdOk
  have hlow : -1 ≤ l.maxfd := by
    rcases hmax with ⟨h, -⟩ | ⟨m, h, -⟩ <;> omega
  refine ⟨hinv.kernel, hinv.table.heapOk, hmax, hlow, hinv.table.sized.maxfd_lt, ?_⟩
  intro c env hc
  obtain ⟨s, hs, -⟩ := hinv.kernel
  obtain ⟨⟨b, l'⟩, hperf⟩ :=
    Option.isSome_iff_exists.mp (perform_total (A := epollAdapter) env hinv.table.sized hs c hc)
  refine ⟨b, l', hperf, ?_⟩
  rintro rfl
  exact TableEffect.unchanged hinv (perform_inv hperf)

/-- A registration that grows the tables, a refused one, a second direction, a partial and a
full unregistration. -/
def sampleCalls : List TableInput :=
  [(.registerRead 3 5 9, ⟨11, true⟩), (.registerWrite 9 6 8, ⟨12, false⟩),
    (.registerWriteIfNoneExists 3 6 8, ⟨0, true⟩), (.registerRead 2 5 9, ⟨0, true⟩),
    (.unregisterRead 3, ⟨0, true⟩), (.unregisterReadWrite 2, ⟨0, true⟩)]

theorem registration_invariant_run :
    ∃ l₀ l, loopyInit epollAdapter .zero 1 7 = some (true, l₀) ∧
      Run tableStep (fun l i => i.1.Admissible l) l₀ sampleCalls l ∧
      (l.maxfd, l.setSize) = (3, 16) ∧ KernelOk l ∧ HeapOk l ∧ MaxfdOk l := by
  obtain ⟨l₀, h₀, hall⟩ := registration_invariant 1 (by decide) (by decide) 7
  obtain rfl : LoopyLoop.fresh epollAdapter 1 7 = l₀ :=
    (Prod.mk.inj (Option.some.inj ((loopyInit_zero le_rfl 7 false).symm.trans h₀))).2
  have hexec : (exec tableStep (fun l i => i.1.Admissible l)
      (LoopyLoop.fresh epollAdapter 1 7) sampleCalls).map (fun l => (l.maxfd, l.setSize)) =
        some (3, 16) := by decide +kernel
  obtain ⟨l, hrun, hsizes⟩ := Run.of_exec_map hexec
  obtain ⟨hk, hh, hm, -⟩ := hall _ _ hrun
  exact ⟨_, l, h₀, hrun, hsizes, hk, hh, hm⟩

end Loopy.Epoll
