import Loopy.Epoll.Registration
import Loopy.EventLoop.Transitions

/-!
# The event loop on epoll

What a poll of the epoll adapter reports, and that it keeps the registration invariant.
-/

namespace Loopy.Epoll

open Loopy.EventLoop Loopy.Lib

/-- The event loop on epoll. -/
abbrev epollStep := Machine.step (π := List EpollEvent) epollAdapter loopyInternalPoll

/-- One interaction of the event loop on epoll. -/
abbrev EpollInput := Input Bool (List EpollEvent)

/-- User code with a loop of `loopyInit` (or `loopyNew`) for `n` descriptors. -/
def epollStart (n addr : ℕ) (allocated : Bool) : Machine EpollState :=
  .start { LoopyLoop.fresh epollAdapter n addr with allocated := allocated }

/-! ## What a poll reports -/

theorem epollWait_length (s : EpollState) (maxevents : ℕ) (ready : List EpollEvent) :
    (epollWait s maxevents ready).length ≤ maxevents := by
  unfold epollWait
  rw [List.length_take]
  exact min_le_left _ _

variable {s : EpollState} {events : BitVec 32} {l : LoopyLoop EpollState}

/-- A reported event is of a descriptor in the interest set, not empty, and within the
interest but for `EPOLLERR` and `EPOLLHUP`. -/
theorem mem_epollWait {maxevents : ℕ} {ready : List EpollEvent} {e : EpollEvent}
    (he : e ∈ epollWait s maxevents ready) :
    ∃ interest, s.interest e.1 = some interest ∧ e.2 ≠ 0#32 ∧
      e.2 &&& (interest ||| EPOLLERR ||| EPOLLHUP) = e.2 := by
  obtain ⟨e₀, -, hrep⟩ := List.mem_filterMap.mp (List.mem_of_mem_take he)
  unfold reported at hrep
  cases hint : s.interest e₀.1 with
  | none => simp [hint] at hrep
  | some interest =>
    simp only [hint] at hrep
    by_cases hzero : e₀.2 &&& (interest ||| EPOLLERR ||| EPOLLHUP) = 0#32
    · rw [if_pos hzero] at hrep; cases hrep
    · rw [if_neg hzero] at hrep
      cases hrep
      refine ⟨interest, hint, hzero, ?_⟩
      rw [BitVec.and_assoc, BitVec.and_self]

theorem firedMask_read (events : BitVec 32) :
    (firedMask events).read = hasBit events EPOLLIN := by
  unfold firedMask
  cases hasBit events EPOLLIN <;> cases hasBit events EPOLLOUT <;>
    cases hasBit events EPOLLERR <;> cases hasBit events EPOLLHUP <;> rfl

theorem firedMask_write (events : BitVec 32) :
    (firedMask events).write =
      (hasBit events EPOLLOUT || hasBit events EPOLLERR || hasBit events EPOLLHUP) := by
  unfold firedMask
  cases hasBit events EPOLLIN <;> cases hasBit events EPOLLOUT <;>
    cases hasBit events EPOLLERR <;> cases hasBit events EPOLLHUP <;> rfl

theorem hasBit_false {bit : BitVec 32} (h : hasBit events bit = false) : events &&& bit = 0#32 := by
  simpa [hasBit] using h

/-- `EPOLLIN` is reported only where reading is asked for. -/
theorem read_of_reported {mask : LoopyAction}
    (hsub : events &&& (epollEvents mask ||| EPOLLERR ||| EPOLLHUP) = events)
    (hin : hasBit events EPOLLIN = true) : mask.read = true := by
  by_contra hread
  have hdisj : (epollEvents mask ||| EPOLLERR ||| EPOLLHUP) &&& EPOLLIN = 0#32 := by
    obtain ⟨read, write⟩ := mask
    cases read <;> cases write <;> first | exact absurd rfl hread | decide
  have hzero : events &&& EPOLLIN = 0#32 := by
    rw [← hsub, BitVec.and_assoc, hdisj, BitVec.and_zero]
  rw [hasBit, hzero] at hin
  cases hin

/-- What is reported without `EPOLLIN` becomes a write event. -/
theorem write_of_reported {mask : LoopyAction}
    (hsub : events &&& (epollEvents mask ||| EPOLLERR ||| EPOLLHUP) = events)
    (hne : events ≠ 0#32) (hin : hasBit events EPOLLIN = false) :
    (firedMask events).write = true := by
  by_contra hwrite
  rw [firedMask_write, Bool.not_eq_true, Bool.or_eq_false_iff, Bool.or_eq_false_iff] at hwrite
  obtain ⟨⟨hout, herr⟩, hhup⟩ := hwrite
  have hmask : events &&& epollEvents mask = 0#32 := by
    obtain ⟨read, write⟩ := mask
    cases read <;> cases write <;>
      simp [epollEvents, BitVec.and_or_distrib_left, hasBit_false hin, hasBit_false hout]
  apply hne
  rw [← hsub, BitVec.and_or_distrib_left, BitVec.and_or_distrib_left, hmask, hasBit_false herr,
    hasBit_false hhup]
  rfl

/-- Every descriptor a poll reports is registered. -/
theorem poll_registered (h : InterestOk l.events s) {ready : List EpollEvent} {setSize : ℕ}
    {ev : LoopyFiredEvent} (hev : ev ∈ (loopyInternalPoll ready setSize s).1) :
    (l.events ev.fd).mask ≠ .NONE := by
  obtain ⟨e, he, rfl⟩ := List.mem_map.mp hev
  obtain ⟨interest, hint, -, -⟩ := mem_epollWait he
  intro hnone
  rw [h.interest, hnone, interestOf, if_pos rfl] at hint
  cases hint

/-- The registration invariant is about the tables only. -/
theorem RegistrationInv.congr {l' : LoopyLoop EpollState} (h : RegistrationInv l)
    (heq : l' = { l with
      before := l'.before, after := l'.after, timer := l'.timer, stop := l'.stop,
      processingDepth := l'.processingDepth, deleting := l'.deleting,
      pendingDelete := l'.pendingDelete, allocated := l'.allocated }) :
    RegistrationInv l' := by
  obtain ⟨⟨⟨h1, h2, h3⟩, h4, h5, h6, h7, h8⟩, s, hs, hint⟩ := h
  rw [heq]
  exact ⟨⟨⟨h1, h2, h3⟩, h4, h5, h6, h7, h8⟩, s, hs, hint⟩

/-- A poll keeps the registration invariant: it writes to slots of the table only. -/
theorem RegistrationInv.polled (h : RegistrationInv l) (hs : l.state = some s)
    (ready : List EpollEvent) :
    RegistrationInv
      { l with
        state := some (loopyInternalPoll ready l.setSize s).2
        fired := Machine.writeFired l.fired (loopyInternalPoll ready l.setSize s).1 } := by
  obtain ⟨⟨⟨h1, h2, h3⟩, h4, h5, h6, h7, h8⟩, hkernel⟩ := h
  refine ⟨⟨⟨h1, h2, h3⟩, h4, h5, h6, h7, fun i hi => ?_⟩, ?_⟩
  · have hlen : (loopyInternalPoll ready l.setSize s).1.length ≤ i := by
      have hle := epollWait_length s l.setSize ready
      have hi' : l.setSize ≤ i := hi
      simp only [loopyInternalPoll, List.length_map]
      omega
    show ((loopyInternalPoll ready l.setSize s).1[i]?).getD (l.fired i) = _
    rw [List.getElem?_eq_none hlen]
    exact h8 i hi
  · obtain ⟨s', hs', hint⟩ := hkernel
    obtain rfl := Option.some.inj (hs.symm.trans hs')
    exact ⟨s, rfl, hint⟩

end Loopy.Epoll
