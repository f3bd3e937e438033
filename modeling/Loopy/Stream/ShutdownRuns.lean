import Loopy.Stream.Shutdown

/-!
# `loopyStream.c`: every shutdown callback is called once

A call that has returned true and had a callback has been answered, or its callback is in the slot
and waits (`ShutdownInv`). `shutdown` is called while the stream is writable, and behind it the
stream is not.
-/

namespace Loopy.Stream

open Loopy.Lib

/-! ## The ledger -/

/-- Every write that was accepted before the call is completed when its callback is called. -/
def Shutdowns.Settled (s : Shutdowns) (d : ShutdownDone) : Prop :=
  d.issued = d.failed + 1 ∧
    ∃ c, s.calls[d.call]? = some c ∧ c.cb = true ∧ ∀ m < c.accepted, m ∈ d.completed

structure ShutdownInv (s : Shutdowns) : Prop where
  issued : s.stream.writable = true → s.issued = s.failed
  pending : s.stream.shutdownPending = true → s.stream.shutdownCb = true →
    s.stream.writable = true
  slot : s.stream.shutdownPending = true →
    ∃ c, s.calls[s.slot]? = some c ∧ c.cb = s.stream.shutdownCb ∧ s.times s.slot = 0
  owed : ∀ n, s.Owed n →
    s.times n = 1 ∨ (s.times n = 0 ∧ s.slot = n ∧ s.stream.shutdownPending = true)
  closing : s.stream.closing = true → ∀ n, s.Owed n → s.times n = 1
  accepted : ∀ c ∈ s.calls, c.accepted ≤ s.stream.allocated
  done : ∀ d ∈ s.done, s.Settled d

theorem allocated_le {s s' : LoopyStream} {a : Action} (hstep : step s a = some s') :
    s.allocated ≤ s'.allocated := by
  cases step_effect hstep with
  | same h => exact Nat.le_of_eq h.allocated.symm
  | tries data huser hempty h => exact Nat.le_of_eq h.allocated.symm
  | enqueues data fds cb huser haccepts hclosing hdata hfds h =>
    have hallocated := h.allocated
    rw [LoopyStream.enqueue_allocated] at hallocated
    omega
  | takes n bytes hpc hhead hbytes hrest => exact Nat.le_refl s.allocated
  | completes n bytes hpc hhead hbytes hrest => exact Nat.le_refl s.allocated
  | begins closing ha hdraining h => exact Nat.le_of_eq h.allocated.symm
  | drains closing n hpc => exact Nat.le_refl s.allocated
  | ends closing hpc =>
    rw [LoopyStream.drainStep_none]
    split
    · exact Nat.le_refl s.allocated
    · exact Nat.le_of_eq s.emptied.updateWriteWatcher_same.allocated.symm

section ledger

variable {s : Shutdowns} {stream : LoopyStream} {n : ℕ} {cb returned : Bool}

theorem Shutdowns.times_invoke (s : Shutdowns) (n : ℕ) :
    s.invoke.times n = s.times n + if s.slot = n then 1 else 0 := by
  simp [times, invoke, List.count_append, List.count_singleton]

theorem Shutdowns.calls_writeSlot {c : ShutdownCall} (h : s.calls[n]? = some c) :
    (s.writeSlot cb returned).calls[n]? = some c := by
  have hn : n < s.calls.length := (List.getElem?_eq_some_iff.mp h).1
  rw [← h]
  exact List.getElem?_append_left hn

theorem Shutdowns.calls_slot (s : Shutdowns) (cb returned : Bool) :
    (s.writeSlot cb returned).calls[s.calls.length]? =
      some { cb, returned, accepted := s.stream.allocated } := List.getElem?_concat_length

/-- Who is owed a callback after a call was before, or is the call. -/
theorem Shutdowns.owed_writeSlot (h : (s.writeSlot cb returned).Owed n) :
    s.Owed n ∨ (n = s.calls.length ∧ returned = true ∧ cb = true) := by
  obtain ⟨c, hc, hreturned, hcb⟩ := h
  have hn : n < s.calls.length + 1 := by
    have hlt := (List.getElem?_eq_some_iff.mp hc).1
    rwa [writeSlot, List.length_append] at hlt
  rcases Nat.lt_succ_iff_lt_or_eq.mp hn with hlt | rfl
  · refine .inl ⟨c, ?_, hreturned, hcb⟩
    rw [← hc]
    exact (List.getElem?_append_left hlt).symm
  · rw [calls_slot] at hc
    cases hc
    exact .inr ⟨rfl, hreturned, hcb⟩

theorem Shutdowns.Settled.writeSlot {d : ShutdownDone} (h : s.Settled d) :
    (s.writeSlot cb returned).Settled d := by
  obtain ⟨hissued, c, hc, hcb, hcompleted⟩ := h
  exact ⟨hissued, c, calls_writeSlot hc, hcb, hcompleted⟩

namespace ShutdownInv

/-- A call that is made now has not been answered. -/
theorem times_fresh (h : ShutdownInv s) : s.times s.calls.length = 0 := by
  refine List.count_eq_zero.mpr fun hmem => ?_
  obtain ⟨d, hd, hcall⟩ := List.mem_map.mp hmem
  obtain ⟨-, c, hc, -⟩ := h.done d hd
  have hlt := (List.getElem?_eq_some_iff.mp hc).1
  omega

/-- When no callback waits, all were called. -/
theorem served (h : ShutdownInv s) (hwaits : s.waits = false) (hn : s.Owed n) :
    s.times n = 1 := by
  rcases h.owed n hn with hone | ⟨-, rfl, hpending⟩
  · exact hone
  · obtain ⟨c, hc, hreturned, hcb⟩ := hn
    obtain ⟨c', hc', hslot, -⟩ := h.slot hpending
    rw [hc] at hc'
    cases hc'
    rw [Shutdowns.waits, hpending, ← hslot, hcb, hc, Option.any_some, hreturned] at hwaits
    cases hwaits

theorem accepted_writeSlot (h : ShutdownInv s) (cb returned : Bool) :
    ∀ c ∈ (s.writeSlot cb returned).calls, c.accepted ≤ s.stream.allocated := by
  intro c hc
  rcases List.mem_append.mp hc with hold | hnew
  · exact h.accepted c hold
  · rw [List.mem_singleton.mp hnew]

theorem keeps (h : ShutdownInv s) (hsame : SameShutdown s.stream stream)
    (hallocated : s.stream.allocated ≤ stream.allocated) :
    ShutdownInv { s with stream } where
  issued hwritable := h.issued (hsame.writable.symm.trans hwritable)
  pending hpending hcb := by
    rw [hsame.writable]
    exact h.pending (hsame.shutdownPending.symm.trans hpending) (hsame.shutdownCb.symm.trans hcb)
  slot hpending := by
    obtain ⟨c, hc, hcb, htimes⟩ := h.slot (hsame.shutdownPending.symm.trans hpending)
    exact ⟨c, hc, hcb.trans hsame.shutdownCb.symm, htimes⟩
  owed n hn := by
    rw [hsame.shutdownPending]
    exact h.owed n hn
  closing hclosing := h.closing (hsame.closing.symm.trans hclosing)
  accepted c hc := Nat.le_trans (h.accepted c hc) hallocated
  done := h.done

/-- `loopyStreamClose` is called when no callback waits. -/
theorem closes (h : ShutdownInv s) (hwaits : s.waits = false)
    (hsame : SameShutdown { s.stream with closing := true } stream)
    (hallocated : s.stream.allocated ≤ stream.allocated) :
    ShutdownInv { s with stream } := by
  have hclosing : ShutdownInv { s with stream := { s.stream with closing := true } } :=
    { h with closing := fun _ n hn => h.served hwaits hn }
  exact hclosing.keeps hsame hallocated

theorem defers (h : ShutdownInv s) (hwaits : s.waits = false)
    (hclosing : s.stream.closing = true → cb = false) (hwritable : s.stream.writable = true) :
    ShutdownInv { s.writeSlot cb true with
      stream := { s.stream with shutdownCb := cb, shutdownPending := true } } where
  issued _ := h.issued hwritable
  pending _ _ := hwritable
  slot _ := ⟨_, s.calls_slot cb true, rfl, h.times_fresh⟩
  owed n hn := by
    rcases Shutdowns.owed_writeSlot hn with hold | ⟨rfl, -, -⟩
    · exact .inl (h.served hwaits hold)
    · exact .inr ⟨h.times_fresh, rfl, rfl⟩
  closing hc n hn := by
    rcases Shutdowns.owed_writeSlot hn with hold | ⟨-, -, hcb⟩
    · exact h.served hwaits hold
    · rw [hclosing hc] at hcb
      cases hcb
  accepted := h.accepted_writeSlot cb true
  done d hd := (h.done d hd).writeSlot

theorem fails (h : ShutdownInv s) (hwaits : s.waits = false)
    (hwritable : s.stream.writable = true) :
    ShutdownInv { (s.writeSlot cb false).issue with
      failed := s.failed + 1, stream := { s.stream with shutdownCb := cb } } where
  issued _ := congrArg (· + 1) (h.issued hwritable)
  pending _ _ := hwritable
  slot _ := ⟨_, s.calls_slot cb false, rfl, h.times_fresh⟩
  owed n hn := by
    rcases Shutdowns.owed_writeSlot hn with hold | ⟨-, hreturned, -⟩
    · exact .inl (h.served hwaits hold)
    · cases hreturned
  closing _ n hn := by
    rcases Shutdowns.owed_writeSlot hn with hold | ⟨-, hreturned, -⟩
    · exact h.served hwaits hold
    · cases hreturned
  accepted := h.accepted_writeSlot cb false
  done d hd := (h.done d hd).writeSlot

end ShutdownInv

/-- The callback in the slot is called when every write is completed and the system call was made
once. -/
theorem Shutdowns.Settled.invoke {c : ShutdownCall} (hdone : ∀ d ∈ s.done, s.Settled d)
    (hissued : s.issued = s.failed + 1) (hc : s.calls[s.slot]? = some c) (hcb : c.cb = true)
    (hcompleted : ∀ m < c.accepted, m ∈ s.stream.completed.map Prod.fst) :
    ∀ d ∈ s.invoke.done, s.invoke.Settled d := by
  intro d hd
  rcases List.mem_append.mp hd with hold | hnew
  · exact hdone d hold
  · rw [List.mem_singleton.mp hnew]
    exact ⟨hissued, c, hc, hcb, hcompleted⟩

theorem ShutdownInv.succeeds (h : ShutdownInv s) (hqueue : QueueInv s.stream)
    (hall : s.stream.completed.length = s.stream.allocated) (hwaits : s.waits = false)
    (hpending : s.stream.shutdownPending = true → cb = false)
    (hwritable : s.stream.writable = true) (depth : ℕ) :
    ShutdownInv { if cb then (s.writeSlot cb true).issue.invoke else (s.writeSlot cb true).issue
      with stream := { s.stream with shutdownCb := cb, writable := false, depth } } := by
  have hissued : s.issued + 1 = s.failed + 1 := congrArg (· + 1) (h.issued hwritable)
  cases cb with
  | false =>
    -- nobody is told
    refine ⟨nofun, fun _ hcb => ?_, fun _ => ?_, fun n hn => ?_, fun _ n hn => ?_,
      h.accepted_writeSlot false true, fun d hd => (h.done d hd).writeSlot⟩
    · cases hcb
    · exact ⟨_, s.calls_slot false true, rfl, h.times_fresh⟩
    · rcases Shutdowns.owed_writeSlot hn with hold | ⟨-, -, hcb⟩
      · exact .inl (h.served hwaits hold)
      · cases hcb
    · rcases Shutdowns.owed_writeSlot hn with hold | ⟨-, -, hcb⟩
      · exact h.served hwaits hold
      · cases hcb
  | true =>
    have htimes : ∀ n, (s.writeSlot true true).Owed n →
        (s.writeSlot true true).issue.invoke.times n = 1 := by
      intro n hn
      have hfresh := h.times_fresh
      have hinvoke := (s.writeSlot true true).issue.times_invoke n
      have hold : (s.writeSlot true true).issue.times n = s.times n := rfl
      have hslot : (s.writeSlot true true).issue.slot = s.calls.length := rfl
      rw [hold, hslot] at hinvoke
      rcases Shutdowns.owed_writeSlot hn with hbefore | ⟨rfl, -, -⟩
      · have hone := h.served hwaits hbefore
        have hne : s.calls.length ≠ n := by
          rintro rfl
          omega
        rw [if_neg hne] at hinvoke
        omega
      · rw [if_pos rfl] at hinvoke
        omega
    refine ⟨nofun, fun hp => ?_, fun hp => ?_, fun n hn => .inl (htimes n hn),
      fun _ n hn => htimes n hn, h.accepted_writeSlot true true, ?_⟩
    · cases hpending hp
    · cases hpending hp
    · refine Shutdowns.Settled.invoke (s := (s.writeSlot true true).issue)
        (fun d hd => (h.done d hd).writeSlot) hissued (s.calls_slot true true) rfl fun m hm => ?_
      refine hqueue.mem_completed.mpr ?_
      rw [hall]
      exact hm

/-- `streamWriteCallback` shuts the stream down behind the queue. -/
theorem ShutdownInv.finishes (h : ShutdownInv s) (hqueue : QueueInv s.stream)
    (hall : s.stream.completed.length = s.stream.allocated)
    (hpending : s.stream.shutdownPending = true) :
    ShutdownInv { if s.stream.shutdownCb then s.issue.invoke else s.issue with
      stream := { s.stream with writable := false, shutdownPending := false } } := by
  obtain ⟨c, hc, hcb, hnone⟩ := h.slot hpending
  cases hslot : s.stream.shutdownCb with
  | false =>
    have hserved : ∀ n, s.Owed n → s.times n = 1 := by
      intro n hn
      refine h.served ?_ hn
      rw [Shutdowns.waits, hslot, Bool.and_false, Bool.false_and]
    exact ⟨nofun, nofun, nofun, fun n hn => .inl (hserved n hn), fun _ n hn => hserved n hn,
      h.accepted, h.done⟩
  | true =>
    have htimes : ∀ n, s.Owed n → s.issue.invoke.times n = 1 := by
      intro n hn
      have hinvoke := s.issue.times_invoke n
      have hold : s.issue.times n = s.times n := rfl
      have hsame : s.issue.slot = s.slot := rfl
      rw [hold, hsame] at hinvoke
      by_cases heq : s.slot = n
      · rw [if_pos heq, ← heq, hnone] at hinvoke
        rw [← heq]
        exact hinvoke
      · rw [if_neg heq] at hinvoke
        rcases h.owed n hn with hone | ⟨-, hslot, -⟩
        · omega
        · exact absurd hslot heq
    have hwritable := h.pending hpending hslot
    have hissued : s.issued + 1 = s.failed + 1 := congrArg (· + 1) (h.issued hwritable)
    refine ⟨nofun, nofun, nofun, fun n hn => .inl (htimes n hn), fun _ n hn => htimes n hn,
      h.accepted, ?_⟩
    refine Shutdowns.Settled.invoke (s := s.issue) h.done hissued hc (hcb.trans hslot) fun m hm => ?_
    refine hqueue.mem_completed.mpr ?_
    have hle := h.accepted c (List.mem_of_getElem? hc)
    omega

end ledger

/-! ## Runs -/

section runs

variable {s s' : Shutdowns} {a : Action}

theorem Shutdowns.misses_shutdown {ok cb : Bool} (hfd : s.stream.fd ≠ none)
    (hwritable : s.stream.writable = true) (h : s.misses (.shutdown ok cb) = false) :
    s.waits = false ∧ (s.stream.closing = true → cb = false) ∧
      (s.stream.shutdownPending = true → s.stream.writeHead = none → ok = true → cb = false) := by
  have hsome : s.stream.fd.isSome = true := Option.isSome_iff_ne_none.mpr hfd
  rw [misses, hsome, hwritable, Bool.and_self, Bool.true_and, Bool.or_eq_false_iff,
    Bool.or_eq_false_iff] at h
  obtain ⟨⟨hwaits, hclosing⟩, hpending⟩ := h
  refine ⟨hwaits, fun hc => ?_, fun hp hhead hok => ?_⟩
  · rw [hc, Bool.true_and] at hclosing
    exact hclosing
  · rw [hp, hhead, hok] at hpending
    exact hpending

theorem ShutdownInv.step (h : ShutdownInv s) (hplace : PcInv s.stream) (hqueue : QueueInv s.stream)
    (hstays : HeadStays s.stream) (hok : s.misses a = false) (hstep : s.step a = some s') :
    ShutdownInv s' := by
  obtain ⟨stream, hstream, hcases⟩ := shutdownStep hstep
  have hallocated := allocated_le hstream
  cases hcases with
  | defers ok cb ha hfd hwritable hhead hs =>
    subst ha hs
    obtain ⟨hwaits, hclosing, -⟩ := Shutdowns.misses_shutdown hfd hwritable hok
    exact h.defers hwaits hclosing hwritable
  | fails cb ha hfd hwritable hs =>
    subst ha hs
    obtain ⟨hwaits, -, -⟩ := Shutdowns.misses_shutdown hfd hwritable hok
    exact h.fails hwaits hwritable
  | succeeds cb ha hfd huser hwritable hhead hs =>
    subst ha hs
    obtain ⟨hwaits, -, hpending⟩ := Shutdowns.misses_shutdown hfd hwritable hok
    have hall := hstays.completed hplace hqueue huser hhead
    exact h.succeeds hqueue hall hwaits (fun hp => hpending hp hhead rfl) hwritable _
  | finishes ha hpc hhead hpending hsame =>
    have hdraining : s.stream.draining = false := by rw [LoopyStream.draining, hpc]
    have hall := hqueue.completed_of_empty hdraining hhead
    exact (h.finishes hqueue hall hpending).keeps hsame hallocated
  | closes cb ha hopen hsame =>
    subst ha
    rw [Shutdowns.misses, hopen, Bool.not_false, Bool.true_and] at hok
    exact h.closes hok hsame hallocated
  | keeps hsame => exact h.keeps hsame hallocated

theorem ShutdownInv.new {stream : LoopyStream} (h : Created stream) :
    ShutdownInv (.new stream) := by
  refine ⟨fun _ => rfl, ?_, ?_, ?_, ?_, nofun, nofun⟩
  · cases h <;> nofun
  · cases h <;> nofun
  · rintro n ⟨c, hc, -⟩
    cases hc
  · rintro - n ⟨c, hc, -⟩
    cases hc

theorem HeadStays.new {stream : LoopyStream} (h : Created stream) : HeadStays stream := by
  cases h <;> nofun

theorem ShutdownInv.law (h : ShutdownInv s) (hplace : PcInv s.stream) : ShutdownLaw s where
  once n hn := by
    rcases h.owed n hn with hone | ⟨hzero, -⟩
    · exact Nat.le_of_eq hone
    · exact hzero ▸ Nat.zero_le 1
  closed hpc := h.closing (hplace.closes (by rw [hpc]; rfl))
  issued d hd := (h.done d hd).1
  completed d hd := (h.done d hd).2

/-- **Every shutdown callback is called once, after the one `shutdown` and after the writes**, on
every run in which no callback is missed and no write is lost. -/
theorem shutdown_called_once {start : LoopyStream} {as : List Action} {s : Shutdowns}
    (hstart : Created start) (hrun : Run Shutdowns.step Graceful (.new start) as s) :
    ShutdownLaw s := by
  have hinv : (PcInv s.stream ∧ QueueInv s.stream ∧ HeadStays s.stream) ∧ ShutdownInv s := by
    refine hrun.invariant
      (P := fun s => (PcInv s.stream ∧ QueueInv s.stream ∧ HeadStays s.stream) ∧ ShutdownInv s) ?_
      ⟨⟨hstart.place, hstart.queue, .new hstart⟩, .new hstart⟩
    rintro s a s' ⟨⟨hplace, hqueue, hstays⟩, hinv⟩ hok hstep
    obtain ⟨stream, hstream, hs'⟩ := Option.map_eq_some_iff.mp hstep
    refine ⟨?_, hinv.step hplace hqueue hstays hok.2 hstep⟩
    rw [← hs']
    exact ⟨hplace.step hstream, hqueue.step hplace hok.1 hstream, hstays.step hplace hstream⟩
  exact hinv.2.law hinv.1.1

end runs

/-- A shutdown that fails, two behind a write, the first of them without a callback, and the end of
the stream. -/
def shutdownRun : List Action :=
  [.shutdown false true, .write [1, 2] true true, .shutdown true false, .shutdown true true,
    .writable, .kernel (.took 1), .kernel .again, .writable, .kernel (.took 1), .ret, .run, .ret,
    .close false, .run]

theorem shutdown_called_once_shutdownRun :
    ∃ s, Run Shutdowns.step Graceful (.new (.fromFd 3 .tcp)) shutdownRun s ∧ ShutdownLaw s ∧
      s.stream.pc = .closed ∧ s.Owed 2 ∧ s.done = [⟨2, 2, 1, [0]⟩] := by
  have hexec : (exec Shutdowns.step Graceful (.new (.fromFd 3 .tcp)) shutdownRun).map
      (fun s => (s.stream.pc, s.calls, s.done)) =
      some (.closed, [⟨true, false, 0⟩, ⟨false, true, 1⟩, ⟨true, true, 1⟩],
        [⟨2, 2, 1, [0]⟩]) := by decide +kernel
  obtain ⟨s, hrun, hval⟩ := Run.of_exec_map hexec
  obtain ⟨hpc, hval⟩ := Prod.mk.inj hval
  obtain ⟨hcalls, hdone⟩ := Prod.mk.inj hval
  refine ⟨s, hrun, shutdown_called_once (.fromFd 3 .tcp) hrun, hpc, ?_, hdone⟩
  exact ⟨⟨true, true, 1⟩, by rw [hcalls]; rfl, rfl, rfl⟩
/-- A second call takes the slot of the first, which waits. -/
def overwrittenRun : List Action :=
  [.write [1] false true, .shutdown true true, .shutdown true true, .writable, .kernel (.took 1),
    .run, .ret, .close false, .run]

/-- The stream is closed while a callback waits. -/
def closedRun : List Action :=
  [.write [1] false true, .shutdown true true, .close false, .run, .run]

/-- A second call comes in the callback of the last write. -/
def twiceRun : List Action :=
  [.write [1] true true, .shutdown true true, .writable, .kernel (.took 1), .shutdown true true,
    .ret, .ret, .run]

/-- Two callbacks are never called though the stream is closed, and one is called twice, the second
time after two system calls. -/
theorem shutdown_missed :
    (∃ s, Run Shutdowns.step (fun _ _ => True) (.new (.fromFd 3 .tcp)) overwrittenRun s ∧
      s.stream.pc = .closed ∧ s.Owed 0 ∧ s.times 0 = 0 ∧ ¬ ShutdownLaw s) ∧
    (∃ s, Run Shutdowns.step (fun _ _ => True) (.new (.fromFd 3 .tcp)) closedRun s ∧
      s.stream.pc = .closed ∧ s.Owed 0 ∧ s.times 0 = 0 ∧ ¬ ShutdownLaw s) ∧
    ∃ s, Run Shutdowns.step (fun _ _ => True) (.new (.fromFd 3 .tcp)) twiceRun s ∧
      s.Owed 1 ∧ s.done = [⟨1, 1, 0, [0]⟩, ⟨1, 2, 0, [0]⟩] ∧ ¬ ShutdownLaw s := by
  refine ⟨?_, ?_, ?_⟩
  · have hexec : (exec Shutdowns.step (fun _ _ => True) (.new (.fromFd 3 .tcp)) overwrittenRun).map
        (fun s => (s.stream.pc, s.calls[0]?, s.times 0)) =
        some (.closed, some ⟨true, true, 1⟩, 0) := by decide +kernel
    obtain ⟨s, hs, hval⟩ := Run.of_exec_map hexec
    obtain ⟨hpc, hval⟩ := Prod.mk.inj hval
    obtain ⟨hcall, htimes⟩ := Prod.mk.inj hval
    have howed : s.Owed 0 := ⟨_, hcall, rfl, rfl⟩
    refine ⟨s, hs, hpc, howed, htimes, fun hlaw => ?_⟩
    have hone := hlaw.closed hpc 0 howed
    omega
  · have hexec : (exec Shutdowns.step (fun _ _ => True) (.new (.fromFd 3 .tcp)) closedRun).map
        (fun s => (s.stream.pc, s.calls[0]?, s.times 0)) =
        some (.closed, some ⟨true, true, 1⟩, 0) := by decide +kernel
    obtain ⟨s, hs, hval⟩ := Run.of_exec_map hexec
    obtain ⟨hpc, hval⟩ := Prod.mk.inj hval
    obtain ⟨hcall, htimes⟩ := Prod.mk.inj hval
    have howed : s.Owed 0 := ⟨_, hcall, rfl, rfl⟩
    refine ⟨s, hs, hpc, howed, htimes, fun hlaw => ?_⟩
    have hone := hlaw.closed hpc 0 howed
    omega
  · have hexec : (exec Shutdowns.step (fun _ _ => True) (.new (.fromFd 3 .tcp)) twiceRun).map
        (fun s => (s.calls[1]?, s.done)) =
        some (some ⟨true, true, 1⟩, [⟨1, 1, 0, [0]⟩, ⟨1, 2, 0, [0]⟩]) := by decide +kernel
    obtain ⟨s, hs, hval⟩ := Run.of_exec_map hexec
    obtain ⟨hcall, hdone⟩ := Prod.mk.inj hval
    have howed : s.Owed 1 := ⟨_, hcall, rfl, rfl⟩
    refine ⟨s, hs, howed, hdone, fun hlaw => ?_⟩
    have hone := hlaw.once 1 howed
    rw [Shutdowns.times, hdone] at hone
    revert hone
    decide

end Loopy.Stream
