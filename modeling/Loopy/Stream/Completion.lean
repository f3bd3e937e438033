import Loopy.Stream.Queue

/-!
# `loopyStream.c`: every write is completed once

A request leaves the queue when its last byte is taken, in the drain behind a write error, or in
the drain of `loopyStreamClose`; each of them calls user code that may write again. As long as no
write is accepted in the callback of the last request of an error drain (`NoneLost`), the list, its
count and its size describe the requests that are not completed, and none of those is left when
the stream is closed.
-/

namespace Loopy.Stream

open Loopy.Lib

/-- The callbacks that were called, with their status. -/
def LoopyStream.called (s : LoopyStream) : List (ℕ × Bool) :=
  s.completed.filter fun c => (s.req c.1).cb

/-- The requests on the list that begins at `writeHead`. -/
def LoopyStream.writeQueue (s : LoopyStream) : List ℕ := walk s.next s.allocated s.writeHead

/-- A stream whose writes are completed once each. -/
structure CompletionLaw (s : LoopyStream) : Prop where
  accepted : ∀ c ∈ s.completed, c.1 < s.allocated
  once : (s.called.map Prod.fst).Nodup
  closed : s.pc = .closed → ∀ n < s.allocated, (s.req n).cb = true → n ∈ s.called.map Prod.fst
  queue : s.draining = false →
    ∀ n, n ∈ s.writeQueue ↔ n < s.allocated ∧ n ∉ s.completed.map Prod.fst
  count : s.draining = false → s.writeQueueCount = s.writeQueue.length
  size : s.draining = false →
    s.writeQueueSize = (s.writeQueue.map fun n => (s.req n).unwritten.length).sum

/-- When the stream is closed no request is pending. -/
def Ended (s : LoopyStream) : Prop := s.pc = .closed → s.completed.length = s.allocated

variable {s s' : LoopyStream}

theorem Ended.same (hended : Ended s) (h : SameQueue s s') : Ended s' := by
  intro hclosed
  rw [h.completed, h.allocated]
  exact hended (h.closed hclosed)

theorem Ended.step {a : Action} (hplace : PcInv s) (hinv : QueueInv s) (hended : Ended s)
    (hstep : step s a = some s') : Ended s' := by
  cases step_effect hstep with
  | same h => exact hended.same h
  | tries data huser hempty h => exact Ended.same (s := s.tookDirectly data) hended h
  | enqueues data fds cb huser haccepts hclosing hdata hfds h =>
    -- a closed stream accepts nothing
    intro hclosed
    have hpc : s.pc = .closed := (s.enqueue_place data fds cb).pc.symm.trans (h.closed hclosed)
    have hset := hplace.closes (by rw [hpc]; rfl)
    rw [hclosing] at hset
    cases hset
  | takes n bytes hpc hhead hbytes hrest =>
    intro hclosed
    have hloop : s.pc = .closed := hclosed
    rw [hpc] at hloop
    cases hloop
  | completes n bytes hpc hhead hbytes hrest =>
    intro hclosed
    unfold LoopyStream.completeHead at hclosed
    dsimp only at hclosed
    split at hclosed <;> cases hclosed
  | begins closing ha hdraining h =>
    intro hclosed
    cases hclosed
  | drains closing n hpc =>
    intro hclosed
    unfold LoopyStream.drainStep at hclosed
    dsimp only at hclosed
    split at hclosed <;> cases hclosed
  | ends closing hpc =>
    -- the loop has come to the end of the list
    intro _
    have hnone : s.pending = none := by rw [LoopyStream.pending, hpc]
    have hqueued : s.queued = [] := hinv.chain.eq_none_iff.mp hnone
    have hlength := congrArg List.length hqueued
    rw [LoopyStream.queued, List.length_range', List.length_nil] at hlength
    have hle := hinv.le
    have hall : s.completed.length = s.allocated := by omega
    rw [LoopyStream.drainStep_none]
    split
    · exact hall
    · rw [s.emptied.updateWriteWatcher_same.completed, s.emptied.updateWriteWatcher_same.allocated]
      exact hall

/-! ## The law -/

section law

variable {s : LoopyStream}

variable {n : ℕ}

theorem QueueInv.mem_completed (hinv : QueueInv s) :
    n ∈ s.completed.map Prod.fst ↔ n < s.completed.length := by
  rw [hinv.inOrder, List.mem_range]

/-- Outside a drain the list from `writeHead` on is what is pending. -/
theorem QueueInv.writeQueue_eq (hinv : QueueInv s) (hdraining : s.draining = false) :
    s.writeQueue = s.queued := by
  have hchain := hinv.chain
  rw [LoopyStream.pending_of_not_draining hdraining] at hchain
  refine walk_eq hchain ?_
  rw [LoopyStream.queued, List.length_range']
  exact Nat.sub_le ..

theorem QueueInv.mem_queued (hinv : QueueInv s) :
    n ∈ s.queued ↔ n < s.allocated ∧ n ∉ s.completed.map Prod.fst := by
  have hle := hinv.le
  rw [hinv.mem_completed, LoopyStream.queued, List.mem_range'_1]
  omega

theorem QueueInv.law (hinv : QueueInv s) (hended : Ended s) : CompletionLaw s where
  accepted c hc := by
    have hlt := hinv.mem_completed.mp (List.mem_map_of_mem hc)
    exact Nat.lt_of_lt_of_le hlt hinv.le
  once := by
    have hsub : (s.called.map Prod.fst).Sublist (s.completed.map Prod.fst) :=
      List.filter_sublist.map Prod.fst
    rw [hinv.inOrder] at hsub
    exact hsub.nodup List.nodup_range
  closed hclosed n hn hcb := by
    have hmem : n ∈ s.completed.map Prod.fst := by
      rw [hinv.mem_completed, hended hclosed]
      exact hn
    obtain ⟨c, hc, rfl⟩ := List.mem_map.mp hmem
    exact List.mem_map_of_mem (List.mem_filter.mpr ⟨hc, hcb⟩)
  queue hdraining n := by
    rw [hinv.writeQueue_eq hdraining]
    exact hinv.mem_queued
  count hdraining := by
    rw [hinv.writeQueue_eq hdraining]
    exact hinv.count hdraining
  size hdraining := by
    rw [hinv.writeQueue_eq hdraining, hinv.size hdraining]
    exact List.length_flatMap

end law

theorem Created.place (h : Created s) : PcInv s := by
  cases h <;> exact .new ..

theorem Created.queue (h : Created s) : QueueInv s := by
  cases h <;> exact .new ..

theorem Created.not_closed (h : Created s) : s.pc ≠ .closed := by
  cases h <;> nofun

/-- **Every accepted write is completed exactly once**, on every run in which no write is accepted
in the callback of the last request of an error drain. -/
theorem completed_exactly_once {start s : LoopyStream} {as : List Action}
    (hstart : Created start) (hrun : Run step NoneLost start as s) : CompletionLaw s := by
  have hinv : PcInv s ∧ QueueInv s ∧ Ended s := by
    refine hrun.invariant (P := fun s => PcInv s ∧ QueueInv s ∧ Ended s) ?_
      ⟨hstart.place, hstart.queue, fun hclosed => absurd hclosed hstart.not_closed⟩
    rintro s a s' ⟨hplace, hqueue, hended⟩ hok hstep
    exact ⟨hplace.step hstep, hqueue.step hplace hok hstep, hended.step hplace hqueue hstep⟩
  exact hinv.2.1.law hinv.2.2

/-- Three writes, of which the first is completed in two parts and the others in an error drain; a
write in the callback of the second, and one more before the stream is closed. -/
def completionRun : List Action :=
  [.write [1, 2] true true, .write [3] true true, .write [4] false true, .writable,
    .kernel (.took 1), .kernel (.took 1), .ret, .kernel .error, .run, .write [5] true true, .ret,
    .run, .run, .ret, .run, .write [6] true true, .close true, .run, .ret, .run]

theorem completed_exactly_once_completionRun :
    ∃ s, Run step NoneLost (.fromFd 3 .tcp) completionRun s ∧ CompletionLaw s ∧
      s.pc = .closed ∧ s.called = [(0, true), (1, false), (3, false), (4, false)] := by
  have hexec : (exec step NoneLost (.fromFd 3 .tcp) completionRun).map
      (fun s => (s.pc, s.called)) =
      some (.closed, [(0, true), (1, false), (3, false), (4, false)]) := by decide +kernel
  obtain ⟨s, hrun, hval⟩ := Run.of_exec_map hexec
  obtain ⟨hpc, hcalled⟩ := Prod.mk.inj hval
  exact ⟨s, hrun, completed_exactly_once (.fromFd 3 .tcp) hrun, hpc, hcalled⟩

/-- A write fails, and its callback writes again. -/
def lostRun : List Action :=
  [.write [1] true true, .writable, .kernel .error, .run, .write [2] true true, .ret, .run,
    .close false, .run]

/-- The second write is on no list any more and its callback never runs. -/
theorem completion_lost :
    ¬ ∀ (as : List Action) (s : LoopyStream),
      Run step (fun _ _ => True) (.fromFd 3 .tcp) as s → CompletionLaw s := by
  intro hall
  have hexec : (exec step (fun _ _ => True) (.fromFd 3 .tcp) lostRun).map
      (fun s => (s.pc, s.allocated, (s.req 1).cb, s.called)) =
      some (.closed, 2, true, [(0, false)]) := by decide +kernel
  obtain ⟨s, hs, hval⟩ := Run.of_exec_map hexec
  obtain ⟨hpc, hval⟩ := Prod.mk.inj hval
  obtain ⟨hallocated, hval⟩ := Prod.mk.inj hval
  obtain ⟨hcb, hcalled⟩ := Prod.mk.inj hval
  have hlaw := hall lostRun s hs
  have hmem := hlaw.closed hpc 1 (by rw [hallocated]; exact Nat.one_lt_two) hcb
  rw [hcalled] at hmem
  revert hmem
  decide

end Loopy.Stream
