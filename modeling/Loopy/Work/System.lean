import Loopy.Async.Steps
import Loopy.Lib.Sleepers
import Loopy.Work.Delivery

/-!
# The work pool with what its threads wait for

`Loopy.Work.Pool` lets a worker look at the queue, and the loop at the completed items, whenever
they like. Here they wait: a worker sleeps in `pthread_cond_wait` until `loopyWorkQueue` signals or
`loopyWorkFree` broadcasts, and the loop runs `workProcessCompleted` only as the callback of the
`loopyAsync` handle that the workers send to. The handle is the machine of `Loopy.Async.Wakeup`. A
callback on the loop may run the loop again; `depth` counts the loops below the innermost one, and
the run of `workProcessCompleted` in the loop `d` is the processor `d` of the pool.

Every step is a step of the pool or leaves it as it is (`systemStep_pool`), so what
`Loopy.Work.Delivery` proves of the pool holds here too. A `read` or `write` that is interrupted is
tried again and changes nothing. `loopyWorkFree` is called by the thread of the loop, and nobody but
the workers calls the pool once all of them have been joined.
-/

namespace Loopy.Work

open Loopy.Lib
open Loopy.Async (AsyncState SendPc LoopPc Token OnItsWay)
open Function (update)

/-! ## The machine -/

/-- How far `loopyWorkFree` is: not called, waiting for the workers, done. -/
inductive Phase
  | running
  | closing
  | released
deriving DecidableEq, Repr

/-- The pool, its sleeping and its exited workers, the handle and the loops. `dropped` are the items
that `loopyWorkFree` has freed; `misused`: `workProcessCompleted` went on with a freed pool. -/
structure WorkSystem (W : Type) where
  work : LoopyWork W ℕ
  asleep : W → Bool
  exited : W → Bool
  async : AsyncState W
  depth : ℕ
  phase : Phase
  dropped : List ℕ
  misused : Bool

variable {W : Type}

/-- `loopyWorkNew`. -/
def WorkSystem.new (W : Type) (maxQueueSize : ℕ) : WorkSystem W :=
  { work := loopyWorkNew W ℕ maxQueueSize
    asleep := fun _ => false
    exited := fun _ => false
    async := .fresh W
    depth := 0
    phase := .running
    dropped := []
    misused := false }

/-- The run of `workProcessCompleted` in the innermost loop. -/
def WorkSystem.processor (s : WorkSystem W) : Processor := s.work.processor s.depth

/-- A callback of the pool is running in the innermost loop. -/
def WorkSystem.inCallback (s : WorkSystem W) : Bool :=
  match s.processor with
  | .popped _ => true
  | _ => false

/-- A worker that is about to look at the queue. -/
def WorkSystem.Ready (s : WorkSystem W) (w : W) : Prop :=
  s.work.worker w = .idle ∧ s.asleep w = false ∧ s.exited w = false

instance (s : WorkSystem W) : DecidablePred s.Ready :=
  fun _ => inferInstanceAs (Decidable (_ ∧ _))

/-- The steps. `woken` is the worker that a signal wakes; `wake` is a wait that returns by itself;
`enterLoop` and `leaveLoop` are a callback's call of `loopyMain` and its return; `join` is the end
of `loopyWorkFree`. -/
inductive SystemAction (W : Type)
  | queue (workCb afterCb : Option ℕ) (userData : ℕ) (allocated : Bool) (woken : Option W)
  | cancel (workId : ℕ)
  | cancelAll
  | wake (w : W)
  | sleep (w : W)
  | exit (w : W)
  | dequeue (w : W)
  | inspect (w : W)
  | finish (w : W)
  | uncount (w : W)
  | enqueueCompleted (w : W)
  | compareExchange (w : W)
  | write (w : W)
  | sendReturn (w : W)
  | poll
  | read
  | storePending
  | startCallback
  | pop
  | after
  | finishCallback
  | enterLoop
  | leaveLoop
  | free
  | join
deriving DecidableEq, Repr

/-- The steps that the workers, the loop and `loopyWorkFree` make by themselves; callbacks return.
-/
def SystemAction.Own : SystemAction W → Prop
  | .queue .. | .cancel _ | .cancelAll | .wake _ | .enterLoop | .free => False
  | _ => True

variable [DecidableEq W]

/-- A step of the pool. -/
def WorkSystem.poolStep (s : WorkSystem W) (a : Action W ℕ) : Option (WorkSystem W) :=
  (step s.work a).map fun work => { s with work }

/-- A step of the handle. -/
def WorkSystem.asyncStep (s : WorkSystem W) (a : Async.Action W) : Option (WorkSystem W) :=
  (Async.step s.async a).map fun async => { s with async }

variable [Fintype W]

/-- One step. -/
def systemStep (s : WorkSystem W) : SystemAction W → Option (WorkSystem W)
  | .queue workCb afterCb userData allocated woken =>
    if s.phase = .released then none
    else
      let work := (loopyWorkQueue s.work workCb afterCb userData allocated).2
      if work.accepted = s.work.accepted then
        if woken = none then some { s with work } else none
      else (signal s.asleep woken).map fun asleep => { s with work, asleep }
  | .cancel workId => if s.phase = .released then none else s.poolStep (.cancel workId)
  | .cancelAll => if s.phase = .released then none else s.poolStep .cancelAll
  | .wake w =>
    if s.asleep w then some { s with asleep := update s.asleep w false } else none
  | .sleep w =>
    if s.Ready w ∧ s.work.pending = [] ∧ s.phase = .running then
      some { s with asleep := update s.asleep w true }
    else none
  | .exit w =>
    if s.Ready w ∧ s.phase ≠ .running then
      some { s with exited := update s.exited w true }
    else none
  | .dequeue w => if s.Ready w ∧ s.phase = .running then s.poolStep (.dequeue w) else none
  | .inspect w => s.poolStep (.inspect w)
  | .finish w => s.poolStep (.finish w)
  | .uncount w => s.poolStep (.uncount w)
  | .enqueueCompleted w => s.poolStep (.enqueueCompleted w)
  | .compareExchange w =>
    if s.work.worker w = .notifying then s.asyncStep (.compareExchange w) else none
  | .write w => s.asyncStep (.write w)
  | .sendReturn w => (s.asyncStep (.sendReturn w)).bind fun s => s.poolStep (.notify w)
  | .poll => if s.phase = .running then s.asyncStep .poll else none
  | .read => s.asyncStep .read
  | .storePending => s.asyncStep .storePending
  | .startCallback => (s.asyncStep .startCallback).bind fun s => s.poolStep (.process s.depth)
  | .pop =>
    match s.phase with
    | .running => s.poolStep (.pop s.depth)
    | .closing => none
    | .released =>
      -- the lock of `work->mutex`, with `work` freed
      if s.processor = .processing ∧ s.misused = false then some { s with misused := true } else none
  | .after => if s.phase = .closing then none else s.poolStep (.after s.depth)
  | .finishCallback =>
    if s.processor = .idle ∧ s.phase ≠ .closing then s.asyncStep .finishCallback else none
  | .enterLoop =>
    if s.inCallback ∧ s.phase ≠ .closing then
      some { s with depth := s.depth + 1, async := { s.async with loop := .waiting } }
    else none
  | .leaveLoop =>
    if 0 < s.depth ∧ s.async.loop = .waiting ∧ s.phase ≠ .closing then
      some { s with depth := s.depth - 1, async := { s.async with loop := .running } }
    else none
  | .free =>
    if s.phase = .running ∧ (s.async.loop = .waiting ∨ s.inCallback) then
      some { s with phase := .closing, asleep := fun _ => false }
    else none
  | .join =>
    if s.phase = .closing ∧ ∀ w, s.exited w then
      some { s with phase := .released, dropped := s.work.pending ++ s.work.completed }
    else none

/-- Every step is a step of the pool, or leaves the pool as it is. -/
theorem systemStep_pool {s s' : WorkSystem W} {a : SystemAction W}
    (h : systemStep s a = some s') : s'.work = s.work ∨ ∃ b, step s.work b = some s'.work := by
  have hpool : ∀ {t t' : WorkSystem W} {b}, t.poolStep b = some t' →
      step t.work b = some t'.work := by
    intro t t' b ht
    obtain ⟨work, hwork, rfl⟩ := Option.map_eq_some_iff.mp ht
    exact hwork
  have hasync : ∀ {t t' : WorkSystem W} {b}, t.asyncStep b = some t' → t'.work = t.work := by
    intro t t' b ht
    obtain ⟨async, _, rfl⟩ := Option.map_eq_some_iff.mp ht
    rfl
  cases a with
  | queue workCb afterCb userData allocated woken =>
    refine .inr ⟨.queue workCb afterCb userData allocated, ?_⟩
    simp only [systemStep] at h
    split at h
    · cases h
    · split at h
      · obtain ⟨_, rfl⟩ := of_guard h
        rfl
      · obtain ⟨asleep, _, rfl⟩ := Option.map_eq_some_iff.mp h
        rfl
  | cancel | cancelAll | after =>
    obtain ⟨_, h⟩ := Option.ite_none_left_eq_some.mp h
    exact .inr ⟨_, hpool h⟩
  | dequeue =>
    obtain ⟨_, h⟩ := Option.ite_none_right_eq_some.mp h
    exact .inr ⟨_, hpool h⟩
  | inspect | finish | uncount | enqueueCompleted => exact .inr ⟨_, hpool h⟩
  | wake | sleep | exit | enterLoop | leaveLoop | free | join =>
    obtain ⟨_, rfl⟩ := of_guard h
    exact .inl rfl
  | compareExchange | poll | finishCallback =>
    obtain ⟨_, h⟩ := Option.ite_none_right_eq_some.mp h
    exact .inl (hasync h)
  | write | read | storePending => exact .inl (hasync h)
  | sendReturn | startCallback =>
    obtain ⟨t, ht, h⟩ := Option.bind_eq_some_iff.mp h
    rw [← hasync ht]
    exact .inr ⟨_, hpool h⟩
  | pop =>
    simp only [systemStep] at h
    split at h
    · exact .inr ⟨_, hpool h⟩
    · cases h
    · obtain ⟨_, rfl⟩ := of_guard h
      exact .inl rfl

/-! ## What the steps of the pool do to its queues and threads -/

section Specs

omit [Fintype W]

variable {L : Type} [DecidableEq L] {work work' : LoopyWork W L} {w : W} {l : L}

/-- The steps that a worker still has to make with its item. -/
def WorkerPoint.left : WorkerPoint → ℕ
  | .dequeued => 4
  | .running => 3
  | .finished => 2
  | .uncounted => 1

/-- The queues and the loops stay as they are. -/
structure SameQueues (work work' : LoopyWork W L) : Prop where
  pending : work'.pending = work.pending
  completed : work'.completed = work.completed
  processor : work'.processor = work.processor
  accepted : work'.accepted = work.accepted

omit [DecidableEq W] [DecidableEq L] in
theorem queue_spec (work : LoopyWork W L) (workCb afterCb : Option ℕ) (userData : ℕ)
    (allocated : Bool) :
    ∀ work', work' = (loopyWorkQueue work workCb afterCb userData allocated).2 →
      work'.worker = work.worker ∧ work'.completed = work.completed ∧
        work'.processor = work.processor ∧
        ((work'.accepted = work.accepted ∧ work'.pending = work.pending) ∨
          (work'.accepted = work.accepted + 1 ∧ work'.pending = work.pending ++ [work.accepted])) := by
  rintro work' rfl
  unfold loopyWorkQueue
  split
  · exact ⟨rfl, rfl, rfl, .inl ⟨rfl, rfl⟩⟩
  · split
    · exact ⟨rfl, rfl, rfl, .inl ⟨rfl, rfl⟩⟩
    · split
      · exact ⟨rfl, rfl, rfl, .inr ⟨rfl, rfl⟩⟩
      · exact ⟨rfl, rfl, rfl, .inl ⟨rfl, rfl⟩⟩

theorem cancel_same {workId : ℕ} (h : step work (.cancel workId) = some work') :
    SameQueues work work' ∧ work'.worker = work.worker := by
  simp only [step, loopyWorkCancel] at h
  by_cases hid : workId = 0
  · simp only [hid, ↓reduceIte, Bool.false_eq_true] at h
    cases h
    exact ⟨⟨rfl, rfl, rfl, rfl⟩, rfl⟩
  · simp only [hid, ↓reduceIte] at h
    cases hfind : findPending work workId with
    | none =>
      simp only [hfind, Bool.false_eq_true, ↓reduceIte] at h
      cases h
      exact ⟨⟨rfl, rfl, rfl, rfl⟩, rfl⟩
    | some n =>
      simp only [hfind, ↓reduceIte] at h
      cases h
      exact ⟨⟨rfl, rfl, rfl, rfl⟩, rfl⟩

theorem cancelAll_same (h : step work .cancelAll = some work') :
    SameQueues work work' ∧ work'.worker = work.worker := by
  obtain ⟨items, heq, _⟩ := cancelAll_spec work.pending work
  simp only [step, loopyWorkCancelAll, heq] at h
  cases h
  exact ⟨⟨rfl, rfl, rfl, rfl⟩, rfl⟩

theorem dequeue_spec (h : step work (.dequeue w) = some work') :
    work.worker w = .idle ∧ work'.completed = work.completed ∧ work'.processor = work.processor ∧
      ∃ n rest, work.pending = n :: rest ∧ work'.pending = rest ∧
        work'.worker = update work.worker w (.busy .dequeued n) := by
  obtain ⟨hidle, h⟩ := Option.ite_none_right_eq_some.mp h
  unfold workDequeue at h
  split at h
  · cases h
  · next n rest hpending =>
    cases h
    exact ⟨hidle, rfl, rfl, n, rest, hpending, rfl, rfl⟩

/-- A worker goes on with its item. -/
theorem busy_spec {a : Action W L} (ha : a = .inspect w ∨ a = .finish w ∨ a = .uncount w)
    (h : step work a = some work') :
    SameQueues work work' ∧ ∃ p q n, work.worker w = .busy p n ∧
      work'.worker = update work.worker w (.busy q n) ∧ q.left < p.left := by
  rcases ha with rfl | rfl | rfl
  · simp only [step] at h
    split at h
    · next n hw =>
      split at h
      · cases h
        exact ⟨⟨rfl, rfl, rfl, rfl⟩, _, _, n, hw, rfl, by simp [WorkerPoint.left]⟩
      · cases h
        exact ⟨⟨rfl, rfl, rfl, rfl⟩, _, _, n, hw, rfl, by simp [WorkerPoint.left]⟩
    · cases h
  · simp only [step] at h
    split at h
    · next n hw =>
      cases h
      exact ⟨⟨rfl, rfl, rfl, rfl⟩, _, _, n, hw, rfl, by simp [WorkerPoint.left]⟩
    · cases h
  · simp only [step] at h
    split at h
    · next n hw =>
      cases h
      exact ⟨⟨rfl, rfl, rfl, rfl⟩, _, _, n, hw, rfl, by simp [WorkerPoint.left]⟩
    · cases h

theorem enqueueCompleted_spec (h : step work (.enqueueCompleted w) = some work') :
    work'.pending = work.pending ∧ work'.processor = work.processor ∧
      ∃ n, work.worker w = .busy .uncounted n ∧ work'.completed = work.completed ++ [n] ∧
        work'.worker = update work.worker w .notifying := by
  simp only [step] at h
  split at h
  · next n hw =>
    cases h
    exact ⟨rfl, rfl, n, hw, rfl, rfl⟩
  · cases h

theorem notify_spec (h : step work (.notify w) = some work') :
    SameQueues work work' ∧ work.worker w = .notifying ∧
      work'.worker = update work.worker w .idle := by
  obtain ⟨hw, rfl⟩ := of_guard h
  exact ⟨⟨rfl, rfl, rfl, rfl⟩, hw, rfl⟩

theorem process_spec (h : step work (.process l) = some work') :
    work'.pending = work.pending ∧ work'.completed = work.completed ∧ work'.worker = work.worker ∧
      work.processor l = .idle ∧
        work'.processor = update work.processor l .processing := by
  obtain ⟨hl, rfl⟩ := of_guard h
  exact ⟨rfl, rfl, rfl, hl, rfl⟩

theorem pop_spec (h : step work (.pop l) = some work') :
    work'.pending = work.pending ∧ work'.worker = work.worker ∧ work.processor l = .processing ∧
      ((work.completed = [] ∧ work'.completed = [] ∧
          work'.processor = update work.processor l .idle) ∨
        ∃ n rest, work.completed = n :: rest ∧ work'.completed = rest ∧
          work'.processor = update work.processor l (.popped n)) := by
  obtain ⟨hl, h⟩ := Option.ite_none_right_eq_some.mp h
  split at h
  · next hcompleted =>
    cases h
    exact ⟨rfl, rfl, hl, .inl ⟨hcompleted, hcompleted, rfl⟩⟩
  · next n rest hcompleted =>
    cases h
    exact ⟨rfl, rfl, hl, .inr ⟨n, rest, hcompleted, rfl, rfl⟩⟩

theorem after_spec (h : step work (.after l) = some work') :
    work'.pending = work.pending ∧ work'.completed = work.completed ∧ work'.worker = work.worker ∧
      ∃ n, work.processor l = .popped n ∧ work'.freed = work.freed ++ [n] ∧
        work'.processor = update work.processor l .processing := by
  simp only [step] at h
  split at h
  · next n hl =>
    split at h
    · cases h
      exact ⟨rfl, rfl, rfl, n, hl, rfl, rfl⟩
    · cases h
      exact ⟨rfl, rfl, rfl, n, hl, rfl, rfl⟩
  · cases h

end Specs

end Loopy.Work
