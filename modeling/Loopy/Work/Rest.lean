import Loopy.Lib.Run
import Loopy.Lib.Total
import Loopy.Work.Wakeups

/-!
# The work pool comes to rest

If the callers stop and the callbacks return, what the workers, the loop and `loopyWorkFree` still
do by themselves comes to an end: `remaining` counts how far every item, worker and loop is from
rest, and every own step makes it smaller. At rest the pool has delivered every item that it
accepted.
-/

namespace Loopy.Work

open Loopy.Lib
open Loopy.Async (AsyncState SendPc LoopPc Token OnItsWay Owed compareExchange_spec write_spec
  sendReturn_spec loop_spec)
open Function (update update_of_ne update_self)

variable {W : Type}

/-! ## What is left to do -/

/-- The steps a worker is away from rest, and those that it causes in the loop. -/
def workerLeft : Worker → SendPc → Bool → ℕ
  | .idle, _, resting => if resting then 0 else 1
  | .busy point _, _, _ => 12 + point.left
  | .notifying, .idle, _ => 10
  | .notifying, .writing, _ => 9
  | .notifying, .returning, _ => 2

/-- The steps the innermost loop is away from its poll, and those of the poll. -/
def loopLeft : LoopPc → Processor → ℕ
  | .waiting, _ => 10
  | .dispatched, _ => 9
  | .drained, _ => 14
  | .cleared, _ => 13
  | .running, .idle => 11
  | .running, .processing => 12
  | .running, .popped _ => 13

def WorkSystem.workerLeft (s : WorkSystem W) (w : W) : ℕ :=
  Work.workerLeft (s.work.worker w) (s.async.sender w) (s.asleep w || s.exited w)

/-- The loops, each with the callback that it interrupts. -/
def WorkSystem.loopLeft (s : WorkSystem W) : ℕ :=
  Work.loopLeft s.async.loop s.processor + 14 * s.depth

/-- An eventfd that will be read. -/
def WorkSystem.counterLeft (s : WorkSystem W) : ℕ := if 0 < s.async.counter then 6 else 0

/-- The end of `loopyWorkFree`, and the lock of a freed mutex. -/
def WorkSystem.freeLeft (s : WorkSystem W) : ℕ :=
  (if s.phase = .closing then 1 else 0) + if s.misused then 0 else 1

/-- A bound on the steps that the system makes by itself. -/
def remaining [Fintype W] (s : WorkSystem W) : ℕ :=
  16 * s.work.pending.length + ∑ w, s.workerLeft w + 2 * s.work.completed.length + s.counterLeft +
    s.loopLeft + s.freeLeft

variable [DecidableEq W] [Fintype W] {s s' : WorkSystem W} {w : W}

/-- A worker makes a step, and leaves the loop and `loopyWorkFree` alone. -/
theorem remaining_worker (w : W) (hother : ∀ v, v ≠ w → s'.workerLeft v = s.workerLeft v)
    (hloop : s'.loopLeft = s.loopLeft) (hfree : s'.freeLeft = s.freeLeft)
    (hless : 16 * s'.work.pending.length + s'.workerLeft w + 2 * s'.work.completed.length +
        s'.counterLeft < 16 * s.work.pending.length + s.workerLeft w +
        2 * s.work.completed.length + s.counterLeft) : remaining s' < remaining s := by
  have hsum := sum_univ_update w hother
  unfold remaining
  omega

omit [DecidableEq W] in
/-- The loop or `loopyWorkFree` makes a step, and leaves the workers alone. -/
theorem remaining_loop (hworkers : s'.workerLeft = s.workerLeft)
    (hpending : s'.work.pending = s.work.pending)
    (hless : 2 * s'.work.completed.length + s'.counterLeft + s'.loopLeft + s'.freeLeft <
      2 * s.work.completed.length + s.counterLeft + s.loopLeft + s.freeLeft) :
    remaining s' < remaining s := by
  unfold remaining
  rw [hworkers, hpending]
  omega

/-! ## Every own step gets closer to rest -/

omit [DecidableEq W] in
/-- A worker that is not idle neither sleeps nor has exited. -/
theorem SystemInv.not_resting (h : SystemInv s) (hw : s.work.worker w ≠ .idle) :
    s.asleep w = false ∧ s.exited w = false := by
  constructor
  · by_contra hasleep
    exact hw (h.crew.asleep w (by simpa using hasleep)).1
  · by_contra hexited
    exact hw (h.crew.exited w (by simpa using hexited)).1

variable {work : LoopyWork W ℕ} {async : AsyncState W}

theorem remaining_dequeue (h : s.Ready w) (hstep : step s.work (.dequeue w) = some work) :
    remaining { s with work } < remaining s := by
  obtain ⟨_, hcompleted, hprocessor, n, rest, hpending, hrest, hworker⟩ := dequeue_spec hstep
  refine remaining_worker w (fun v hv => ?_) ?_ rfl ?_
  · simp only [WorkSystem.workerLeft, hworker, update_of_ne hv]
  · simp only [WorkSystem.loopLeft, WorkSystem.processor, hprocessor]
  · obtain ⟨hidle, hasleep, hexited⟩ := h
    simp only [WorkSystem.workerLeft, WorkSystem.counterLeft, hworker, update_self, hidle,
      hasleep, hexited, hpending, hrest, hcompleted, List.length_cons, workerLeft,
      WorkerPoint.left, Bool.or_false, Bool.false_eq_true, ↓reduceIte]
    omega

theorem remaining_busy {a : Action W ℕ} (ha : a = .inspect w ∨ a = .finish w ∨ a = .uncount w)
    (hstep : step s.work a = some work) : remaining { s with work } < remaining s := by
  obtain ⟨hsame, p, q, n, hw, hworker, hleft⟩ := busy_spec ha hstep
  refine remaining_worker w (fun v hv => ?_) ?_ rfl ?_
  · simp only [WorkSystem.workerLeft, hworker, update_of_ne hv]
  · simp only [WorkSystem.loopLeft, WorkSystem.processor, hsame.processor]
  · simp only [WorkSystem.workerLeft, WorkSystem.counterLeft, hworker, update_self, hw,
      hsame.pending, hsame.completed, workerLeft]
    omega

theorem remaining_enqueueCompleted (h : SystemInv s)
    (hstep : step s.work (.enqueueCompleted w) = some work) :
    remaining { s with work } < remaining s := by
  obtain ⟨hpending, hprocessor, n, hw, hcompleted, hworker⟩ := enqueueCompleted_spec hstep
  have hsender : s.async.sender w = .idle := h.crew.sender_idle (by simp [hw])
  refine remaining_worker w (fun v hv => ?_) ?_ rfl ?_
  · simp only [WorkSystem.workerLeft, hworker, update_of_ne hv]
  · simp only [WorkSystem.loopLeft, WorkSystem.processor, hprocessor]
  · simp only [WorkSystem.workerLeft, WorkSystem.counterLeft, hworker, update_self, hw,
      hsender, hpending, hcompleted, workerLeft, WorkerPoint.left, List.length_append,
      List.length_singleton]
    omega

theorem remaining_compareExchange (hw : s.work.worker w = .notifying)
    (hstep : Async.step s.async (.compareExchange w) = some async) :
    remaining { s with async } < remaining s := by
  obtain ⟨hidle, hloop, hcounter, pc, hpc, hsender⟩ := compareExchange_spec hstep
  refine remaining_worker w (fun v hv => ?_) ?_ rfl ?_
  · simp only [WorkSystem.workerLeft, hsender, update_of_ne hv]
  · simp only [WorkSystem.loopLeft, WorkSystem.processor, hloop]
  · simp only [WorkSystem.workerLeft, WorkSystem.counterLeft, hcounter, hsender,
      update_self, hw, hidle]
    rcases hpc with rfl | rfl
    · simp only [workerLeft]
      omega
    · simp only [workerLeft]
      omega

theorem remaining_write (h : SystemInv s) (hstep : Async.step s.async (.write w) = some async) :
    remaining { s with async } < remaining s := by
  obtain ⟨hwriting, hloop, hsender⟩ := write_spec hstep
  have hw : s.work.worker w = .notifying := h.crew.sender w (by simp [hwriting])
  refine remaining_worker w (fun v hv => ?_) ?_ rfl ?_
  · simp only [WorkSystem.workerLeft, hsender, update_of_ne hv]
  · simp only [WorkSystem.loopLeft, WorkSystem.processor, hloop]
  · -- what the byte makes the loop do is paid for by the sender
    have hcounter : WorkSystem.counterLeft { s with async } ≤ 6 := by
      unfold WorkSystem.counterLeft
      split
      · exact le_rfl
      · exact Nat.zero_le 6
    simp only [WorkSystem.workerLeft, hsender, update_self, hw, hwriting, workerLeft]
    omega

theorem remaining_sendReturn (h : SystemInv s)
    (hsend : Async.step s.async (.sendReturn w) = some async)
    (hstep : step s.work (.notify w) = some work) :
    remaining { s with work, async } < remaining s := by
  obtain ⟨hreturning, hloop, hcounter, hsender⟩ := sendReturn_spec hsend
  obtain ⟨hsame, hw, hworker⟩ := notify_spec hstep
  have hresting := h.not_resting (w := w) (by rw [hw]; exact Worker.noConfusion)
  refine remaining_worker w (fun v hv => ?_) ?_ rfl ?_
  · simp only [WorkSystem.workerLeft, hsender, hworker, update_of_ne hv]
  · simp only [WorkSystem.loopLeft, WorkSystem.processor, hloop, hsame.processor]
  · simp only [WorkSystem.workerLeft, WorkSystem.counterLeft, hcounter, hsender, hworker,
      update_self, hw, hreturning, hsame.pending, hsame.completed, workerLeft,
      hresting.1, hresting.2, Bool.or_false, Bool.false_eq_true, ↓reduceIte]
    omega

/-- A ready worker goes to sleep or exits. -/
theorem remaining_retire (h : s.Ready w) (hwork : s'.work = s.work) (hasync : s'.async = s.async)
    (hdepth : s'.depth = s.depth) (hfree : s'.freeLeft = s.freeLeft)
    (hother : ∀ v, v ≠ w → (s'.asleep v || s'.exited v) = (s.asleep v || s.exited v))
    (hw : (s'.asleep w || s'.exited w) = true) : remaining s' < remaining s := by
  obtain ⟨hidle, hasleep, hexited⟩ := h
  refine remaining_worker w (fun v hv => ?_) ?_ hfree ?_
  · simp only [WorkSystem.workerLeft, hwork, hasync, hother v hv]
  · simp only [WorkSystem.loopLeft, WorkSystem.processor, hwork, hasync, hdepth]
  · simp only [WorkSystem.workerLeft, WorkSystem.counterLeft, hwork, hasync, hw, hidle, hasleep,
      hexited, workerLeft, Bool.or_false, Bool.false_eq_true, ↓reduceIte]
    omega

/-- The loop between the poll and the callback, and after the callback. -/
theorem remaining_handle (h : SystemInv s) {a : Async.Action W} {p q : LoopPc}
    (hstep : Async.step s.async a = some async)
    (ha : (a, p, q) = (.poll, .waiting, .dispatched) ∨ (a, p, q) = (.read, .dispatched, .drained) ∨
      (a, p, q) = (.storePending, .drained, .cleared) ∨
      (a, p, q) = (.finishCallback, .running, .waiting))
    (hidle : s.processor = .idle) : remaining { s with async } < remaining s := by
  have hworkers : ∀ {async : AsyncState W}, async.sender = s.async.sender →
      WorkSystem.workerLeft { s with async } = s.workerLeft := by
    intro async hsender
    funext v
    simp only [WorkSystem.workerLeft, hsender]
  have hfree : WorkSystem.freeLeft { s with async } = s.freeLeft := rfl
  rcases ha with ha | ha | ha | ha
  all_goals
    cases ha
    obtain ⟨hloop, rfl⟩ := of_guard hstep
    refine remaining_loop (hworkers rfl) rfl ?_
  · simp only [WorkSystem.loopLeft, WorkSystem.counterLeft, hfree, hloop.1, loopLeft]
    omega
  · -- the read empties the eventfd, so there is one round of the loop less to come
    have hcounter := h.token.counter_of_dispatched hloop
    simp only [WorkSystem.loopLeft, WorkSystem.counterLeft, hfree, hloop, hcounter, loopLeft,
      Nat.lt_irrefl, ↓reduceIte]
    omega
  · simp only [WorkSystem.loopLeft, WorkSystem.counterLeft, hfree, hloop, loopLeft]
    omega
  · simp only [WorkSystem.loopLeft, WorkSystem.counterLeft, hfree, hloop, hidle, loopLeft]
    omega

theorem remaining_startCallback (hstart : Async.step s.async .startCallback = some async)
    (hstep : step s.work (.process s.depth) = some work) :
    remaining { s with work, async } < remaining s := by
  obtain ⟨hloop, rfl⟩ := of_guard hstart
  obtain ⟨hpending, hcompleted, hworker, _, hprocessor⟩ := process_spec hstep
  refine remaining_loop ?_ hpending ?_
  · funext v
    simp only [WorkSystem.workerLeft, hworker]
  · simp only [WorkSystem.loopLeft, WorkSystem.counterLeft, WorkSystem.freeLeft,
      WorkSystem.processor, hloop, hcompleted, hprocessor, update_self, loopLeft]
    omega

theorem remaining_pop (h : SystemInv s) (hstep : step s.work (.pop s.depth) = some work) :
    remaining { s with work } < remaining s := by
  obtain ⟨hpending, hworker, hprocessing, hcases⟩ := pop_spec hstep
  have hrunning : s.async.loop = .running :=
    h.loops.running (by simp [WorkSystem.processor, hprocessing])
  refine remaining_loop ?_ hpending ?_
  · funext v
    simp only [WorkSystem.workerLeft, hworker]
  · rcases hcases with ⟨hempty, hempty', hprocessor⟩ | ⟨n, rest, hcompleted, hrest, hprocessor⟩
    · simp only [WorkSystem.loopLeft, WorkSystem.counterLeft, WorkSystem.freeLeft,
        WorkSystem.processor, hrunning, hempty, hempty', hprocessor, hprocessing,
        update_self, loopLeft]
      omega
    · simp only [WorkSystem.loopLeft, WorkSystem.counterLeft, WorkSystem.freeLeft,
        WorkSystem.processor, hrunning, hcompleted, hrest, hprocessor, hprocessing,
        update_self, loopLeft, List.length_cons]
      omega

theorem remaining_after (h : SystemInv s) (hstep : step s.work (.after s.depth) = some work) :
    remaining { s with work } < remaining s := by
  obtain ⟨hpending, hcompleted, hworker, n, hpopped, _, hprocessor⟩ := after_spec hstep
  have hrunning : s.async.loop = .running :=
    h.loops.running (by simp [WorkSystem.processor, hpopped])
  refine remaining_loop ?_ hpending ?_
  · funext v
    simp only [WorkSystem.workerLeft, hworker]
  · simp only [WorkSystem.loopLeft, WorkSystem.counterLeft, WorkSystem.freeLeft,
      WorkSystem.processor, hrunning, hcompleted, hprocessor, hpopped, update_self,
      loopLeft]
    omega

omit [DecidableEq W] in
/-- A nested loop returns to the callback that has called it. -/
theorem remaining_leaveLoop (h : SystemInv s) (hdepth : 0 < s.depth)
    (hloop : s.async.loop = .waiting) :
    remaining { s with depth := s.depth - 1, async := { s.async with loop := .running } } <
      remaining s := by
  obtain ⟨n, hn⟩ := h.loops.below (s.depth - 1) (by omega)
  refine remaining_loop rfl rfl ?_
  simp only [WorkSystem.loopLeft, WorkSystem.counterLeft, WorkSystem.freeLeft,
    WorkSystem.processor, hloop, hn, loopLeft]
  omega

/-- Every step that the system makes by itself brings it closer to rest. -/
theorem SystemInv.remaining_lt (h : SystemInv s) {a : SystemAction W} (ha : a.Own)
    (hstep : systemStep s a = some s') : remaining s' < remaining s := by
  cases a with
  | queue | cancel | cancelAll | wake | enterLoop | free => exact ha.elim
  | sleep w =>
    obtain ⟨⟨hw, _⟩, rfl⟩ := of_guard hstep
    refine remaining_retire hw rfl rfl rfl rfl (fun v hv => ?_) (by simp)
    simp only [update_of_ne hv]
  | exit w =>
    obtain ⟨⟨hw, _⟩, rfl⟩ := of_guard hstep
    refine remaining_retire hw rfl rfl rfl rfl (fun v hv => ?_) (by simp)
    simp only [update_of_ne hv]
  | dequeue w =>
    obtain ⟨⟨hw, _⟩, hstep⟩ := Option.ite_none_right_eq_some.mp hstep
    obtain ⟨work, hwork, rfl⟩ := poolStep_spec hstep
    exact remaining_dequeue hw hwork
  | inspect w =>
    obtain ⟨work, hwork, rfl⟩ := poolStep_spec hstep
    exact remaining_busy (.inl rfl) hwork
  | finish w =>
    obtain ⟨work, hwork, rfl⟩ := poolStep_spec hstep
    exact remaining_busy (.inr (.inl rfl)) hwork
  | uncount w =>
    obtain ⟨work, hwork, rfl⟩ := poolStep_spec hstep
    exact remaining_busy (.inr (.inr rfl)) hwork
  | enqueueCompleted w =>
    obtain ⟨work, hwork, rfl⟩ := poolStep_spec hstep
    exact remaining_enqueueCompleted h hwork
  | compareExchange w =>
    obtain ⟨hw, hstep⟩ := Option.ite_none_right_eq_some.mp hstep
    obtain ⟨async, hasync, rfl⟩ := asyncStep_spec hstep
    exact remaining_compareExchange hw hasync
  | write w =>
    obtain ⟨async, hasync, rfl⟩ := asyncStep_spec hstep
    exact remaining_write h hasync
  | sendReturn w =>
    obtain ⟨t, ht, hstep⟩ := Option.bind_eq_some_iff.mp hstep
    obtain ⟨async, hasync, rfl⟩ := asyncStep_spec ht
    obtain ⟨work, hwork, rfl⟩ := poolStep_spec hstep
    exact remaining_sendReturn h hasync hwork
  | poll =>
    obtain ⟨_, hstep⟩ := Option.ite_none_right_eq_some.mp hstep
    obtain ⟨async, hasync, rfl⟩ := asyncStep_spec hstep
    obtain ⟨hloop, _⟩ := loop_spec (p := .waiting) (q := .dispatched) (by simp) hasync
    exact remaining_handle h hasync (.inl rfl) (h.processor_idle (by simp [hloop]))
  | read =>
    obtain ⟨async, hasync, rfl⟩ := asyncStep_spec hstep
    obtain ⟨hloop, _⟩ := loop_spec (p := .dispatched) (q := .drained) (by simp) hasync
    exact remaining_handle h hasync (.inr (.inl rfl)) (h.processor_idle (by simp [hloop]))
  | storePending =>
    obtain ⟨async, hasync, rfl⟩ := asyncStep_spec hstep
    obtain ⟨hloop, _⟩ := loop_spec (p := .drained) (q := .cleared) (by simp) hasync
    exact remaining_handle h hasync (.inr (.inr (.inl rfl))) (h.processor_idle (by simp [hloop]))
  | startCallback =>
    obtain ⟨t, ht, hstep⟩ := Option.bind_eq_some_iff.mp hstep
    obtain ⟨async, hasync, rfl⟩ := asyncStep_spec ht
    obtain ⟨work, hwork, rfl⟩ := poolStep_spec hstep
    exact remaining_startCallback hasync hwork
  | pop =>
    simp only [systemStep] at hstep
    split at hstep
    · obtain ⟨work, hwork, rfl⟩ := poolStep_spec hstep
      exact remaining_pop h hwork
    · cases hstep
    · -- the lock of the freed mutex counts once
      obtain ⟨⟨_, hmisused⟩, rfl⟩ := of_guard hstep
      refine remaining_loop rfl rfl ?_
      simp only [WorkSystem.loopLeft, WorkSystem.counterLeft, WorkSystem.freeLeft,
        WorkSystem.processor, hmisused, Bool.false_eq_true, ↓reduceIte]
      omega
  | after =>
    obtain ⟨_, hstep⟩ := Option.ite_none_left_eq_some.mp hstep
    obtain ⟨work, hwork, rfl⟩ := poolStep_spec hstep
    exact remaining_after h hwork
  | finishCallback =>
    obtain ⟨⟨hidle, _⟩, hstep⟩ := Option.ite_none_right_eq_some.mp hstep
    obtain ⟨async, hasync, rfl⟩ := asyncStep_spec hstep
    exact remaining_handle (p := .running) (q := .waiting) h hasync (.inr (.inr (.inr rfl))) hidle
  | leaveLoop =>
    obtain ⟨⟨hdepth, hloop, _⟩, rfl⟩ := of_guard hstep
    exact remaining_leaveLoop h hdepth hloop
  | join =>
    obtain ⟨⟨hphase, _⟩, rfl⟩ := of_guard hstep
    refine remaining_loop rfl rfl ?_
    simp only [WorkSystem.loopLeft, WorkSystem.counterLeft, WorkSystem.freeLeft,
      WorkSystem.processor, hphase, reduceCtorEq, ↓reduceIte]
    omega

/-! ## Who has been called back -/

section Called

omit [DecidableEq W] [Fintype W]

variable {L : Type} {work work' : LoopyWork W L}

/-- `afterCb` was called for exactly the freed items that have one. -/
def Called (work : LoopyWork W L) : Prop :=
  ∀ n, (work.history n).afters ≠ [] ↔ n ∈ work.freed ∧ (work.items n).afterCb ≠ none

/-- A step that calls nobody back. -/
theorem Called.congr (h : Called work) (hfreed : work'.freed = work.freed)
    (hafters : ∀ n, (work'.history n).afters = (work.history n).afters)
    (hafterCb : ∀ n, (work'.items n).afterCb = (work.items n).afterCb) : Called work' := by
  intro n
  rw [hfreed, hafters, hafterCb]
  exact h n

/-- An item that changes in anything but its `afterCb`. -/
theorem afterCb_update {items : ℕ → LoopyWorkItem} {item : LoopyWorkItem} {n : ℕ}
    (h : item.afterCb = (items n).afterCb) (m : ℕ) :
    (update items n item m).afterCb = (items m).afterCb := by
  by_cases hm : m = n
  · rw [hm, update_self, h]
  · rw [update_of_ne hm]

theorem afters_update {history : ℕ → History} {entry : History} {n : ℕ}
    (h : entry.afters = (history n).afters) (m : ℕ) :
    (update history n entry m).afters = (history m).afters := by
  by_cases hm : m = n
  · rw [hm, update_self, h]
  · rw [update_of_ne hm]

theorem afterCb_markAll (ns : List ℕ) (m : ℕ) (work : LoopyWork W L) :
    ((ns.foldl LoopyWork.markCancelled work).items m).afterCb = (work.items m).afterCb := by
  induction ns generalizing work with
  | nil => rfl
  | cons n ns ih =>
    have hitem : ({ work.items n with cancelled := true } : LoopyWorkItem).afterCb =
        (work.items n).afterCb := rfl
    rw [List.foldl_cons, ih]
    exact afterCb_update hitem m

theorem Called.queue (h : Called work) (hpool : PoolInv work) {workCb afterCb : Option ℕ}
    {userData : ℕ} {allocated : Bool} :
    Called (loopyWorkQueue work workCb afterCb userData allocated).2 := by
  unfold loopyWorkQueue
  split
  · exact h
  · split
    · exact h
    · split
      · intro n
        by_cases hn : n = work.accepted
        · -- nothing has happened to the new item
          subst hn
          have hunborn : work.custody.At .unborn work.accepted := Nat.le_refl _
          have hafters := (hpool.fits .unborn _ hunborn).1.2.2
          have hfreed : work.accepted ∉ work.freed :=
            hpool.pool.not_at (q := .delivered) hunborn nofun
          simp [hafters, hfreed]
        · simp only [update_of_ne hn]
          exact h n
      · exact h

variable [DecidableEq W] [DecidableEq L]

/-- The loop calls `afterCb` of the item that it frees. -/
theorem Called.after (h : Called work) (hpool : PoolInv work) {l : L}
    (hstep : step work (.after l) = some work') : Called work' := by
  simp only [step] at hstep
  split at hstep
  · next n hl =>
    have hpopped : work.custody.At (.popped l) n := congrArg Processor.item hl
    have hafters := (hpool.fits (.popped l) n hpopped).2
    split at hstep
    · next cb hcb =>
      cases hstep
      intro m
      by_cases hm : m = n
      · subst hm
        simp only [LoopyWork.record, LoopyWork.setProcessor] at hcb ⊢
        simp [hcb]
      · have := h m
        simp only [LoopyWork.record, LoopyWork.setProcessor, update_of_ne hm]
        simpa [hm] using this
    · next hcb =>
      cases hstep
      intro m
      by_cases hm : m = n
      · subst hm
        simp only [LoopyWork.setProcessor] at hcb ⊢
        simp [hcb, hafters]
      · have := h m
        simp only [LoopyWork.setProcessor]
        simpa [hm] using this
  · cases hstep

theorem Called.step (h : Called work) (hpool : PoolInv work) {a : Action W L}
    (hstep : step work a = some work') : Called work' := by
  cases a with
  | queue workCb afterCb userData allocated =>
    cases hstep
    exact h.queue hpool
  | cancel workId =>
    simp only [Work.step, loopyWorkCancel] at hstep
    by_cases hzero : workId = 0
    · simp only [if_pos hzero] at hstep
      cases hstep
      exact h
    · simp only [if_neg hzero] at hstep
      cases hfind : findPending work workId with
      | none =>
        rw [hfind] at hstep
        cases hstep
        exact h
      | some n =>
        rw [hfind] at hstep
        cases hstep
        exact h.congr rfl (afters_update rfl) (afterCb_update rfl)
  | cancelAll =>
    obtain ⟨items, heq, _⟩ := cancelAll_spec work.pending work
    have hafterCb := fun m => afterCb_markAll work.pending m work
    cases hstep
    simp only [loopyWorkCancelAll, heq] at hafterCb ⊢
    exact h.congr rfl (fun _ => rfl) hafterCb
  | inspect w =>
    simp only [Work.step] at hstep
    split at hstep
    · split at hstep
      · cases hstep
        exact h.congr rfl (fun _ => rfl) (afterCb_update rfl)
      · cases hstep
        exact h.congr rfl (afters_update rfl) fun _ => rfl
    · cases hstep
  | finish w =>
    simp only [Work.step] at hstep
    split at hstep
    · cases hstep
      exact h.congr rfl (afters_update rfl) (afterCb_update rfl)
    · cases hstep
  | dequeue w =>
    obtain ⟨_, hstep⟩ := Option.ite_none_right_eq_some.mp hstep
    unfold workDequeue at hstep
    split at hstep
    · cases hstep
    · cases hstep
      exact h.congr rfl (fun _ => rfl) fun _ => rfl
  | uncount w | enqueueCompleted w =>
    simp only [Work.step] at hstep
    split at hstep
    · cases hstep
      exact h.congr rfl (fun _ => rfl) fun _ => rfl
    · cases hstep
  | notify w | process l =>
    obtain ⟨_, rfl⟩ := of_guard hstep
    exact h.congr rfl (fun _ => rfl) fun _ => rfl
  | pop l =>
    obtain ⟨_, hstep⟩ := Option.ite_none_right_eq_some.mp hstep
    split at hstep
    · cases hstep
      exact h.congr rfl (fun _ => rfl) fun _ => rfl
    · cases hstep
      exact h.congr rfl (fun _ => rfl) fun _ => rfl
  | after l => exact h.after hpool hstep

end Called

theorem Called.run {ok : WorkSystem W → SystemAction W → Prop} {as : List (SystemAction W)}
    (hs : SystemInv s) (h : Called s.work) (hrun : Run systemStep ok s as s') :
    Called s'.work := by
  refine (hrun.invariant (P := fun s => SystemInv s ∧ Called s.work) ?_ ⟨hs, h⟩).2
  intro s a s' hinv _ hstep
  refine ⟨hinv.1.step hstep, ?_⟩
  rcases systemStep_pool hstep with hsame | ⟨b, hb⟩
  · rw [hsame]
    exact hinv.2
  · exact hinv.2.step hinv.1.pool hb

/-! ## The pool at rest -/

/-- What can no longer happen at rest. -/
theorem Quiet.not {a : SystemAction W} (h : Quiet systemStep SystemAction.Own s) (ha : a.Own)
    (hstep : systemStep s a ≠ none) : False := hstep (h a ha)

omit [Fintype W] in
theorem poolStep_ne_none {a : Action W ℕ} (h : step s.work a ≠ none) : s.poolStep a ≠ none := by
  unfold WorkSystem.poolStep
  simpa using h

omit [Fintype W] in
theorem asyncStep_ne_none {a : Async.Action W} (h : Async.step s.async a ≠ none) :
    s.asyncStep a ≠ none := by
  unfold WorkSystem.asyncStep
  simpa using h

/-- At rest no worker has anything to do. -/
theorem worker_at_rest (hquiet : Quiet systemStep SystemAction.Own s) (w : W) :
    s.work.worker w = .idle := by
  cases hw : s.work.worker w with
  | idle => rfl
  | busy point n =>
    exfalso
    cases point with
    | dequeued =>
      refine Quiet.not hquiet (a := .inspect w) trivial (poolStep_ne_none ?_)
      simp only [step, hw]
      split <;> simp
    | running =>
      refine Quiet.not hquiet (a := .finish w) trivial (poolStep_ne_none ?_)
      simp only [step, hw]
      simp
    | finished =>
      refine Quiet.not hquiet (a := .uncount w) trivial (poolStep_ne_none ?_)
      simp only [step, hw]
      simp
    | uncounted =>
      refine Quiet.not hquiet (a := .enqueueCompleted w) trivial (poolStep_ne_none ?_)
      simp only [step, hw]
      simp
  | notifying =>
    exfalso
    cases hsender : s.async.sender w with
    | idle =>
      refine Quiet.not hquiet (a := .compareExchange w) trivial ?_
      simp only [systemStep, hw, ↓reduceIte]
      apply asyncStep_ne_none
      simp only [Async.step, hsender, ↓reduceIte]
      split <;> simp
    | writing =>
      refine Quiet.not hquiet (a := .write w) trivial (asyncStep_ne_none ?_)
      simp [Async.step, hsender]
    | returning =>
      refine Quiet.not hquiet (a := .sendReturn w) trivial ?_
      simp [systemStep, WorkSystem.asyncStep, WorkSystem.poolStep, Async.step, step, hsender, hw]

/-- At rest and before `loopyWorkFree` every worker sleeps. -/
theorem asleep_at_rest (hinv : SystemInv s) (hquiet : Quiet systemStep SystemAction.Own s)
    (hphase : s.phase = .running) (w : W) : s.asleep w := by
  by_contra hasleep
  have hidle := worker_at_rest hquiet w
  have hexited : s.exited w = false := by
    by_contra hexited
    exact (hinv.crew.exited w (by simpa using hexited)).2 hphase
  have hready : s.Ready w := ⟨hidle, by simpa using hasleep, hexited⟩
  -- a worker that is awake can still go to sleep or take an item
  cases hpending : s.work.pending with
  | nil =>
    refine Quiet.not hquiet (a := .sleep w) trivial ?_
    simp [systemStep, hready, hpending, hphase]
  | cons n rest =>
    refine Quiet.not hquiet (a := .dequeue w) trivial ?_
    simp only [systemStep, hready, hphase, and_self, ↓reduceIte]
    apply poolStep_ne_none
    simp [step, workDequeue, hidle, hpending]

/-- `loopyWorkFree` does not wait forever. -/
theorem not_closing_at_rest (hinv : SystemInv s) (hquiet : Quiet systemStep SystemAction.Own s) :
    s.phase ≠ .closing := by
  intro hphase
  have hne : s.phase ≠ .running := by
    rw [hphase]
    exact Phase.noConfusion
  have hexited : ∀ w, s.exited w := by
    intro w
    by_contra hexited
    have hready : s.Ready w :=
      ⟨worker_at_rest hquiet w, hinv.crew.awake hne w, by simpa using hexited⟩
    refine Quiet.not hquiet (a := .exit w) trivial ?_
    simp [systemStep, hready, hphase]
  refine Quiet.not hquiet (a := .join) trivial ?_
  simp [systemStep, hphase, hexited]

/-- At rest and before `loopyWorkFree` the outermost loop waits, and nothing is in the eventfd. -/
theorem loop_at_rest (hinv : SystemInv s) (hquiet : Quiet systemStep SystemAction.Own s)
    (hphase : s.phase = .running) :
    s.async.loop = .waiting ∧ s.async.counter = 0 ∧ s.depth = 0 := by
  have hwaiting : s.async.loop = .waiting := by
    cases hloop : s.async.loop with
    | waiting => rfl
    | dispatched =>
      exfalso
      refine Quiet.not hquiet (a := .read) trivial (asyncStep_ne_none ?_)
      simp [Async.step, hloop]
    | drained =>
      exfalso
      refine Quiet.not hquiet (a := .storePending) trivial (asyncStep_ne_none ?_)
      simp [Async.step, hloop]
    | cleared =>
      exfalso
      have hidle := hinv.loops.top (by simp [hloop])
      refine Quiet.not hquiet (a := .startCallback) trivial ?_
      simp [systemStep, WorkSystem.asyncStep, WorkSystem.poolStep, Async.step, step, hloop, hidle]
    | running =>
      exfalso
      cases hprocessor : s.work.processor s.depth with
      | idle =>
        refine Quiet.not hquiet (a := .finishCallback) trivial ?_
        simp [systemStep, WorkSystem.processor, WorkSystem.asyncStep, Async.step, hloop, hprocessor,
          hphase]
      | processing =>
        refine Quiet.not hquiet (a := .pop) trivial ?_
        simp only [systemStep, hphase]
        apply poolStep_ne_none
        simp only [step, hprocessor, ↓reduceIte]
        split <;> simp
      | popped n =>
        refine Quiet.not hquiet (a := .after) trivial ?_
        simp only [systemStep, hphase, reduceCtorEq, ↓reduceIte]
        apply poolStep_ne_none
        simp only [step, hprocessor]
        split <;> simp
  refine ⟨hwaiting, ?_, ?_⟩
  · by_contra hcounter
    refine Quiet.not hquiet (a := .poll) trivial ?_
    simp only [systemStep, hphase, ↓reduceIte]
    apply asyncStep_ne_none
    simp [Async.step, hwaiting, Nat.pos_of_ne_zero hcounter]
  · by_contra hdepth
    refine Quiet.not hquiet (a := .leaveLoop) trivial ?_
    simp [systemStep, hwaiting, Nat.pos_of_ne_zero hdepth, hphase]

/-- At rest and before `loopyWorkFree` no item is completed and not yet processed. -/
theorem completed_at_rest (hinv : SystemInv s) (hquiet : Quiet systemStep SystemAction.Own s)
    (hphase : s.phase = .running) : s.work.completed = [] ∧ ∀ d, s.work.processor d = .idle := by
  obtain ⟨hwaiting, hcounter, hdepth⟩ := loop_at_rest hinv hquiet hphase
  have hidle : ∀ d, s.work.processor d = .idle := by
    intro d
    rcases Nat.eq_zero_or_pos d with rfl | hd
    · rw [← hdepth]
      exact hinv.loops.top (by simp [hwaiting])
    · exact hinv.loops.above d (by omega)
  refine ⟨?_, hidle⟩
  by_contra hcompleted
  -- whoever will look at the completed items can still make a step
  rcases hinv.rung hcompleted with ⟨w, hw, _⟩ | howed | ⟨d, hd⟩
  · rw [worker_at_rest hquiet w] at hw
    cases hw
  · rcases howed.onItsWay hinv.token with hpos | ⟨w, hw⟩ | hdrained | hcleared
    · omega
    · have hnotifying := hinv.crew.sender w (by simp [hw])
      rw [worker_at_rest hquiet w] at hnotifying
      cases hnotifying
    · rw [hwaiting] at hdrained
      cases hdrained
    · rw [hwaiting] at hcleared
      cases hcleared
  · exact hd (hidle d)

/-- What has become of a delivered item. -/
structure Delivered (work : LoopyWork W ℕ) (n : ℕ) : Prop where
  freed : n ∈ work.freed
  outcome : Outcome (work.items n) (work.history n)
  after : (work.history n).afters =
    if (work.items n).afterCb = none then [] else [(work.items n).status]

omit [DecidableEq W] [Fintype W] in
theorem Delivered.of_freed (hpool : PoolInv work) (hcalled : Called work) {n : ℕ}
    (hn : n ∈ work.freed) : Delivered work n := by
  obtain ⟨houtcome, hafters⟩ := hpool.fits .delivered n hn
  refine ⟨hn, houtcome, ?_⟩
  split
  · next hcb =>
    by_contra hne
    exact ((hcalled n).mp hne).2 hcb
  · next hcb => exact hafters.resolve_left ((hcalled n).mpr ⟨hn, hcb⟩)

/-- The pool at rest. -/
structure AtRest (s : WorkSystem W) : Prop where
  delivered : ∀ n, n < s.work.accepted → Delivered s.work n
  workers : ∀ w, s.asleep w
  loop : s.async.loop = .waiting ∧ s.depth = 0

theorem SystemInv.atRest [Nonempty W] (hinv : SystemInv s) (hcalled : Called s.work)
    (hquiet : Quiet systemStep SystemAction.Own s) (hphase : s.phase = .running) : AtRest s := by
  have hasleep := asleep_at_rest hinv hquiet hphase
  obtain ⟨hwaiting, _, hdepth⟩ := loop_at_rest hinv hquiet hphase
  obtain ⟨hcompleted, hidle⟩ := completed_at_rest hinv hquiet hphase
  have hpending : s.work.pending = [] := by
    by_contra hne
    have hpos : 0 < s.work.pending.length := List.length_pos_iff.mpr hne
    -- a pending item has a worker that is ready, but all of them sleep
    obtain ⟨w, _, hw, _⟩ := hinv.covered.exists_ready hpos (hasleep (Classical.arbitrary W))
    rw [hasleep w] at hw
    cases hw
  refine ⟨fun n hn => Delivered.of_freed hinv.pool hcalled ?_, hasleep, hwaiting, hdepth⟩
  -- every other place is empty
  obtain ⟨p, hp, _⟩ := hinv.pool.pool.settled n
  cases p with
  | unborn => exact absurd hn (Nat.not_lt.mpr hp)
  | pending =>
    have hmem : n ∈ s.work.pending := hp
    rw [hpending] at hmem
    cases hmem
  | held w =>
    have hheld : (s.work.worker w).item = some n := hp
    rw [worker_at_rest hquiet w] at hheld
    cases hheld
  | completed =>
    have hmem : n ∈ s.work.completed := hp
    rw [hcompleted] at hmem
    cases hmem
  | popped d =>
    have hpopped : (s.work.processor d).item = some n := hp
    rw [hidle d] at hpopped
    cases hpopped
  | delivered => exact hp

/-- **The pool comes to rest.** From every reachable state, the workers, the loop and
`loopyWorkFree` can make no more than `remaining` steps by themselves. They always get to a state in
which they can make none, and there `loopyWorkFree` has not hung; if it was not called, every item
ever accepted has been run or cancelled, its `afterCb` was called exactly once, and it is freed. -/
theorem comes_to_rest [Nonempty W] (maxQueueSize : ℕ) (as : List (SystemAction W))
    (s : WorkSystem W)
    (hrun : Run systemStep (fun _ _ => True) (.new W maxQueueSize) as s) :
    (∀ bs t, Run systemStep (fun _ a => a.Own) s bs t → bs.length ≤ remaining s) ∧
      (∃ bs t, Run systemStep (fun _ a => a.Own) s bs t ∧ Quiet systemStep SystemAction.Own t) ∧
      ∀ bs t, Run systemStep (fun _ a => a.Own) s bs t → Quiet systemStep SystemAction.Own t →
        t.phase ≠ .closing ∧ (t.phase = .running → AtRest t) := by
  have hinv := (SystemInv.new maxQueueSize).run hrun
  have hcalled : Called s.work := by
    refine Called.run (.new maxQueueSize) (fun n => ?_) hrun
    simp [WorkSystem.new, loopyWorkNew]
  have hkeeps : ∀ (s : WorkSystem W) (a : SystemAction W) (s' : WorkSystem W), SystemInv s →
      a.Own → systemStep s a = some s' → SystemInv s' := fun s a s' h _ hstep => h.step hstep
  have hfalls : ∀ (s : WorkSystem W) (a : SystemAction W) (s' : WorkSystem W), SystemInv s →
      a.Own → systemStep s a = some s' → remaining s' < remaining s :=
    fun s a s' h ha hstep => h.remaining_lt ha hstep
  refine ⟨fun bs t hbs => ?_, Run.exists_quiet hkeeps hfalls hinv, fun bs t hbs hquiet => ?_⟩
  · have := hbs.length_add_measure_le hkeeps hfalls hinv
    omega
  · have hinv' := hinv.run hbs
    have hcalled' := Called.run hinv hcalled hbs
    exact ⟨not_closing_at_rest hinv' hquiet, hinv'.atRest hcalled' hquiet⟩

/-- The callers stop while a callback runs the loop again, one worker sleeps and the other one has
an item that is cancelled. -/
theorem comes_to_rest_nested :
    ∃ s : WorkSystem (Fin 2), Run systemStep (fun _ _ => True) (.new (Fin 2) 0)
        [.sleep 0, .queue (some 7) (some 8) 0 true (some 0), .dequeue 1, .inspect 1, .finish 1,
          .uncount 1, .enqueueCompleted 1, .compareExchange 1, .write 1, .poll, .read,
          .storePending, .startCallback, .pop, .enterLoop, .sleep 0,
          .queue (some 9) none 0 true (some 0), .cancel 2] s ∧
      (s.depth, s.work.accepted) = (1, 2) ∧
      ∃ bs t, Run systemStep (fun _ a => a.Own) s bs t ∧ Quiet systemStep SystemAction.Own t ∧
        (t.phase = .running → AtRest t) := by
  refine Run.exists_of_exec (by decide +kernel) fun s hrun hval => ⟨hval, ?_⟩
  obtain ⟨_, ⟨bs, t, hbs, hquiet⟩, hrest⟩ := comes_to_rest 0 _ s hrun
  exact ⟨bs, t, hbs, hquiet, (hrest bs t hbs hquiet).2⟩

end Loopy.Work
