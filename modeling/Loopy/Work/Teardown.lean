import Loopy.Work.Rest

/-!
# Freeing the work pool

`loopyWorkFree` wakes all workers, joins them and frees what is left in the two queues. What it does
to the items depends on nothing but where they are; whether the pool itself survives depends on who
calls it. A call while a run of `workProcessCompleted` is active, so from an `afterCb` or from a
loop that one runs, comes back to a loop that locks `work->mutex` of the freed pool.
-/

namespace Loopy.Work

open Loopy.Lib
open Loopy.Async (AsyncState SendPc LoopPc compareExchange_spec write_spec sendReturn_spec
  loop_spec)

variable {W : Type} [DecidableEq W] [Fintype W] {s s' t u : WorkSystem W}

/-! ## After the call -/

/-- No run of `workProcessCompleted` is active. -/
def Unwatched (s : WorkSystem W) : Prop := ∀ d, s.work.processor d = .idle

/-- After a call of `loopyWorkFree` from outside. -/
structure FreedOutside (s : WorkSystem W) : Prop where
  phase : s.phase ≠ .running
  unwatched : Unwatched s
  loop : s.async.loop = .waiting
  depth : s.depth = 0
  misused : s.misused = false

/-- After a call of `loopyWorkFree` from a callback of the pool. -/
structure FreedInside (s : WorkSystem W) : Prop where
  phase : s.phase ≠ .running
  watched : ∃ d, s.work.processor d ≠ .idle

omit [Fintype W] in
theorem handle_sender {a : Async.Action W} {async async' : AsyncState W}
    (h : Async.step async a = some async')
    (ha : (∃ w, a = .compareExchange w) ∨ (∃ w, a = .write w) ∨ ∃ w, a = .sendReturn w) :
    async'.loop = async.loop := by
  rcases ha with ⟨w, rfl⟩ | ⟨w, rfl⟩ | ⟨w, rfl⟩
  · exact (compareExchange_spec h).2.1
  · exact (write_spec h).2.1
  · exact (sendReturn_spec h).2.1

omit [Fintype W] in
/-- The steps of the pool that change where its loops are. -/
theorem processor_of_step {a : Action W ℕ} {work work' : LoopyWork W ℕ}
    (h : step work a = some work') (ha : ∀ l, a ≠ .process l ∧ a ≠ .pop l ∧ a ≠ .after l) :
    work'.processor = work.processor := by
  cases a with
  | queue workCb afterCb userData allocated =>
    cases h
    exact (queue_spec _ _ _ _ _ _ rfl).2.2.1
  | cancel workId => exact (cancel_same h).1.processor
  | cancelAll => exact (cancelAll_same h).1.processor
  | dequeue w => exact (dequeue_spec h).2.2.1
  | inspect w => exact (busy_spec (.inl rfl) h).1.processor
  | finish w => exact (busy_spec (.inr (.inl rfl)) h).1.processor
  | uncount w => exact (busy_spec (.inr (.inr rfl)) h).1.processor
  | enqueueCompleted w => exact (enqueueCompleted_spec h).2.1
  | notify w => exact (notify_spec h).1.processor
  | process l => exact absurd rfl (ha l).1
  | pop l => exact absurd rfl (ha l).2.1
  | after l => exact absurd rfl (ha l).2.2

/-- Only `loopyWorkFree` changes the phase, and only a freed pool is misused. -/
theorem misused_step (h : s.misused = true → s.phase = .released) {a : SystemAction W}
    (hstep : systemStep s a = some s') : s'.misused = true → s'.phase = .released := by
  -- the steps of the pool and of its handle change neither of the two
  have hpool : ∀ {r r' : WorkSystem W} {b}, r.poolStep b = some r' →
      r'.misused = r.misused ∧ r'.phase = r.phase := by
    intro r r' b hr
    obtain ⟨work, _, rfl⟩ := poolStep_spec hr
    exact ⟨rfl, rfl⟩
  have hasync : ∀ {r r' : WorkSystem W} {b}, r.asyncStep b = some r' →
      r'.misused = r.misused ∧ r'.phase = r.phase := by
    intro r r' b hr
    obtain ⟨async, _, rfl⟩ := asyncStep_spec hr
    exact ⟨rfl, rfl⟩
  have hsame : s'.misused = s.misused ∧ s'.phase = s.phase →
      s'.misused = true → s'.phase = .released := by
    rintro ⟨hmisused, hphase⟩ ht
    rw [hphase]
    exact h (hmisused ▸ ht)
  cases a with
  | queue workCb afterCb userData allocated woken =>
    simp only [systemStep] at hstep
    split at hstep
    · cases hstep
    · split at hstep
      · obtain ⟨_, rfl⟩ := of_guard hstep
        exact h
      · obtain ⟨asleep, _, rfl⟩ := Option.map_eq_some_iff.mp hstep
        exact h
  | cancel | cancelAll | after =>
    obtain ⟨_, hstep⟩ := Option.ite_none_left_eq_some.mp hstep
    exact hsame (hpool hstep)
  | dequeue =>
    obtain ⟨_, hstep⟩ := Option.ite_none_right_eq_some.mp hstep
    exact hsame (hpool hstep)
  | inspect | finish | uncount | enqueueCompleted => exact hsame (hpool hstep)
  | compareExchange | poll | finishCallback =>
    obtain ⟨_, hstep⟩ := Option.ite_none_right_eq_some.mp hstep
    exact hsame (hasync hstep)
  | write | read | storePending => exact hsame (hasync hstep)
  | sendReturn | startCallback =>
    obtain ⟨r, hr, hstep⟩ := Option.bind_eq_some_iff.mp hstep
    obtain ⟨hmisused, hphase⟩ := hasync hr
    obtain ⟨hmisused', hphase'⟩ := hpool hstep
    exact hsame ⟨hmisused'.trans hmisused, hphase'.trans hphase⟩
  | wake | sleep | exit | enterLoop | leaveLoop =>
    obtain ⟨_, rfl⟩ := of_guard hstep
    exact h
  | pop =>
    simp only [systemStep] at hstep
    split at hstep
    · exact hsame (hpool hstep)
    · cases hstep
    · next hphase =>
      obtain ⟨_, rfl⟩ := of_guard hstep
      exact fun _ => hphase
  | free =>
    obtain ⟨⟨hphase, _⟩, rfl⟩ := of_guard hstep
    intro hmisused
    exact absurd (hphase.symm.trans (h hmisused)) (by simp)
  | join =>
    obtain ⟨_, rfl⟩ := of_guard hstep
    exact fun _ => rfl

omit [Fintype W] in
/-- A step of the pool that is not one of its loops. -/
theorem FreedOutside.pool (h : FreedOutside s) {a : Action W ℕ} {work : LoopyWork W ℕ}
    (hwork : step s.work a = some work)
    (ha : ∀ l, a ≠ .process l ∧ a ≠ .pop l ∧ a ≠ .after l) : FreedOutside { s with work } := by
  refine ⟨h.phase, fun d => ?_, h.loop, h.depth, h.misused⟩
  rw [processor_of_step hwork ha]
  exact h.unwatched d

omit [DecidableEq W] [Fintype W] in
/-- A step of a thread that rings the handle. -/
theorem FreedOutside.async (h : FreedOutside s) {async : AsyncState W}
    (hloop : async.loop = s.async.loop) : FreedOutside { s with async } :=
  ⟨h.phase, h.unwatched, hloop.trans h.loop, h.depth, h.misused⟩

omit [Fintype W] in
/-- The loop waits, and has no dispatch to go on with. -/
theorem FreedOutside.not_dispatched (h : FreedOutside s) {a : Async.Action W}
    {async : AsyncState W} (ha : a = .read ∨ a = .storePending ∨ a = .startCallback ∨
      a = .finishCallback) : Async.step s.async a ≠ some async := by
  intro hstep
  rcases ha with rfl | rfl | rfl | rfl
  all_goals
    obtain ⟨hloop, -⟩ := Option.ite_none_right_eq_some.mp hstep
    rw [h.loop] at hloop
    cases hloop

/-- An item is queued. -/
theorem FreedOutside.queue (h : FreedOutside s) {workCb afterCb : Option ℕ} {userData : ℕ}
    {allocated : Bool} {woken : Option W}
    (hstep : systemStep s (.queue workCb afterCb userData allocated woken) = some s') :
    FreedOutside s' := by
  obtain ⟨_, _, hprocessor, _⟩ := queue_spec s.work workCb afterCb userData allocated _ rfl
  have hunwatched : ∀ d, (loopyWorkQueue s.work workCb afterCb userData allocated).2.processor d =
      .idle := fun d => by rw [hprocessor]; exact h.unwatched d
  simp only [systemStep] at hstep
  split at hstep
  · cases hstep
  · split at hstep
    · obtain ⟨_, rfl⟩ := of_guard hstep
      exact ⟨h.phase, hunwatched, h.loop, h.depth, h.misused⟩
    · obtain ⟨asleep, _, rfl⟩ := Option.map_eq_some_iff.mp hstep
      exact ⟨h.phase, hunwatched, h.loop, h.depth, h.misused⟩

/-- A worker is done with the handle, and with the item that it rang for. -/
theorem FreedOutside.sendReturn (h : FreedOutside s) {w : W}
    (hstep : systemStep s (.sendReturn w) = some s') : FreedOutside s' := by
  obtain ⟨r, hr, hstep⟩ := Option.bind_eq_some_iff.mp hstep
  obtain ⟨async, ha, rfl⟩ := asyncStep_spec hr
  obtain ⟨work, hwork, rfl⟩ := poolStep_spec hstep
  have hfreed := h.pool hwork (by simp)
  have hloop := handle_sender ha (.inr (.inr ⟨w, rfl⟩))
  exact ⟨h.phase, hfreed.unwatched, hloop.trans h.loop, h.depth, h.misused⟩

/-- Nothing is popped. -/
theorem FreedOutside.not_pop (h : FreedOutside s) : systemStep s .pop ≠ some s' := by
  intro hstep
  simp only [systemStep] at hstep
  split at hstep
  · next hphase => exact absurd hphase h.phase
  · cases hstep
  · obtain ⟨⟨hprocessing, _⟩, _⟩ := Option.ite_none_right_eq_some.mp hstep
    rw [WorkSystem.processor, h.unwatched] at hprocessing
    cases hprocessing

omit [DecidableEq W] [Fintype W] in
/-- No callback of the pool is running. -/
theorem FreedOutside.not_inCallback (h : FreedOutside s) : ¬ s.inCallback := by
  intro hcallback
  obtain ⟨n, hn⟩ := popped_of_inCallback hcallback
  rw [WorkSystem.processor, h.unwatched] at hn
  cases hn

/-- Nothing calls `workProcessCompleted` after a call of `loopyWorkFree` from outside. -/
theorem FreedOutside.step (h : FreedOutside s) {a : SystemAction W}
    (hstep : systemStep s a = some s') : FreedOutside s' := by
  cases a with
  | queue workCb afterCb userData allocated woken => exact h.queue hstep
  | cancel | cancelAll =>
    obtain ⟨_, hstep⟩ := Option.ite_none_left_eq_some.mp hstep
    obtain ⟨work, hwork, rfl⟩ := poolStep_spec hstep
    exact h.pool hwork (by simp)
  -- what needs a running pool is over
  | dequeue w =>
    obtain ⟨⟨_, hphase⟩, _⟩ := Option.ite_none_right_eq_some.mp hstep
    exact absurd hphase h.phase
  | sleep w =>
    obtain ⟨⟨_, _, hphase⟩, _⟩ := Option.ite_none_right_eq_some.mp hstep
    exact absurd hphase h.phase
  | poll =>
    obtain ⟨hphase, _⟩ := Option.ite_none_right_eq_some.mp hstep
    exact absurd hphase h.phase
  | free =>
    obtain ⟨⟨hphase, _⟩, _⟩ := Option.ite_none_right_eq_some.mp hstep
    exact absurd hphase h.phase
  | wake w | exit w =>
    obtain ⟨_, rfl⟩ := of_guard hstep
    exact ⟨h.phase, h.unwatched, h.loop, h.depth, h.misused⟩
  | inspect w | finish w | uncount w | enqueueCompleted w =>
    obtain ⟨work, hwork, rfl⟩ := poolStep_spec hstep
    exact h.pool hwork (by simp)
  | compareExchange w =>
    obtain ⟨_, hstep⟩ := Option.ite_none_right_eq_some.mp hstep
    obtain ⟨async, ha, rfl⟩ := asyncStep_spec hstep
    exact h.async (handle_sender ha (.inl ⟨w, rfl⟩))
  | write w =>
    obtain ⟨async, ha, rfl⟩ := asyncStep_spec hstep
    exact h.async (handle_sender ha (.inr (.inl ⟨w, rfl⟩)))
  | sendReturn w => exact h.sendReturn hstep
  | read | storePending =>
    obtain ⟨async, ha, rfl⟩ := asyncStep_spec hstep
    exact absurd ha (h.not_dispatched (by simp))
  | startCallback =>
    obtain ⟨r, hr, _⟩ := Option.bind_eq_some_iff.mp hstep
    obtain ⟨async, ha, rfl⟩ := asyncStep_spec hr
    exact absurd ha (h.not_dispatched (by simp))
  | finishCallback =>
    obtain ⟨_, hstep⟩ := Option.ite_none_right_eq_some.mp hstep
    obtain ⟨async, ha, rfl⟩ := asyncStep_spec hstep
    exact absurd ha (h.not_dispatched (by simp))
  | pop => exact absurd hstep h.not_pop
  | after =>
    obtain ⟨_, hstep⟩ := Option.ite_none_left_eq_some.mp hstep
    obtain ⟨work, hwork, rfl⟩ := poolStep_spec hstep
    obtain ⟨_, _, _, n, hn, _⟩ := after_spec hwork
    rw [h.unwatched] at hn
    cases hn
  | enterLoop =>
    obtain ⟨⟨hin, _⟩, _⟩ := Option.ite_none_right_eq_some.mp hstep
    exact absurd hin h.not_inCallback
  | leaveLoop =>
    obtain ⟨⟨hdepth, _⟩, _⟩ := Option.ite_none_right_eq_some.mp hstep
    rw [h.depth] at hdepth
    exact absurd hdepth (Nat.lt_irrefl 0)
  | join =>
    obtain ⟨_, rfl⟩ := of_guard hstep
    exact ⟨by simp, h.unwatched, h.loop, h.depth, h.misused⟩

/-- The run of `workProcessCompleted` that the call has interrupted does not end. -/
theorem FreedInside.step (h : FreedInside s) {a : SystemAction W}
    (hstep : systemStep s a = some s') : FreedInside s' := by
  obtain ⟨hphase, d, hd⟩ := h
  -- a run of `workProcessCompleted` only ends with a `pop`
  have hpool : ∀ {b : Action W ℕ} {work : LoopyWork W ℕ}, Work.step s.work b = some work →
      (∀ l, b ≠ .pop l) → ∃ d, work.processor d ≠ .idle := by
    intro b work hwork hb
    by_cases hother : ∀ l, b ≠ .process l ∧ b ≠ .pop l ∧ b ≠ .after l
    · exact ⟨d, by rwa [processor_of_step hwork hother]⟩
    · cases b with
      | process l =>
        obtain ⟨_, _, _, _, hprocessor⟩ := process_spec hwork
        exact ⟨l, by simp [hprocessor]⟩
      | after l =>
        obtain ⟨_, _, _, n, _, _, hprocessor⟩ := after_spec hwork
        exact ⟨l, by simp [hprocessor]⟩
      | pop l => exact absurd rfl (hb l)
      | _ => exact absurd (by simp) hother
  cases a with
  | queue workCb afterCb userData allocated woken =>
    obtain ⟨_, _, hprocessor, _⟩ :=
      queue_spec s.work workCb afterCb userData allocated _ rfl
    have hwatched : (loopyWorkQueue s.work workCb afterCb userData allocated).2.processor d ≠
        .idle := by rwa [hprocessor]
    simp only [systemStep] at hstep
    split at hstep
    · cases hstep
    · split at hstep
      · obtain ⟨_, rfl⟩ := of_guard hstep
        exact ⟨hphase, d, hwatched⟩
      · obtain ⟨asleep, _, rfl⟩ := Option.map_eq_some_iff.mp hstep
        exact ⟨hphase, d, hwatched⟩
  | cancel | cancelAll | after =>
    obtain ⟨_, hstep⟩ := Option.ite_none_left_eq_some.mp hstep
    obtain ⟨work, hwork, rfl⟩ := poolStep_spec hstep
    exact ⟨hphase, hpool hwork (by simp)⟩
  | dequeue w =>
    obtain ⟨⟨_, hrunning⟩, _⟩ := Option.ite_none_right_eq_some.mp hstep
    exact absurd hrunning hphase
  | inspect w | finish w | uncount w | enqueueCompleted w =>
    obtain ⟨work, hwork, rfl⟩ := poolStep_spec hstep
    exact ⟨hphase, hpool hwork (by simp)⟩
  | compareExchange w | poll | finishCallback =>
    obtain ⟨_, hstep⟩ := Option.ite_none_right_eq_some.mp hstep
    obtain ⟨async, _, rfl⟩ := asyncStep_spec hstep
    exact ⟨hphase, d, hd⟩
  | write w | read | storePending =>
    obtain ⟨async, _, rfl⟩ := asyncStep_spec hstep
    exact ⟨hphase, d, hd⟩
  | sendReturn w | startCallback =>
    obtain ⟨r, hr, hstep⟩ := Option.bind_eq_some_iff.mp hstep
    obtain ⟨async, _, rfl⟩ := asyncStep_spec hr
    obtain ⟨work, hwork, rfl⟩ := poolStep_spec hstep
    exact ⟨hphase, hpool hwork (by simp)⟩
  | pop =>
    simp only [systemStep] at hstep
    split at hstep
    · next hrunning => exact absurd hrunning hphase
    · cases hstep
    · obtain ⟨_, rfl⟩ := of_guard hstep
      exact ⟨hphase, d, hd⟩
  | wake w | sleep w | exit w | enterLoop | leaveLoop =>
    obtain ⟨_, rfl⟩ := of_guard hstep
    exact ⟨hphase, d, hd⟩
  | free | join =>
    obtain ⟨_, rfl⟩ := of_guard hstep
    exact ⟨by simp, d, hd⟩

/-! ## What becomes of the pool and of its items -/

/-- Once the pool is freed from outside, nobody can do anything any more. -/
theorem FreedOutside.still (h : FreedOutside s) (hinv : SystemInv s) (hphase : s.phase = .released)
    (a : SystemAction W) : systemStep s a = none := by
  by_contra hne
  obtain ⟨s', hstep⟩ := Option.ne_none_iff_exists'.mp hne
  obtain ⟨hexited, _⟩ := hinv.crew.released hphase
  have hidle : ∀ w, s.work.worker w = .idle := fun w => (hinv.crew.exited w (hexited w)).1
  have hsender : ∀ w, s.async.sender w = .idle :=
    fun w => hinv.crew.sender_idle (by simp [hidle w])
  have hready : ∀ w, ¬ s.Ready w := by
    intro w hw
    rw [WorkSystem.Ready, hexited w] at hw
    exact absurd hw.2.2 (by simp)
  have hprocessor : s.processor = .idle := h.unwatched s.depth
  cases a with
  | wake w =>
    have := hinv.crew.awake h.phase w
    simp [systemStep, this] at hstep
  -- every worker is idle
  | inspect w | finish w | uncount w | enqueueCompleted w =>
    obtain ⟨work, hwork, rfl⟩ := poolStep_spec hstep
    simp [Work.step, hidle w] at hwork
  | after =>
    obtain ⟨_, hstep⟩ := Option.ite_none_left_eq_some.mp hstep
    obtain ⟨work, hwork, rfl⟩ := poolStep_spec hstep
    simp [Work.step, h.unwatched s.depth] at hwork
  | _ =>
    simp [systemStep, WorkSystem.poolStep, WorkSystem.asyncStep, WorkSystem.inCallback, Async.step,
      hphase, hidle, hsender, hready, hprocessor, h.loop, h.depth] at hstep

/-- Called from inside, the loop comes back to a freed pool. -/
theorem FreedInside.misused (h : FreedInside s) (hinv : SystemInv s)
    (hquiet : Quiet systemStep SystemAction.Own s) (hphase : s.phase = .released) :
    s.misused = true := by
  have hne : s.phase ≠ .closing := by
    rw [hphase]
    exact Phase.noConfusion
  rcases hinv.loops.resting h.phase with hwaiting | hrunning
  · -- the loop that waits is not the outermost one, and returns
    exfalso
    obtain ⟨d, hd⟩ := h.watched
    have hdepth : s.depth ≠ 0 := by
      intro hdepth
      rcases Nat.eq_zero_or_pos d with rfl | hpos
      · have := hinv.loops.top (by simp [hwaiting])
        rw [hdepth] at this
        exact hd this
      · exact hd (hinv.loops.above d (by omega))
    refine Quiet.not hquiet (a := .leaveLoop) trivial ?_
    simp [systemStep, hwaiting, Nat.pos_of_ne_zero hdepth, hne]
  · cases hprocessor : s.work.processor s.depth with
    | idle =>
      exfalso
      refine Quiet.not hquiet (a := .finishCallback) trivial ?_
      simp [systemStep, WorkSystem.processor, WorkSystem.asyncStep, Async.step, hrunning,
        hprocessor, hne]
    | popped n =>
      exfalso
      refine Quiet.not hquiet (a := .after) trivial ?_
      simp only [systemStep, if_neg hne]
      apply poolStep_ne_none
      simp only [Work.step, hprocessor]
      split <;> simp
    | processing =>
      by_contra hmisused
      refine Quiet.not hquiet (a := .pop) trivial ?_
      simp [systemStep, hphase, WorkSystem.processor, hprocessor, hmisused]

/-- What has become of an accepted item when the pool is freed. -/
inductive Disposed (s : WorkSystem W) (n : ℕ) : Prop
  /-- Its callback was called, if it has one. -/
  | delivered (hfreed : n ∈ s.work.freed) (hdropped : n ∉ s.dropped) (h : Delivered s.work n)
  /-- It is freed without a call of its callback, and its `workCb` is not running. -/
  | dropped (hdropped : n ∈ s.dropped) (hfreed : n ∉ s.work.freed)
      (hafters : (s.work.history n).afters = [])
      (hstopped : (s.work.history n).finished = (s.work.history n).started)
  /-- It is with the run of `workProcessCompleted` that the call has interrupted. -/
  | interrupted (d : ℕ) (hpopped : s.work.processor d = .popped n) (hdropped : n ∉ s.dropped)
      (hfreed : n ∉ s.work.freed)

omit [DecidableEq W] in
theorem SystemInv.disposed (h : SystemInv s) (hcalled : Called s.work)
    (hphase : s.phase = .released) {n : ℕ} (hn : n < s.work.accepted) : Disposed s n := by
  obtain ⟨hexited, hdropped⟩ := h.crew.released hphase
  obtain ⟨p, hp, hunique⟩ := h.pool.pool.settled n
  have hnot : ∀ q, q ≠ p → ¬ s.work.custody.At q n := fun q hq hat => hq (hunique q hat)
  have hmem : n ∈ s.dropped ↔ s.work.custody.At .pending n ∨ s.work.custody.At .completed n := by
    rw [hdropped, List.mem_append]
    exact Iff.rfl
  have hfits := h.pool.fits p n hp
  cases p with
  | unborn => exact absurd hn (Nat.not_lt.mpr hp)
  | held w =>
    have hidle := (h.crew.exited w (hexited w)).1
    have hheld : (s.work.worker w).item = some n := hp
    rw [hidle] at hheld
    cases hheld
  | pending =>
    obtain ⟨⟨hstarted, hfinished, hafters⟩, _⟩ := hfits
    exact .dropped (hmem.mpr (.inl hp)) (hnot .delivered nofun) hafters
      (hfinished.trans hstarted.symm)
  | completed =>
    obtain ⟨houtcome, hafters⟩ := hfits
    refine .dropped (hmem.mpr (.inr hp)) (hnot .delivered nofun) hafters ?_
    rcases houtcome with ⟨_, hstarted, hfinished⟩ | ⟨_, hstarted, hfinished, _⟩
    · rw [hstarted, hfinished]
    · rw [hstarted, hfinished]
  | popped d =>
    have hpopped : (s.work.processor d).item = some n := hp
    refine .interrupted d (Processor.item_eq_some hpopped) (fun hin => ?_) (hnot .delivered nofun)
    rcases hmem.mp hin with hat | hat
    · exact hnot .pending nofun hat
    · exact hnot .completed nofun hat
  | delivered =>
    refine .delivered hp (fun hin => ?_) (.of_freed h.pool hcalled hp)
    rcases hmem.mp hin with hat | hat
    · exact hnot .pending nofun hat
    · exact hnot .completed nofun hat

/-- **Freeing the pool.** Take a run with a call of `loopyWorkFree`, in the state `u`. The pool is
freed once the system has come to rest; every accepted item is then delivered, dropped without a
callback, or with the run of `workProcessCompleted` that the call interrupted, and in no other
place. A freed pool is used after that if and only if the call came while such a run was active;
otherwise nothing at all can happen once it is freed. -/
theorem freed_pool (maxQueueSize : ℕ) (before after : List (SystemAction W)) (u t : WorkSystem W)
    (hbefore : Run systemStep (fun _ _ => True) (.new W maxQueueSize) before u)
    (hafter : Run systemStep (fun _ _ => True) u (.free :: after) t) :
    (t.phase = .released → ∀ n, n < t.work.accepted → Disposed t n) ∧
      (Unwatched u → t.misused = false ∧
        (t.phase = .released → ∀ a, systemStep t a = none)) ∧
      (Quiet systemStep SystemAction.Own t →
        t.phase = .released ∧ (t.misused = true ↔ ¬ Unwatched u)) := by
  have hinv := (SystemInv.new maxQueueSize).run hbefore
  have hcalled : Called u.work := by
    refine Called.run (.new maxQueueSize) (fun n => ?_) hbefore
    simp [WorkSystem.new, loopyWorkNew]
  have hinv' := hinv.run hafter
  have hcalled' := Called.run hinv hcalled hafter
  cases hafter with
  | cons _ hfree hrest =>
    obtain ⟨⟨hphase, hloop⟩, rfl⟩ := of_guard hfree
    -- only a freed pool is misused, and up to the call it runs
    have hmisused : u.misused = false := by
      have hlate : u.misused = true → u.phase = .released :=
        hbefore.invariant (P := fun s => s.misused = true → s.phase = .released)
          (fun _ _ _ h _ hstep => misused_step h hstep) (by simp [WorkSystem.new])
      by_contra hne
      exact absurd (hphase.symm.trans (hlate (by simpa using hne))) (by simp)
    -- without a run of `workProcessCompleted`, the call comes from outside all loops
    have houtside : Unwatched u → FreedOutside t := by
      intro hunwatched
      have hdepth : u.depth = 0 := by
        by_contra hdepth
        obtain ⟨n, hn⟩ := hinv.loops.below (u.depth - 1) (by omega)
        rw [hunwatched] at hn
        cases hn
      have hwaiting : u.async.loop = .waiting := by
        refine hloop.resolve_right fun hcallback => ?_
        obtain ⟨n, hn⟩ := popped_of_inCallback hcallback
        rw [WorkSystem.processor, hunwatched] at hn
        cases hn
      exact hrest.invariant (fun _ _ _ h _ hstep => h.step hstep)
        ⟨by simp, hunwatched, hwaiting, hdepth, hmisused⟩
    -- otherwise the run that the call has interrupted comes back to what was freed
    have hinside : ¬ Unwatched u → FreedInside t := by
      intro hwatched
      unfold Unwatched at hwatched
      push Not at hwatched
      exact hrest.invariant (fun _ _ _ h _ hstep => h.step hstep) ⟨by simp, hwatched⟩
    refine ⟨fun hr n hn => hinv'.disposed hcalled' hr hn, fun hunwatched => ?_, fun hquiet => ?_⟩
    · have hfreed := houtside hunwatched
      exact ⟨hfreed.misused, hfreed.still hinv'⟩
    · have hreleased : t.phase = .released := by
        have hclosing := not_closing_at_rest hinv' hquiet
        have hrunning : t.phase ≠ .running := by
          by_cases hunwatched : Unwatched u
          · exact (houtside hunwatched).phase
          · exact (hinside hunwatched).phase
        cases hp : t.phase with
        | running => exact absurd hp hrunning
        | closing => exact absurd hp hclosing
        | released => rfl
      refine ⟨hreleased, fun hmisused hunwatched => ?_, fun hwatched => ?_⟩
      · rw [(houtside hunwatched).misused] at hmisused
        cases hmisused
      · exact (hinside hwatched).misused hinv' hquiet hreleased

/-- A worker runs an item while another one is pending and a third one is completed: the first is
finished and dropped with the others, and none of them is called back. -/
theorem freed_pool_dropped :
    ∃ u t : WorkSystem (Fin 2), Run systemStep (fun _ _ => True) (.new (Fin 2) 0)
        [.queue (some 7) (some 8) 0 true none, .dequeue 0, .queue (some 7) (some 8) 0 true none,
          .dequeue 1, .inspect 0, .finish 0, .uncount 0, .enqueueCompleted 0, .inspect 1,
          .queue (some 7) (some 8) 0 true none] u ∧
      Run systemStep (fun _ _ => True) u
        [.free, .compareExchange 0, .write 0, .sendReturn 0, .exit 0, .finish 1, .uncount 1,
          .enqueueCompleted 1, .compareExchange 1, .sendReturn 1, .exit 1, .join] t ∧
      (t.phase, t.dropped, t.misused) = (.released, [2, 0, 1], false) ∧ ∀ n < 3, Disposed t n := by
  have hexec : (exec systemStep (fun _ _ => True) (.new (Fin 2) 0)
      ([.queue (some 7) (some 8) 0 true none, .dequeue 0, .queue (some 7) (some 8) 0 true none,
        .dequeue 1, .inspect 0, .finish 0, .uncount 0, .enqueueCompleted 0, .inspect 1,
        .queue (some 7) (some 8) 0 true none] ++
      [.free, .compareExchange 0, .write 0, .sendReturn 0, .exit 0, .finish 1, .uncount 1,
        .enqueueCompleted 1, .compareExchange 1, .sendReturn 1, .exit 1, .join])).map
      (fun t => (t.phase, t.dropped, t.misused, t.work.accepted)) =
        some (.released, [2, 0, 1], false, 3) := by decide +kernel
  obtain ⟨t, hrun, hval⟩ := Run.of_exec_map hexec
  obtain ⟨u, hbefore, hafter⟩ := hrun.split
  simp only [Prod.mk.injEq] at hval
  obtain ⟨hphase, hdropped, hmisused, haccepted⟩ := hval
  have hall := (freed_pool 0 _ _ u t hbefore hafter).1 hphase
  rw [haccepted] at hall
  exact ⟨u, t, hbefore, hafter, by rw [hphase, hdropped, hmisused], hall⟩

end Loopy.Work
