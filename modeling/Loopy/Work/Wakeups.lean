import Loopy.Work.System

/-!
# No work item is left lying

Two ways to lose work in a pool: an item is queued while every worker sleeps and nobody is woken, or
an item is completed after the loop has looked and nothing brings the loop back. `SystemInv`
excludes both. The signals of `loopyWorkQueue` keep the pending items `Covered` by workers that are
about to look at the queue; and as long as an item is completed, a worker is about to send, the loop
is owed a callback (`Async.Owed`), or some run of `workProcessCompleted` has not ended yet.
-/

namespace Loopy.Work

open Loopy.Lib
open Loopy.Async (AsyncState SendPc LoopPc Token OnItsWay Owed compareExchange_spec write_spec
  sendReturn_spec loop_spec)
open Function (update update_eq_self update_of_ne update_self)

variable {W : Type}

/-! ## The invariant -/

/-- The loops below the innermost one are in a callback; the innermost one runs
`workProcessCompleted` while the callback of the handle runs. -/
structure LoopInv (s : WorkSystem W) : Prop where
  below : ∀ d, d < s.depth → ∃ n, s.work.processor d = .popped n
  above : ∀ d, s.depth < d → s.work.processor d = .idle
  top : s.async.loop ≠ .running → s.work.processor s.depth = .idle
  resting : s.phase ≠ .running → s.async.loop = .waiting ∨ s.async.loop = .running

/-- The workers: only a worker that notifies is in `loopyAsyncSend`, and only an idle one sleeps. -/
structure CrewInv (s : WorkSystem W) : Prop where
  sender : ∀ w, s.async.sender w ≠ .idle → s.work.worker w = .notifying
  asleep : ∀ w, s.asleep w → s.work.worker w = .idle ∧ s.exited w = false ∧ s.phase = .running
  exited : ∀ w, s.exited w → s.work.worker w = .idle ∧ s.phase ≠ .running
  released : s.phase = .released →
    (∀ w, s.exited w) ∧ s.dropped = s.work.pending ++ s.work.completed

/-- Somebody will look at the completed items. -/
def Rung (s : WorkSystem W) : Prop :=
  (∃ w, s.work.worker w = .notifying ∧ s.async.sender w = .idle) ∨ Owed s.async ∨
    ∃ d, s.work.processor d ≠ .idle

/-- The invariant. -/
structure SystemInv [Fintype W] (s : WorkSystem W) : Prop where
  pool : PoolInv s.work
  token : Token s.async
  loops : LoopInv s
  crew : CrewInv s
  covered : Covered s.asleep s.Ready s.work.pending.length
  rung : s.work.completed ≠ [] → Rung s

variable [DecidableEq W] [Fintype W] {s s' : WorkSystem W} {w : W}

omit [DecidableEq W] in
theorem SystemInv.new (maxQueueSize : ℕ) : SystemInv (.new W maxQueueSize) where
  pool := .new W ℕ maxQueueSize
  token := .fresh
  loops := ⟨fun d hd => absurd hd (Nat.not_lt_zero d), fun _ _ => rfl, fun _ => rfl,
    fun h => absurd rfl h⟩
  crew := ⟨fun _ h => absurd rfl h, nofun, nofun, nofun⟩
  covered := .zero
  rung h := absurd rfl h

/-! ## Steps of the callers -/

omit [DecidableEq W] [Fintype W] in
/-- Nothing that the loops or the workers rely on changes. -/
theorem Rung.congr (h : Rung s) (hworker : s'.work.worker = s.work.worker)
    (hasync : s'.async = s.async) (hprocessor : s'.work.processor = s.work.processor) :
    Rung s' := by
  unfold Rung
  rw [hworker, hasync, hprocessor]
  exact h

variable {work : LoopyWork W ℕ} {async : AsyncState W}

omit [DecidableEq W] [Fintype W] in
/-- A worker that was not about to send makes a step. -/
theorem Rung.worker (h : Rung s) (hw : s.work.worker w = .notifying → s.async.sender w ≠ .idle)
    (hworker : ∀ v, v ≠ w → work.worker v = s.work.worker v)
    (hsender : ∀ v, v ≠ w → async.sender v = s.async.sender v) (howed : Owed s.async → Owed async)
    (hprocessor : work.processor = s.work.processor) : Rung { s with work, async } := by
  rcases h with ⟨v, hv, hidle⟩ | h | hbusy
  · have hvw : v ≠ w := by
      rintro rfl
      exact hw hv hidle
    exact .inl ⟨v, (hworker v hvw).trans hv, (hsender v hvw).trans hidle⟩
  · exact .inr (.inl (howed h))
  · exact .inr (.inr (by simpa only [hprocessor] using hbusy))

omit [DecidableEq W] [Fintype W] in
theorem CrewInv.sender_idle (h : CrewInv s) (hw : s.work.worker w ≠ .notifying) :
    s.async.sender w = .idle := by
  by_contra hne
  exact hw (h.sender w hne)

/-- `loopyWorkQueue`: the signal wakes a worker for the new item. -/
theorem SystemInv.queue (h : SystemInv s) {workCb afterCb : Option ℕ} {userData : ℕ}
    {allocated : Bool} {woken : Option W}
    (hstep : systemStep s (.queue workCb afterCb userData allocated woken) = some s') :
    SystemInv s' := by
  have hpool := h.pool.queue workCb afterCb userData allocated
  obtain ⟨hworker, hcompleted, hprocessor, hcases⟩ :=
    queue_spec s.work workCb afterCb userData allocated _ rfl
  simp only [systemStep] at hstep
  -- from here on the pool is any pool of which `queue_spec` holds
  generalize (loopyWorkQueue s.work workCb afterCb userData allocated).2 = work at *
  split at hstep
  · cases hstep
  · next hphase =>
    have hloops : LoopInv { s with work := work } := by
      refine ⟨?_, ?_, ?_, h.loops.resting⟩
      all_goals simp only [hprocessor]
      · exact h.loops.below
      · exact h.loops.above
      · exact h.loops.top
    split at hstep
    · next hsame =>
      -- the item was refused
      obtain ⟨_, rfl⟩ := of_guard hstep
      have hpending : work.pending = s.work.pending := by
        rcases hcases with ⟨_, hpending⟩ | ⟨hnew, _⟩
        · exact hpending
        · omega
      refine ⟨hpool, h.token, hloops, ⟨?_, ?_, ?_, fun hr => absurd hr hphase⟩, ?_, fun hc => ?_⟩
      · simpa only [hworker] using h.crew.sender
      · simpa only [hworker] using h.crew.asleep
      · simpa only [hworker] using h.crew.exited
      · have hready : ∀ w, s.Ready w → WorkSystem.Ready { s with work := work } w := by
          intro w hw
          exact ⟨by rw [hworker]; exact hw.1, hw.2⟩
        exact h.covered.mono (fun _ ha => ha) hready (by rw [hpending])
      · exact (h.rung (hcompleted ▸ hc)).congr hworker rfl hprocessor
    · next hnew =>
      -- the item was appended, and the signal wakes one of those that sleep
      obtain ⟨asleep, hsignal, rfl⟩ := Option.map_eq_some_iff.mp hstep
      have hfewer := asleep_of_signal hsignal
      have hpending : work.pending = s.work.pending ++ [s.work.accepted] := by
        rcases hcases with ⟨hsame, _⟩ | ⟨_, hpending⟩
        · exact absurd hsame hnew
        · exact hpending
      refine ⟨hpool, h.token, ⟨hloops.below, hloops.above, hloops.top, hloops.resting⟩,
        ⟨?_, fun w hw => ?_, ?_, fun hr => absurd hr hphase⟩, ?_, fun hc => ?_⟩
      · simpa only [hworker] using h.crew.sender
      · simpa only [hworker] using h.crew.asleep w (hfewer w hw)
      · simpa only [hworker] using h.crew.exited
      · have hlength : work.pending.length = s.work.pending.length + 1 := by simp [hpending]
        show Covered asleep _ work.pending.length
        rw [hlength]
        refine h.covered.signal hsignal (fun w hw hready => ?_) (fun w hw => ?_)
          (fun w hw hw' => ?_)
        · rw [hready.2.1] at hw
          cases hw
        · exact ⟨by rw [hworker]; exact hw.1, awake_of_fewer hfewer hw.2.1, hw.2.2⟩
        · obtain ⟨hidle, hexited, _⟩ := h.crew.asleep w hw
          exact ⟨by rw [hworker]; exact hidle, hw', hexited⟩
      · exact (h.rung (hcompleted ▸ hc)).congr hworker rfl hprocessor

omit [DecidableEq W] in
/-- A step of the pool that leaves its queues, its workers and its loops. -/
theorem SystemInv.same (h : SystemInv s) (hpool : PoolInv work) (hsame : SameQueues s.work work)
    (hworker : work.worker = s.work.worker) : SystemInv { s with work := work } := by
  refine ⟨hpool, h.token, ⟨?_, ?_, ?_, h.loops.resting⟩, ⟨?_, ?_, ?_, ?_⟩, ?_, fun hc => ?_⟩
  · simpa only [hsame.processor] using h.loops.below
  · simpa only [hsame.processor] using h.loops.above
  · simpa only [hsame.processor] using h.loops.top
  · simpa only [hworker] using h.crew.sender
  · simpa only [hworker] using h.crew.asleep
  · simpa only [hworker] using h.crew.exited
  · simpa only [hsame.pending, hsame.completed] using h.crew.released
  · have hready : ∀ w, s.Ready w → WorkSystem.Ready { s with work := work } w := by
      intro w hw
      exact ⟨by rw [hworker]; exact hw.1, hw.2⟩
    exact h.covered.mono (fun _ ha => ha) hready (by rw [hsame.pending])
  · exact (h.rung (hsame.completed ▸ hc)).congr hworker rfl hsame.processor

/-! ## Steps of the workers -/

omit [DecidableEq W] [Fintype W] in
/-- Only workers that hold no item have exited. -/
theorem CrewInv.not_released (h : CrewInv s) (hw : s.work.worker w ≠ .idle) :
    s.phase ≠ .released := by
  intro hphase
  exact hw (h.exited w ((h.released hphase).1 w)).1

/-- A wait that returns by itself. -/
theorem SystemInv.wake (h : SystemInv s) (w : W) :
    SystemInv { s with asleep := update s.asleep w false } := by
  refine ⟨h.pool, h.token, ⟨h.loops.below, h.loops.above, h.loops.top, h.loops.resting⟩,
    ⟨h.crew.sender, fun v hv => h.crew.asleep v (asleep_of_update v hv), h.crew.exited,
      h.crew.released⟩, ?_, h.rung⟩
  apply h.covered.mono asleep_of_update _ le_rfl
  intro v hv
  exact ⟨hv.1, awake_of_fewer asleep_of_update hv.2.1, hv.2.2⟩

/-- A worker goes to sleep when there is nothing to do. -/
theorem SystemInv.sleep (h : SystemInv s) (hw : s.Ready w) (hpending : s.work.pending = [])
    (hphase : s.phase = .running) :
    SystemInv { s with asleep := update s.asleep w true } := by
  refine ⟨h.pool, h.token, ⟨h.loops.below, h.loops.above, h.loops.top, h.loops.resting⟩,
    ⟨h.crew.sender, fun v hv => ?_, h.crew.exited, h.crew.released⟩, ?_, h.rung⟩
  · by_cases hvw : v = w
    · subst hvw
      exact ⟨hw.1, hw.2.2, hphase⟩
    · simp only [update_of_ne hvw] at hv
      exact h.crew.asleep v hv
  · simp only [hpending, List.length_nil]
    -- nothing is pending, so nothing has to be covered
    exact Covered.zero

omit [DecidableEq W] [Fintype W] in
/-- From `loopyWorkFree` on nobody sleeps. -/
theorem CrewInv.awake (h : CrewInv s) (hphase : s.phase ≠ .running) (v : W) :
    s.asleep v = false := by
  by_contra hasleep
  exact hphase (h.asleep v (by simpa using hasleep)).2.2

namespace SystemInv

/-- A worker that sees the shutdown exits. -/
theorem exit (h : SystemInv s) (hw : s.Ready w) (hphase : s.phase ≠ .running) :
    SystemInv { s with exited := update s.exited w true } := by
  have hawake := h.crew.awake hphase
  refine ⟨h.pool, h.token, ⟨h.loops.below, h.loops.above, h.loops.top, h.loops.resting⟩,
    ⟨h.crew.sender, fun v hv => ?_, fun v hv => ?_, fun hr => ⟨fun v => ?_, ?_⟩⟩, ?_, h.rung⟩
  · rw [hawake v] at hv
    cases hv
  · by_cases hvw : v = w
    · subst hvw
      exact ⟨hw.1, hphase⟩
    · simp only [update_of_ne hvw] at hv
      exact h.crew.exited v hv
  · by_cases hvw : v = w
    · subst hvw
      simp
    · simp only [update_of_ne hvw]
      exact (h.crew.released hr).1 v
  · exact (h.crew.released hr).2
  · exact Covered.awake hawake

/-- A worker takes the first pending item. -/
theorem dequeue (h : SystemInv s) (hw : s.Ready w) (hphase : s.phase = .running)
    (hstep : step s.work (.dequeue w) = some work) : SystemInv { s with work } := by
  have hpool := h.pool.step hstep
  obtain ⟨_, hcompleted, hprocessor, n, rest, hpending, hrest, hworker⟩ := dequeue_spec hstep
  have hother : ∀ v, v ≠ w → work.worker v = s.work.worker v := by
    intro v hv
    rw [hworker, update_of_ne hv]
  have hsender : s.async.sender w = .idle := h.crew.sender_idle (by simp [hw.1])
  refine ⟨hpool, h.token, ⟨?_, ?_, ?_, h.loops.resting⟩,
    ⟨fun v hv => ?_, fun v hv => ?_, fun v hv => ?_, fun hr => ?_⟩, ?_, fun hc => ?_⟩
  · simpa only [hprocessor] using h.loops.below
  · simpa only [hprocessor] using h.loops.above
  · simpa only [hprocessor] using h.loops.top
  · have hvw : v ≠ w := by
      rintro rfl
      exact hv hsender
    simpa only [hother v hvw] using h.crew.sender v hv
  · have hvw : v ≠ w := by
      rintro rfl
      rw [hw.2.1] at hv
      cases hv
    simpa only [hother v hvw] using h.crew.asleep v hv
  · exact absurd hphase (h.crew.exited v hv).2
  · exact absurd (hphase.symm.trans hr) nofun
  · have hlength : s.work.pending.length = work.pending.length + 1 := by simp [hpending, hrest]
    have hcovered := h.covered
    rw [hlength] at hcovered
    -- one item fewer, and one worker fewer that is about to look at the queue
    apply hcovered.take (t := w) fun _ ha => ha
    intro v hvw hv
    exact ⟨by rw [hother v hvw]; exact hv.1, hv.2⟩
  · exact (h.rung (hcompleted ▸ hc)).worker (w := w) (by simp [hw.1]) hother (fun _ _ => rfl) id
      hprocessor

/-- A worker that has an item, or is in `loopyAsyncSend`, goes on. -/
theorem worker (h : SystemInv s) (w : W) (pc : Worker) (hpool : PoolInv work)
    (htoken : Token async) (hw : s.work.worker w ≠ .idle)
    (hworker : work.worker = update s.work.worker w pc) (hpending : work.pending = s.work.pending)
    (hprocessor : work.processor = s.work.processor) (hloop : async.loop = s.async.loop)
    (hsender : ∀ v, v ≠ w → async.sender v = s.async.sender v)
    (hpc : async.sender w ≠ .idle → pc = .notifying)
    (hrung : work.completed ≠ [] → Rung { s with work, async }) :
    SystemInv { s with work, async } := by
  have hother : ∀ v, s.work.worker v = .idle → work.worker v = .idle := by
    intro v hv
    have hvw : v ≠ w := by
      rintro rfl
      exact hw hv
    rw [hworker, update_of_ne hvw, hv]
  refine ⟨hpool, htoken, ⟨?_, ?_, ?_, ?_⟩,
    ⟨fun v hv => ?_, fun v hv => ?_, fun v hv => ?_, fun hr => ?_⟩, ?_, hrung⟩
  · simpa only [hprocessor] using h.loops.below
  · simpa only [hprocessor] using h.loops.above
  · simpa only [hprocessor, hloop] using h.loops.top
  · simpa only [hloop] using h.loops.resting
  · by_cases hvw : v = w
    · subst hvw
      simp only [hworker, update_self]
      exact hpc hv
    · simp only [hworker, update_of_ne hvw]
      exact h.crew.sender v (hsender v hvw ▸ hv)
  · obtain ⟨hidle, hrest⟩ := h.crew.asleep v hv
    exact ⟨hother v hidle, hrest⟩
  · obtain ⟨hidle, hrest⟩ := h.crew.exited v hv
    exact ⟨hother v hidle, hrest⟩
  · exact absurd hr (h.crew.not_released hw)
  · apply h.covered.mono (fun _ ha => ha) _ (by rw [hpending])
    intro v hv
    exact ⟨hother v hv.1, hv.2⟩

/-- The workers go on with their items. -/
theorem busy (h : SystemInv s) {a : Action W ℕ}
    (ha : a = .inspect w ∨ a = .finish w ∨ a = .uncount w) (hstep : step s.work a = some work) :
    SystemInv { s with work } := by
  have hpool := h.pool.step hstep
  obtain ⟨hsame, p, q, n, hw, hworker, _⟩ := busy_spec ha hstep
  have hsender : s.async.sender w = .idle := h.crew.sender_idle (by simp [hw])
  refine h.worker w _ hpool h.token (by simp [hw]) hworker hsame.pending hsame.processor rfl
    (fun _ _ => rfl) (fun hne => absurd hsender hne) fun hc => ?_
  refine (h.rung (hsame.completed ▸ hc)).worker (w := w) (by simp [hw]) (fun v hv => ?_)
    (fun _ _ => rfl) id hsame.processor
  rw [hworker, update_of_ne hv]

/-- A worker appends its item to the completed ones, and will send. -/
theorem enqueueCompleted (h : SystemInv s)
    (hstep : step s.work (.enqueueCompleted w) = some work) : SystemInv { s with work } := by
  have hpool := h.pool.step hstep
  obtain ⟨hpending, hprocessor, n, hw, _, hworker⟩ := enqueueCompleted_spec hstep
  have hsender : s.async.sender w = .idle := h.crew.sender_idle (by simp [hw])
  refine h.worker w _ hpool h.token (by simp [hw]) hworker hpending hprocessor rfl
    (fun _ _ => rfl) (fun hne => absurd hsender hne) fun _ => .inl ⟨w, ?_, hsender⟩
  simp only [hworker, update_self]

/-- The compare-exchange of a worker: from here on the loop is owed a callback. -/
theorem compareExchange (h : SystemInv s) (hw : s.work.worker w = .notifying)
    (hstep : Async.step s.async (.compareExchange w) = some async) :
    SystemInv { s with async } := by
  obtain ⟨_, hloop, _, pc, _, hsender⟩ := compareExchange_spec hstep
  refine h.worker w .notifying h.pool (h.token.step hstep) (by simp [hw]) ?_ rfl rfl hloop
    (fun v hv => ?_) (fun _ => rfl) fun _ => .inr (.inl (Async.compareExchange_owed hstep))
  · rw [← hw, update_eq_self]
  · rw [hsender, update_of_ne hv]

/-- The write of a worker. -/
theorem write (h : SystemInv s) (hstep : Async.step s.async (.write w) = some async) :
    SystemInv { s with async } := by
  obtain ⟨hwriting, hloop, hsender⟩ := write_spec hstep
  have hw : s.work.worker w = .notifying := h.crew.sender w (by simp [hwriting])
  have hother : ∀ v, v ≠ w → async.sender v = s.async.sender v := by
    intro v hv
    rw [hsender, update_of_ne hv]
  refine h.worker w .notifying h.pool (h.token.step hstep) (by simp [hw]) ?_ rfl rfl hloop
    hother (fun _ => rfl) fun hc => ?_
  · rw [← hw, update_eq_self]
  · exact (h.rung hc).worker (w := w) (by simp [hwriting]) (fun _ _ => rfl) hother
      (fun howed => howed.step (a := .write w) nofun hstep) rfl

/-- A worker returns from `loopyAsyncSend`. -/
theorem sendReturn (h : SystemInv s)
    (hsend : Async.step s.async (.sendReturn w) = some async)
    (hstep : step s.work (.notify w) = some work) : SystemInv { s with work, async } := by
  have hpool := h.pool.step hstep
  obtain ⟨hreturning, hloop, _, hsender⟩ := sendReturn_spec hsend
  obtain ⟨hsame, hw, hworker⟩ := notify_spec hstep
  have hother : ∀ v, v ≠ w → async.sender v = s.async.sender v := by
    intro v hv
    rw [hsender, update_of_ne hv]
  refine h.worker w _ hpool (h.token.step hsend) (by simp [hw]) hworker hsame.pending
    hsame.processor hloop hother (fun hne => ?_) fun hc => ?_
  · rw [hsender, update_self] at hne
    exact absurd rfl hne
  · refine (h.rung (hsame.completed ▸ hc)).worker (w := w) (by simp [hreturning])
      (fun v hv => ?_) hother (fun howed => howed.step (a := .sendReturn w) nofun hsend)
      hsame.processor
    rw [hworker, update_of_ne hv]

end SystemInv

/-! ## Steps of the loop -/

omit [DecidableEq W] in
/-- The loop goes on, and leaves the workers and the pending items alone. -/
theorem SystemInv.loop (h : SystemInv s) {depth : ℕ} (hpool : PoolInv work) (htoken : Token async)
    (hworker : work.worker = s.work.worker) (hpending : work.pending = s.work.pending)
    (hsender : async.sender = s.async.sender)
    (hreleased : s.phase = .released → work.completed = s.work.completed)
    (hloops : LoopInv { s with work, async, depth })
    (hrung : work.completed ≠ [] → Rung { s with work, async, depth }) :
    SystemInv { s with work, async, depth } := by
  refine ⟨hpool, htoken, hloops, ⟨?_, ?_, ?_, fun hr => ⟨(h.crew.released hr).1, ?_⟩⟩, ?_, hrung⟩
  · simpa only [hworker, hsender] using h.crew.sender
  · simpa only [hworker] using h.crew.asleep
  · simpa only [hworker] using h.crew.exited
  · simpa only [hpending, hreleased hr] using (h.crew.released hr).2
  · apply h.covered.mono (fun _ ha => ha) _ (by rw [hpending])
    intro v hv
    exact ⟨by rw [hworker]; exact hv.1, hv.2⟩

variable {a : Async.Action W} {p q : LoopPc}

/-- The loop on its way from the poll to the callback, and from the callback to the poll. -/
theorem SystemInv.handle (h : SystemInv s) (hstep : Async.step s.async a = some async)
    (ha : (a, p, q) = (.poll, .waiting, .dispatched) ∨ (a, p, q) = (.read, .dispatched, .drained) ∨
      (a, p, q) = (.storePending, .drained, .cleared) ∨
      (a, p, q) = (.finishCallback, .running, .waiting))
    (hidle : s.processor = .idle) (hphase : s.phase = .running ∨ p = .running) :
    SystemInv { s with async } := by
  have hspec : s.async.loop = p ∧ async.loop = q ∧ async.sender = s.async.sender := by
    refine loop_spec ?_ hstep
    rcases ha with ha | ha | ha | ha
    · exact .inl ha
    · exact .inr (.inl ha)
    · exact .inr (.inr (.inl ha))
    · exact .inr (.inr (.inr (.inr ha)))
  obtain ⟨_, hloop, hsender⟩ := hspec
  -- what is owed stays owed up to the start of the callback, which is none of these steps
  have hcallback : a ≠ .startCallback := by
    rintro rfl
    simp at ha
  have hq : p = .running → q = .waiting := by
    rintro rfl
    have hfinish : a = .finishCallback ∧ q = .waiting := by simpa using ha
    exact hfinish.2
  refine h.loop h.pool (h.token.step hstep) rfl rfl hsender (fun _ => rfl)
    ⟨h.loops.below, h.loops.above, fun _ => hidle, fun hr => ?_⟩ fun hc => ?_
  · rcases hphase with hphase | hp
    · exact absurd hphase hr
    · exact .inl (hloop.trans (hq hp))
  · rcases h.rung hc with ⟨v, hv, hv'⟩ | howed | hbusy
    · exact .inl ⟨v, hv, by rw [hsender]; exact hv'⟩
    · exact .inr (.inl (howed.step hcallback hstep))
    · exact .inr (.inr hbusy)

omit [DecidableEq W] [Fintype W] in
/-- While the callback runs, the innermost loop may be anywhere in `workProcessCompleted`. -/
theorem LoopInv.processor (h : LoopInv s) {pc : Processor} (hloop : async.loop = .running)
    (hprocessor : work.processor = update s.work.processor s.depth pc) :
    LoopInv { s with work, async } := by
  refine ⟨fun d hd => ?_, fun d hd => ?_, fun hne => absurd hloop hne, fun _ => .inr hloop⟩
  · simpa only [hprocessor, update_of_ne (Nat.ne_of_lt hd)] using h.below d hd
  · simpa only [hprocessor, update_of_ne (Nat.ne_of_gt hd)] using h.above d hd

omit [DecidableEq W] [Fintype W] in
/-- A run of `workProcessCompleted` in the innermost loop is a run of the callback. -/
theorem LoopInv.running (h : LoopInv s) (hne : s.processor ≠ .idle) : s.async.loop = .running := by
  by_contra hloop
  exact hne (h.top hloop)

/-- The callback starts: `workAsyncCallback` calls `workProcessCompleted`. -/
theorem SystemInv.startCallback (h : SystemInv s)
    (hstart : Async.step s.async .startCallback = some async)
    (hstep : step s.work (.process s.depth) = some work) : SystemInv { s with work, async } := by
  have hpool := h.pool.step hstep
  obtain ⟨_, hloop, hsender⟩ := loop_spec (p := .cleared) (q := .running) (by simp) hstart
  obtain ⟨hpending, hcompleted, hworker, _, hprocessor⟩ := process_spec hstep
  refine h.loop hpool (h.token.step hstart) hworker hpending hsender (fun _ => hcompleted)
    (h.loops.processor hloop hprocessor) fun _ => .inr (.inr ⟨s.depth, ?_⟩)
  simp only [hprocessor, update_self]
  exact Processor.noConfusion

/-- `workProcessCompleted` takes the first completed item, or ends. -/
theorem SystemInv.pop (h : SystemInv s) (hphase : s.phase = .running)
    (hstep : step s.work (.pop s.depth) = some work) : SystemInv { s with work } := by
  have hpool := h.pool.step hstep
  obtain ⟨hpending, hworker, hprocessing, hcases⟩ := pop_spec hstep
  have hrunning : s.async.loop = .running :=
    h.loops.running (by simp [WorkSystem.processor, hprocessing])
  have hreleased : s.phase = .released → work.completed = s.work.completed := by
    intro hr
    exact absurd (hphase.symm.trans hr) nofun
  rcases hcases with ⟨_, hempty, hprocessor⟩ | ⟨n, rest, _, _, hprocessor⟩
  · exact h.loop hpool h.token hworker hpending rfl hreleased
      (h.loops.processor hrunning hprocessor) fun hc => absurd hempty hc
  · refine h.loop hpool h.token hworker hpending rfl hreleased
      (h.loops.processor hrunning hprocessor) fun _ => .inr (.inr ⟨s.depth, ?_⟩)
    simp only [hprocessor, update_self]
    exact Processor.noConfusion

/-- The callback of an item returns, and the item is freed. -/
theorem SystemInv.after (h : SystemInv s) (hstep : step s.work (.after s.depth) = some work) :
    SystemInv { s with work } := by
  have hpool := h.pool.step hstep
  obtain ⟨hpending, hcompleted, hworker, n, hpopped, _, hprocessor⟩ := after_spec hstep
  have hrunning : s.async.loop = .running :=
    h.loops.running (by simp [WorkSystem.processor, hpopped])
  refine h.loop hpool h.token hworker hpending rfl (fun _ => hcompleted)
    (h.loops.processor hrunning hprocessor) fun _ => .inr (.inr ⟨s.depth, ?_⟩)
  simp only [hprocessor, update_self]
  exact Processor.noConfusion

omit [DecidableEq W] [Fintype W] in
theorem popped_of_inCallback (h : s.inCallback) : ∃ n, s.processor = .popped n := by
  unfold WorkSystem.inCallback at h
  split at h
  · next n hn => exact ⟨n, hn⟩
  · cases h

omit [DecidableEq W] in
/-- A callback runs the loop again. -/
theorem SystemInv.enterLoop (h : SystemInv s) (hcallback : s.inCallback) :
    SystemInv { s with depth := s.depth + 1, async := { s.async with loop := .waiting } } := by
  obtain ⟨n, hn⟩ := popped_of_inCallback hcallback
  have hrunning : s.async.loop = .running := h.loops.running (by simp [hn])
  -- the handle is free to bring the inner loop to a callback of its own
  have htoken : Token { s.async with loop := .waiting } :=
    h.token.congr rfl rfl (fun _ => Iff.rfl) (by simp [hrunning]) (by simp)
  refine h.loop h.pool htoken rfl rfl rfl (fun _ => rfl)
    ⟨fun d hd => ?_, fun d hd => ?_, fun _ => ?_, fun _ => .inl rfl⟩
    fun _ => .inr (.inr ⟨s.depth, ?_⟩)
  · rcases Nat.lt_succ_iff_lt_or_eq.mp hd with hd | rfl
    · exact h.loops.below d hd
    · -- the loop of the callback itself is now one of those below
      exact ⟨n, hn⟩
  · exact h.loops.above d (Nat.lt_of_succ_lt hd)
  · exact h.loops.above _ (Nat.lt_succ_self _)
  · rw [WorkSystem.processor] at hn
    simp only [hn]
    exact Processor.noConfusion

omit [DecidableEq W] in
/-- The loop of a callback returns. -/
theorem SystemInv.leaveLoop (h : SystemInv s) (hdepth : 0 < s.depth)
    (hloop : s.async.loop = .waiting) :
    SystemInv { s with depth := s.depth - 1, async := { s.async with loop := .running } } := by
  have hidle : s.work.processor s.depth = .idle := by
    apply h.loops.top
    rw [hloop]
    exact LoopPc.noConfusion
  obtain ⟨n, hn⟩ := h.loops.below (s.depth - 1) (by omega)
  have htoken : Token { s.async with loop := .running } :=
    h.token.congr rfl rfl (fun _ => Iff.rfl) (by simp [hloop]) (by simp)
  refine h.loop h.pool htoken rfl rfl rfl (fun _ => rfl)
    ⟨fun d hd => ?_, fun d hd => ?_, fun hne => absurd rfl hne, fun _ => .inr rfl⟩
    fun _ => .inr (.inr ⟨s.depth - 1, ?_⟩)
  · exact h.loops.below d (Nat.lt_of_lt_pred hd)
  · by_cases hd' : d = s.depth
    · rw [hd']
      exact hidle
    · have hd : s.depth - 1 < d := hd
      exact h.loops.above d (by omega)
  · simp only [hn]
    exact Processor.noConfusion

/-! ## Teardown -/

omit [DecidableEq W] in
/-- `loopyWorkFree` sets the flag and wakes all workers. -/
theorem SystemInv.free (h : SystemInv s) (hloop : s.async.loop = .waiting ∨ s.inCallback) :
    SystemInv { s with phase := .closing, asleep := fun _ => false } := by
  refine ⟨h.pool, h.token, ⟨h.loops.below, h.loops.above, h.loops.top, fun _ => ?_⟩,
    ⟨h.crew.sender, nofun, fun v hv => ⟨(h.crew.exited v hv).1, nofun⟩, nofun⟩,
    Covered.awake fun _ => rfl, h.rung⟩
  -- the call comes from outside the loop, or from the callback of an item
  rcases hloop with hloop | hcallback
  · exact .inl hloop
  · obtain ⟨n, hn⟩ := popped_of_inCallback hcallback
    exact .inr (h.loops.running (by simp [hn]))

omit [DecidableEq W] in
/-- All workers are joined, and what is left is freed. -/
theorem SystemInv.join (h : SystemInv s) (hphase : s.phase = .closing)
    (hexited : ∀ w, s.exited w) :
    SystemInv { s with phase := .released, dropped := s.work.pending ++ s.work.completed } := by
  have hne : s.phase ≠ .running := by
    rw [hphase]
    exact Phase.noConfusion
  refine ⟨h.pool, h.token,
    ⟨h.loops.below, h.loops.above, h.loops.top, fun _ => h.loops.resting hne⟩,
    ⟨h.crew.sender, fun v hv => ?_, fun v hv => ⟨(h.crew.exited v hv).1, nofun⟩,
      fun _ => ⟨hexited, rfl⟩⟩, h.covered, h.rung⟩
  exact absurd hphase (by rw [(h.crew.asleep v hv).2.2]; exact Phase.noConfusion)

omit [DecidableEq W] in
/-- The lock of a freed mutex changes nothing that is left. -/
theorem SystemInv.misuse (h : SystemInv s) : SystemInv { s with misused := true } :=
  ⟨h.pool, h.token, ⟨h.loops.below, h.loops.above, h.loops.top, h.loops.resting⟩,
    ⟨h.crew.sender, h.crew.asleep, h.crew.exited, h.crew.released⟩, h.covered, h.rung⟩

/-! ## Every step keeps the invariant -/

omit [Fintype W] in
theorem poolStep_spec {a : Action W ℕ} (h : s.poolStep a = some s') :
    ∃ work, step s.work a = some work ∧ s' = { s with work } := by
  obtain ⟨work, hstep, rfl⟩ := Option.map_eq_some_iff.mp h
  exact ⟨work, hstep, rfl⟩

omit [Fintype W] in
theorem asyncStep_spec (h : s.asyncStep a = some s') :
    ∃ async, Async.step s.async a = some async ∧ s' = { s with async } := by
  obtain ⟨async, hstep, rfl⟩ := Option.map_eq_some_iff.mp h
  exact ⟨async, hstep, rfl⟩

omit [DecidableEq W] in
/-- Before the callback nothing in the innermost loop runs. -/
theorem SystemInv.processor_idle (h : SystemInv s) (hloop : s.async.loop ≠ .running) :
    s.processor = .idle := h.loops.top hloop

omit [DecidableEq W] in
/-- On its way to the callback, the loop has not called `loopyWorkFree`. -/
theorem SystemInv.phase_running (h : SystemInv s) (hwaiting : s.async.loop ≠ .waiting)
    (hrunning : s.async.loop ≠ .running) : s.phase = .running := by
  by_contra hphase
  rcases h.loops.resting hphase with hloop | hloop
  · exact hwaiting hloop
  · exact hrunning hloop

/-- The loop empties the handle before it calls back. -/
theorem SystemInv.dispatch (h : SystemInv s)
    (ha : (a, p, q) = (.read, .dispatched, .drained) ∨ (a, p, q) = (.storePending, .drained, .cleared))
    (hasync : Async.step s.async a = some async) : SystemInv { s with async } := by
  rcases ha with ha | ha
  all_goals
    cases ha
    obtain ⟨hloop, -⟩ := Option.ite_none_right_eq_some.mp hasync
    have hidle := h.processor_idle (by simp [hloop])
    have hphase := h.phase_running (by simp [hloop]) (by simp [hloop])
  · exact h.handle hasync (.inr (.inl rfl)) hidle (.inl hphase)
  · exact h.handle hasync (.inr (.inr (.inl rfl))) hidle (.inl hphase)

/-- A loop pops an item, or it comes back to a pool that has been freed. -/
theorem SystemInv.popOrMisuse (h : SystemInv s) (hstep : systemStep s .pop = some s') :
    SystemInv s' := by
  simp only [systemStep] at hstep
  split at hstep
  · next hphase =>
    obtain ⟨work, hwork, rfl⟩ := poolStep_spec hstep
    exact h.pop hphase hwork
  · cases hstep
  · obtain ⟨_, rfl⟩ := of_guard hstep
    exact h.misuse

/-- Every step keeps the invariant. -/
theorem SystemInv.step (h : SystemInv s) {a : SystemAction W} (hstep : systemStep s a = some s') :
    SystemInv s' := by
  cases a with
  | queue workCb afterCb userData allocated woken => exact h.queue hstep
  | cancel workId =>
    obtain ⟨_, hstep⟩ := Option.ite_none_left_eq_some.mp hstep
    obtain ⟨work, hwork, rfl⟩ := poolStep_spec hstep
    obtain ⟨hsame, hworker⟩ := cancel_same hwork
    exact h.same (h.pool.step hwork) hsame hworker
  | cancelAll =>
    obtain ⟨_, hstep⟩ := Option.ite_none_left_eq_some.mp hstep
    obtain ⟨work, hwork, rfl⟩ := poolStep_spec hstep
    obtain ⟨hsame, hworker⟩ := cancelAll_same hwork
    exact h.same (h.pool.step hwork) hsame hworker
  | wake w =>
    obtain ⟨_, rfl⟩ := of_guard hstep
    exact h.wake w
  | sleep w =>
    obtain ⟨⟨hw, hpending, hphase⟩, rfl⟩ := of_guard hstep
    exact h.sleep hw hpending hphase
  | exit w =>
    obtain ⟨⟨hw, hphase⟩, rfl⟩ := of_guard hstep
    exact h.exit hw hphase
  | dequeue w =>
    obtain ⟨⟨hw, hphase⟩, hstep⟩ := Option.ite_none_right_eq_some.mp hstep
    obtain ⟨work, hwork, rfl⟩ := poolStep_spec hstep
    exact h.dequeue hw hphase hwork
  | inspect w | finish w | uncount w =>
    obtain ⟨work, hwork, rfl⟩ := poolStep_spec hstep
    exact h.busy (w := w) (by simp) hwork
  | enqueueCompleted w =>
    obtain ⟨work, hwork, rfl⟩ := poolStep_spec hstep
    exact h.enqueueCompleted hwork
  | compareExchange w =>
    obtain ⟨hw, hstep⟩ := Option.ite_none_right_eq_some.mp hstep
    obtain ⟨async, hasync, rfl⟩ := asyncStep_spec hstep
    exact h.compareExchange hw hasync
  | write w =>
    obtain ⟨async, hasync, rfl⟩ := asyncStep_spec hstep
    exact h.write hasync
  | sendReturn w =>
    obtain ⟨t, ht, hstep⟩ := Option.bind_eq_some_iff.mp hstep
    obtain ⟨async, hasync, rfl⟩ := asyncStep_spec ht
    obtain ⟨work, hwork, rfl⟩ := poolStep_spec hstep
    exact h.sendReturn hasync hwork
  | poll =>
    obtain ⟨hphase, hstep⟩ := Option.ite_none_right_eq_some.mp hstep
    obtain ⟨async, hasync, rfl⟩ := asyncStep_spec hstep
    obtain ⟨hloop, _⟩ := loop_spec (p := .waiting) (q := .dispatched) (by simp) hasync
    have hidle := h.processor_idle (by simp [hloop])
    exact h.handle hasync (.inl rfl) hidle (.inl hphase)
  | read =>
    obtain ⟨async, hasync, rfl⟩ := asyncStep_spec hstep
    exact h.dispatch (.inl rfl) hasync
  | storePending =>
    obtain ⟨async, hasync, rfl⟩ := asyncStep_spec hstep
    exact h.dispatch (.inr rfl) hasync
  | startCallback =>
    obtain ⟨t, ht, hstep⟩ := Option.bind_eq_some_iff.mp hstep
    obtain ⟨async, hasync, rfl⟩ := asyncStep_spec ht
    obtain ⟨work, hwork, rfl⟩ := poolStep_spec hstep
    exact h.startCallback hasync hwork
  | pop => exact h.popOrMisuse hstep
  | after =>
    obtain ⟨_, hstep⟩ := Option.ite_none_left_eq_some.mp hstep
    obtain ⟨work, hwork, rfl⟩ := poolStep_spec hstep
    exact h.after hwork
  | finishCallback =>
    obtain ⟨⟨hidle, _⟩, hstep⟩ := Option.ite_none_right_eq_some.mp hstep
    obtain ⟨async, hasync, rfl⟩ := asyncStep_spec hstep
    exact h.handle (p := .running) (q := .waiting) hasync (.inr (.inr (.inr rfl))) hidle (.inr rfl)
  | enterLoop =>
    obtain ⟨⟨hcallback, _⟩, rfl⟩ := of_guard hstep
    exact h.enterLoop hcallback
  | leaveLoop =>
    obtain ⟨⟨hdepth, hloop, _⟩, rfl⟩ := of_guard hstep
    exact h.leaveLoop hdepth hloop
  | free =>
    obtain ⟨⟨_, hloop⟩, rfl⟩ := of_guard hstep
    exact h.free hloop
  | join =>
    obtain ⟨⟨hphase, hexited⟩, rfl⟩ := of_guard hstep
    exact h.join hphase hexited

theorem SystemInv.run (h : SystemInv s) {ok : WorkSystem W → SystemAction W → Prop}
    {as : List (SystemAction W)} (hrun : Run systemStep ok s as s') : SystemInv s' :=
  hrun.invariant (fun _ _ _ h _ hstep => h.step hstep) h

/-! ## Nothing is stranded -/

/-- What the system guarantees about the items that wait. -/
structure NothingStranded (s : WorkSystem W) : Prop where
  /-- As long as a worker sleeps, every pending item has a worker of its own that is about to look
  at the queue. -/
  pending : (∃ w, s.asleep w) → s.work.pending.length ≤ (Finset.univ.filter s.Ready).card
  /-- For the completed items a worker is about to send, a send is on its way to the callback, or a
  run of `workProcessCompleted` has not ended. -/
  completed : s.work.completed ≠ [] →
    (∃ w, s.work.worker w = .notifying ∧ s.async.sender w = .idle) ∨ OnItsWay s.async ∨
      ∃ d, s.work.processor d ≠ .idle

/-- **Nothing is stranded.** In every run of the pool with its sleeping workers, its handle, nested
loops and `loopyWorkFree`, no pending item waits while all workers sleep, and no completed item
waits for a callback that nobody will bring about. -/
theorem nothing_stranded (maxQueueSize : ℕ) (as : List (SystemAction W)) (s : WorkSystem W)
    (hrun : Run systemStep (fun _ _ => True) (.new W maxQueueSize) as s) : NothingStranded s := by
  have hinv := (SystemInv.new maxQueueSize).run hrun
  refine ⟨hinv.covered, fun hc => ?_⟩
  rcases hinv.rung hc with hsender | howed | hbusy
  · exact .inl hsender
  · exact .inr (.inl (howed.onItsWay hinv.token))
  · exact .inr (.inr hbusy)

/-- Both workers sleep, an item is queued and wakes one of them; while the callback of that item
runs the loop again, a second item is completed and its send is on its way to the inner loop. -/
theorem nothing_stranded_nested :
    ∃ s : WorkSystem (Fin 2), Run systemStep (fun _ _ => True) (.new (Fin 2) 0)
        [.sleep 0, .sleep 1, .queue (some 7) (some 8) 0 true (some 1), .dequeue 1, .inspect 1,
          .finish 1, .uncount 1, .enqueueCompleted 1, .compareExchange 1, .write 1, .sendReturn 1,
          .poll, .read, .storePending, .startCallback, .pop, .enterLoop,
          .queue (some 9) none 0 true (some 0), .dequeue 0, .inspect 0, .finish 0, .uncount 0,
          .enqueueCompleted 0, .compareExchange 0] s ∧
      s.depth = 1 ∧ s.work.completed = [1] ∧ NothingStranded s := by
  refine Run.exists_of_exec (f := fun s => (s.depth, s.work.completed)) (b := (1, [1]))
    (by decide +kernel) fun s hrun hval => ?_
  obtain ⟨hdepth, hcompleted⟩ := Prod.mk.inj hval
  exact ⟨hdepth, hcompleted, nothing_stranded 0 _ s hrun⟩

end Loopy.Work
