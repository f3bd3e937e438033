import Loopy.EventLoop.Descriptors
import Loopy.Dispatch.Batch
import Loopy.Metrics.Basic

/-!
# What the metrics say about the loop

The machine of the event loop with the metrics beside it: each step runs the hooks that the code of
the step calls. An `Account` keeps what has happened in unbounded numbers, and `Books` says what the
counters are in its terms after any run. So `Measured` is exactly when they describe the loop: no
descriptor may ever have been registered, as no function of the core counts them.

A poll is one step, in which no user code runs.
-/

namespace Loopy.Metrics

open Loopy.Lib Loopy.EventLoop Loopy.Epoll

/-! ## The loop with its metrics -/

/-- The wall clock at the two ends of a poll, in microseconds. -/
structure Clock where
  entry : UInt64
  exit : UInt64
deriving DecidableEq, Repr

/-- A step of the core, or a poll that returns the -1 of a failed system call. -/
inductive Operation (ε π : Type)
  | core (i : Input ε π) (clock : Clock)
  | pollFails (shortest now : ℕ) (clock : Clock)

/-- What has happened, for as long as the loop has metrics. -/
structure Account where
  peakFds : ℕ
  dispatched : ℕ
  polls : ℕ
  failedPolls : ℕ
  pollTime : ℕ
  steppedBack : ℕ
deriving DecidableEq, Repr

/-- A loop with its metrics. -/
structure Metered (σ : Type) where
  machine : Machine σ
  metrics : Option LoopyMetricsInternal
  account : Account

section

variable {σ ε π : Type}

/-- The number of descriptors with a non-empty mask. -/
def fdCount (l : LoopyLoop σ) : ℕ :=
  (List.range l.setSize).countP fun i => decide ((l.events i).mask ≠ .NONE)

/-- The step is a poll. -/
def isPoll (m : Machine σ) : Input ε π → Bool
  | .poll _ _ =>
    match m.frames with
    | .process p :: _ => p.pc = .polling
    | _ => false
  | _ => false

/-- The step takes up the next entry of a batch. -/
def takesUp (m : Machine σ) : Input ε π → Bool
  | .go =>
    match m.frames with
    | .process p :: _ =>
      match p.pc with
      | .entry j => j < p.numevents
      | _ => false
    | _ => false
  | _ => false

/-- What the innermost poll has returned. -/
def numevents (m : Machine σ) : ℕ :=
  match m.frames with
  | .process p :: _ => p.numevents
  | _ => 0

/-- The timers are about to be run. -/
def wheelRuns (m : Machine σ) : Bool :=
  match m.frames with
  | .process p :: _ => p.pc = .wheel
  | _ => false

/-- `loopyDeinit` was the latest event. -/
def deinited (m : Machine σ) : Bool :=
  match m.events with
  | .deinit _ :: _ => true
  | _ => false

/-- The hooks around a poll. -/
def meter (clock : Clock) (numevents : ℤ) (metrics : Option LoopyMetricsInternal) :
    Option LoopyMetricsInternal :=
  let metrics := loopyMetricsPollEntry metrics clock.entry
  let metrics := loopyMetricsPollExit metrics clock.exit numevents
  loopyMetricsAddEventsProcessed metrics numevents

/-- The hooks called on the way from `m` to `m'`. -/
def hooks (m m' : Machine σ) (i : Input ε π) (clock : Clock)
    (metrics : Option LoopyMetricsInternal) : Option LoopyMetricsInternal :=
  if isPoll m i then meter clock (numevents m') metrics
  else if deinited m' then loopyMetricsDisable metrics
  else
    match m.frames, i with
    | .loopyDo _ .top :: _, .go =>
      if m.loop.stop then metrics else loopyMetricsIncrementIterations metrics
    | .process _ :: _, .clock _ =>
      if wheelRuns m' then loopyMetricsIncrementTimersProcessed metrics else metrics
    | _, _ => metrics

/-- `loopyProcessEvents` around a poll that returns -1: nothing is dispatched, and the timers are
run only if the next one is due. -/
def pollFails (m : Machine σ) (shortest now : ℕ) : Option (Machine σ) :=
  if m.crashed ∨ m.freed ∨ m.loop.state.isNone then none
  else
    match m.frames with
    | .process p :: fs =>
      if p.pc = .polling then
        let shortest := if p.hasTimers ∧ ¬ p.flags.nowait then shortest else 0
        let due := p.hasTimers ∧ ¬ m.loop.stop ∧ shortest ≠ 0 ∧ shortest + 10 ≤ now
        let p := { p with pc := if due then .wheel else .finish, shortest := shortest }
        some { m.emit (.polled []) with frames := .process p :: fs }
      else none
    | _ => none

/-- One more poll, with the time it took, or by which the clock has stepped back. -/
def Account.poll (a : Account) (clock : Clock) : Account :=
  { a with
    polls := a.polls + 1
    pollTime := a.pollTime + (clock.exit.toNat - clock.entry.toNat)
    steppedBack := a.steppedBack + (clock.entry.toNat - clock.exit.toNat) }

/-- The account after a step of the core. -/
def Account.core (a : Account) (m m' : Machine σ) (i : Input ε π) (clock : Clock) : Account :=
  let a := if isPoll m i then a.poll clock else a
  { a with
    dispatched := if takesUp m i then a.dispatched + 1 else a.dispatched
    peakFds := max a.peakFds (fdCount m'.loop) }

/-- One step; after a fault nothing is recorded. -/
def step (A : Adapter σ ε) (poll : π → ℕ → σ → List LoopyFiredEvent × σ) (m : Metered σ) :
    Operation ε π → Option (Metered σ)
  | .core i clock =>
    (m.machine.step A poll i).map fun machine =>
      if machine.crashed then { m with machine := machine }
      else
        { machine := machine
          metrics := hooks m.machine machine i clock m.metrics
          account := m.account.core m.machine machine i clock }
  | .pollFails shortest now clock =>
    (pollFails m.machine shortest now).map fun machine =>
      let metrics := meter clock (-1) m.metrics
      { machine := machine
        metrics :=
          if wheelRuns machine then loopyMetricsIncrementTimersProcessed metrics else metrics
        account := { m.account.poll clock with failedPolls := m.account.failedPolls + 1 } }

/-- A loop before anything is run, with its metrics just enabled. -/
def start (l : LoopyLoop σ) (now : UInt64) : Metered σ :=
  { machine := .start l
    metrics := (loopyMetricsEnable none now).2
    account := ⟨0, 0, 0, 0, 0, 0⟩ }

/-! ## The property -/

/-- The entries a batch still has to dispatch. -/
def waitingEntries : Frame → ℕ
  | .process p =>
    match p.pc.nextSlot with
    | some j => p.numevents - j
    | none => 0
  | _ => 0

/-- The entries that wait for dispatch. -/
def waiting (m : Machine σ) : ℕ := (m.frames.map waitingEntries).sum

/-- The snapshot describes the loop. -/
structure Describes (m : Metered σ) (r : LoopyMetrics) : Prop where
  currentFdCount : r.currentFdCount.toNat = fdCount m.machine.loop
  peakFdCount : r.peakFdCount.toNat = m.account.peakFds
  eventsProcessed : r.eventsProcessed.toNat = m.account.dispatched
  pollCalls : r.pollCalls.toNat = m.account.polls
  outcomes : r.pollCalls.toNat = r.pollEvents.toNat + r.pollTimeouts.toNat + r.pollErrors.toNat
  totalPollTime : r.totalPollTime.toNat = m.account.pollTime

instance (m : Metered σ) (r : LoopyMetrics) : Decidable (Describes m r) :=
  decidable_of_iff
    (r.currentFdCount.toNat = fdCount m.machine.loop ∧ r.peakFdCount.toNat = m.account.peakFds ∧
      r.eventsProcessed.toNat = m.account.dispatched ∧ r.pollCalls.toNat = m.account.polls ∧
      r.pollCalls.toNat = r.pollEvents.toNat + r.pollTimeouts.toNat + r.pollErrors.toNat ∧
      r.totalPollTime.toNat = m.account.pollTime)
    ⟨fun ⟨h1, h2, h3, h4, h5, h6⟩ => ⟨h1, h2, h3, h4, h5, h6⟩,
      fun ⟨h1, h2, h3, h4, h5, h6⟩ => ⟨h1, h2, h3, h4, h5, h6⟩⟩

/-- No descriptor was ever registered, no poll has failed, the clock did not step back during a
poll, no entry waits for dispatch, and the totals fit their counters. -/
structure Measured (m : Metered σ) : Prop where
  peakFds : m.account.peakFds = 0
  failedPolls : m.account.failedPolls = 0
  steppedBack : 2 ^ 64 ∣ m.account.steppedBack
  waiting : 2 ^ 64 ∣ waiting m.machine
  dispatched : m.account.dispatched < 2 ^ 64
  polls : m.account.polls < 2 ^ 64
  pollTime : m.account.pollTime < 2 ^ 64

/-! ## The books -/

/-- What the counters are, up to the wrap of a 64-bit counter, while some entries wait. -/
structure Books (a : Account) (waiting : ℕ) (x : LoopyMetricsInternal) : Prop where
  currentFdCount : x.currentFdCount = 0
  peakFdCount : x.peakFdCount = 0
  eventsProcessed : x.eventsProcessed = .ofNat (a.dispatched + waiting)
  pollCalls : x.pollCalls = .ofNat a.polls
  outcomes : ∃ answered idle : ℕ, x.pollEvents = .ofNat answered ∧ x.pollTimeouts = .ofNat idle ∧
    answered + idle + a.failedPolls = a.polls
  pollErrors : x.pollErrors = 0
  totalPollTime : x.totalPollTime + .ofNat a.steppedBack = .ofNat a.pollTime

/-! ### The entries of the batches -/

variable {A : Adapter σ ε} {poll : π → ℕ → σ → List LoopyFiredEvent × σ} {m m' : Machine σ}
  {i : Input ε π}

variable {fs : List Frame} {p : Process} {shortest now : ℕ} {machine : Machine σ}

theorem waiting_cons {f : Frame} (h : m.frames = f :: fs) :
    waiting m = waitingEntries f + (fs.map waitingEntries).sum := by
  rw [waiting, h]
  rfl

theorem waitingEntries_none (h : p.pc.nextSlot = none) : waitingEntries (.process p) = 0 := by
  simp only [waitingEntries, h]

/-- Only the point before the poll is a poll, and only the head of the dispatch loop takes up an
entry. -/
theorem inner_step (hf : m.frames = .process p :: fs) (hpoll : p.pc ≠ .polling)
    (hentry : ∀ j, p.pc ≠ .entry j) : isPoll m i = false ∧ takesUp m i = false := by
  constructor
  · unfold isPoll
    split
    · rw [hf]
      exact decide_eq_false hpoll
    · rfl
  · unfold takesUp
    split
    · rw [hf]
      dsimp only
      split
      case h_1 j hj => exact absurd hj (hentry j)
      case h_2 => rfl
    · rfl

/-- Both directions of an entry have the same entries behind them. -/
theorem DirPc.slots {l : LoopyLoop σ} {e : Entry} {pc returned skipped : ProcessPc} {dir : Dir}
    (h : Machine.DirPc l e pc dir returned skipped) :
    pc.nextSlot = some (e.j + 1) ∧ returned.nextSlot = some (e.j + 1) ∧
      skipped.nextSlot = some (e.j + 1) ∧ pc ≠ .polling ∧ ∀ j, pc ≠ .entry j := by
  cases h with
  | read => exact ⟨rfl, rfl, rfl, by simp, by simp⟩
  | write => exact ⟨rfl, rfl, rfl, by simp, by simp⟩

/-- A step dispatches one entry, adds the entries of a poll, or leaves them as they are. -/
theorem waiting_step (h : Machine.Transition A poll m i m') (hc : m'.crashed = false) :
    waiting m' + (if takesUp m i then 1 else 0) =
      waiting m + (if isPoll m i then numevents m' else 0) := by
  cases h with
  | table | control | deleteNone | deletePending | deleteNow => rfl
  | main => exact Nat.zero_add _
  | ret hf => simp [waiting, hf, waitingEntries, takesUp, isPoll]
  | enter hf | jump hf | beforeSleep hf | afterSleep hf | exit hf | exitDelete hf =>
    simp [waiting, hf, waitingEntries, takesUp, isPoll]
  | process hf =>
    simp [waiting, hf, waitingEntries, takesUp, isPoll, Machine.newProcess, ProcessPc.nextSlot]
  | @started p fs hasTimers pc hf hp hpc =>
    rcases hpc with rfl | rfl <;>
      simp [waiting, hf, hp, waitingEntries, takesUp, isPoll, ProcessPc.nextSlot]
  | polled hf hp hs =>
    simp [waiting, hf, hp, waitingEntries, takesUp, isPoll, ProcessPc.nextSlot, numevents,
      Process.polled, Nat.add_comm]
  | pollFault | fetchFault | dirFault | freed => cases hc
  | fetch hf hp hj =>
    simp [waiting, hf, hp, waitingEntries, takesUp, isPoll, ProcessPc.nextSlot, hj]
    omega
  | dispatched hf hp hj =>
    simp [waiting, hf, hp, waitingEntries, takesUp, isPoll, ProcessPc.nextSlot, not_lt.mpr hj]
    omega
  | @dirInvoked p fs e dir returned skipped hf hp =>
    obtain ⟨hslot, hreturned, -, hpoll, hentry⟩ := DirPc.slots hp
    obtain ⟨h1, h2⟩ := inner_step (ε := ε) (π := π) (i := .go) hf hpoll hentry
    simp [waiting, hf, h1, h2, waitingEntries, hslot, hreturned, Process.turned]
  | @dirSkipped p fs e dir returned skipped hf hp =>
    obtain ⟨hslot, -, hskipped, hpoll, hentry⟩ := DirPc.slots hp
    obtain ⟨h1, h2⟩ := inner_step (ε := ε) (π := π) (i := .go) hf hpoll hentry
    simp [waiting, hf, h1, h2, waitingEntries, hslot, hskipped, Process.turned]
  | readReturned hf hp =>
    simp [waiting, hf, hp, waitingEntries, takesUp, isPoll, ProcessPc.nextSlot]
    split <;> rfl
  | @timers p fs pc i hf hp hpc =>
    obtain ⟨h1, h2⟩ := inner_step (i := i) hf (by rcases hp with hp | hp <;> simp [hp])
      (by rcases hp with hp | hp <;> simp [hp])
    rcases hp with hp | hp <;> rcases hpc with rfl | rfl <;>
      simp [waiting, hf, h1, h2, hp, waitingEntries, ProcessPc.nextSlot]
  | fire hf hp => simp [waiting, hf, hp, waitingEntries, takesUp, isPoll, ProcessPc.nextSlot]
  | @leave p fs i hf hp =>
    obtain ⟨h1, h2⟩ := inner_step (i := i) hf (by rcases hp with hp | hp <;> simp [hp])
      (by rcases hp with hp | hp <;> simp [hp])
    rcases hp with hp | hp <;> simp [waiting, hf, h1, h2, hp, waitingEntries, ProcessPc.nextSlot]

/-- A fault changes neither the stack nor the loop. -/
theorem crash_step (h : Machine.Transition A poll m i m') (hc : m.crashed = false)
    (hc' : m'.crashed = true) : m'.frames = m.frames ∧ m'.loop = m.loop := by
  cases h with
  | pollFault | fetchFault | dirFault | freed => exact ⟨rfl, rfl⟩
  | _ => exact absurd (hc.symm.trans hc') Bool.false_ne_true

/-! ### What the hooks do -/

/-- The two agree in every counter of the property. -/
structure SameCounts (x x' : LoopyMetricsInternal) : Prop where
  currentFdCount : x'.currentFdCount = x.currentFdCount
  peakFdCount : x'.peakFdCount = x.peakFdCount
  eventsProcessed : x'.eventsProcessed = x.eventsProcessed
  pollCalls : x'.pollCalls = x.pollCalls
  pollEvents : x'.pollEvents = x.pollEvents
  pollTimeouts : x'.pollTimeouts = x.pollTimeouts
  pollErrors : x'.pollErrors = x.pollErrors
  totalPollTime : x'.totalPollTime = x.totalPollTime

variable {metrics : Option LoopyMetricsInternal} {x x' : LoopyMetricsInternal} {a : Account}
  {clock : Clock} {w : ℕ}

theorem SameCounts.refl (x : LoopyMetricsInternal) : SameCounts x x :=
  ⟨rfl, rfl, rfl, rfl, rfl, rfl, rfl, rfl⟩

theorem timers_same (h : x' ∈ loopyMetricsIncrementTimersProcessed metrics) :
    ∃ x ∈ metrics, SameCounts x x' := by
  obtain ⟨x, hx, rfl⟩ := Option.map_eq_some_iff.mp h
  exact ⟨x, hx, rfl, rfl, rfl, rfl, rfl, rfl, rfl, rfl⟩

theorem iterations_same (h : x' ∈ loopyMetricsIncrementIterations metrics) :
    ∃ x ∈ metrics, SameCounts x x' := by
  obtain ⟨x, hx, rfl⟩ := Option.map_eq_some_iff.mp h
  exact ⟨x, hx, rfl, rfl, rfl, rfl, rfl, rfl, rfl, rfl⟩

/-- Outside a poll no hook touches a counter of the property. -/
theorem hooks_same (hpoll : isPoll m i = false) (h : x' ∈ hooks m m' i clock metrics) :
    ∃ x ∈ metrics, SameCounts x x' := by
  unfold hooks at h
  rw [hpoll, if_neg Bool.false_ne_true] at h
  split at h
  · cases h
  · split at h
    · split at h
      · exact ⟨x', h, .refl x'⟩
      · exact iterations_same h
    · split at h
      · exact timers_same h
      · exact ⟨x', h, .refl x'⟩
    · exact ⟨x', h, .refl x'⟩

/-- The metrics after a poll, but for what its outcome counts. -/
def timed (clock : Clock) (x : LoopyMetricsInternal) : LoopyMetricsInternal :=
  { x with
    pollStartTime := clock.entry
    pollCalls := x.pollCalls + 1
    totalPollTime := x.totalPollTime + (clock.exit - clock.entry)
    totalIdleTime := x.totalIdleTime + (clock.exit - clock.entry) }

theorem meter_failed (clock : Clock) (x : LoopyMetricsInternal) :
    meter clock (-1) (some x) = some (timed clock x) := rfl

theorem meter_idle (clock : Clock) (x : LoopyMetricsInternal) :
    meter clock (0 : ℕ) (some x) =
      some { timed clock x with pollTimeouts := x.pollTimeouts + 1 } := rfl

theorem meter_answered (clock : Clock) (x : LoopyMetricsInternal) {n : ℕ} (hn : 0 < n) :
    meter clock n (some x) =
      some
        { timed clock x with
          pollEvents := x.pollEvents + 1
          eventsProcessed := x.eventsProcessed + .ofNat n } := by
  have hpos : (n : ℤ) > 0 := by omega
  have hzero : ¬ (n : ℤ) = 0 := by omega
  have hle : ¬ (n : ℤ) ≤ 0 := by omega
  simp only [meter, loopyMetricsPollEntry, loopyMetricsPollExit, loopyMetricsAddEventsProcessed,
    Option.map_some, if_pos hpos, if_neg hzero, if_neg hle, Int.toNat_natCast]
  rfl

/-- The duration a poll adds, with what the clock stepped back, is the time it took. -/
theorem duration_add (clock : Clock) :
    clock.exit - clock.entry + .ofNat (clock.entry.toNat - clock.exit.toNat) =
      .ofNat (clock.exit.toNat - clock.entry.toNat) := by
  by_cases hle : clock.entry ≤ clock.exit
  · have hsub := UInt64.toNat_sub_of_le _ _ hle
    rw [Nat.sub_eq_zero_of_le (UInt64.le_iff_toNat_le.mp hle), ← hsub, UInt64.ofNat_toNat]
    exact add_zero _
  · have hle : clock.exit ≤ clock.entry := UInt64.le_of_lt (UInt64.not_le.mp hle)
    have hsub := UInt64.toNat_sub_of_le _ _ hle
    rw [Nat.sub_eq_zero_of_le (UInt64.le_iff_toNat_le.mp hle), ← hsub, UInt64.ofNat_toNat,
      sub_add_sub_cancel]
    exact sub_self _

namespace Books

theorem same (h : Books a w x) (hs : SameCounts x x') : Books a w x' where
  currentFdCount := hs.currentFdCount.trans h.currentFdCount
  peakFdCount := hs.peakFdCount.trans h.peakFdCount
  eventsProcessed := hs.eventsProcessed.trans h.eventsProcessed
  pollCalls := hs.pollCalls.trans h.pollCalls
  outcomes := by
    rw [hs.pollEvents, hs.pollTimeouts]
    exact h.outcomes
  pollErrors := hs.pollErrors.trans h.pollErrors
  totalPollTime := by
    rw [hs.totalPollTime]
    exact h.totalPollTime

/-- The time of one more poll. -/
theorem time (h : Books a w x) (clock : Clock) :
    x.totalPollTime + (clock.exit - clock.entry) + .ofNat (a.poll clock).steppedBack =
      .ofNat (a.poll clock).pollTime := by
  have hduration := duration_add clock
  simp only [Account.poll, UInt64.ofNat_add]
  rw [← h.totalPollTime, ← hduration]
  grind

/-- A poll that returned no entry. -/
theorem idle (h : Books a w x) (clock : Clock) :
    Books (a.poll clock) w { timed clock x with pollTimeouts := x.pollTimeouts + 1 } := by
  obtain ⟨answered, idle, hanswered, hidle, hsum⟩ := h.outcomes
  refine ⟨h.currentFdCount, h.peakFdCount, h.eventsProcessed, ?_, ?_, h.pollErrors, h.time clock⟩
  · exact (congrArg (· + 1) h.pollCalls).trans (UInt64.ofNat_add a.polls 1).symm
  · refine ⟨answered, idle + 1, hanswered, ?_, ?_⟩
    · exact (congrArg (· + 1) hidle).trans (UInt64.ofNat_add idle 1).symm
    · simp only [Account.poll]
      omega

/-- A poll that returned some entries, which all wait now. -/
theorem answered (h : Books a w x) (clock : Clock) (n : ℕ) :
    Books (a.poll clock) (w + n)
      { timed clock x with
        pollEvents := x.pollEvents + 1
        eventsProcessed := x.eventsProcessed + .ofNat n } := by
  obtain ⟨answered, idle, hanswered, hidle, hsum⟩ := h.outcomes
  refine ⟨h.currentFdCount, h.peakFdCount, ?_, ?_, ?_, h.pollErrors, h.time clock⟩
  · simp only [Account.poll]
    rw [h.eventsProcessed, ← Nat.add_assoc, UInt64.ofNat_add (a.dispatched + w)]
  · exact (congrArg (· + 1) h.pollCalls).trans (UInt64.ofNat_add a.polls 1).symm
  · refine ⟨answered + 1, idle, ?_, hidle, ?_⟩
    · exact (congrArg (· + 1) hanswered).trans (UInt64.ofNat_add answered 1).symm
    · simp only [Account.poll]
      omega

/-- A poll that returned. -/
theorem polled (h : Books a w x) (n : ℕ) (hx : x' ∈ meter clock n (some x)) :
    Books (a.poll clock) (w + n) x' := by
  cases n with
  | zero =>
    rw [meter_idle] at hx
    cases hx
    exact h.idle clock
  | succ n =>
    rw [meter_answered clock x (Nat.succ_pos n)] at hx
    cases hx
    exact h.answered clock (n + 1)

/-- A poll that failed is counted, and has no outcome. -/
theorem failed (h : Books a w x) (hx : x' ∈ meter clock (-1) (some x)) :
    Books { a.poll clock with failedPolls := a.failedPolls + 1 } w x' := by
  obtain ⟨answered, idle, hanswered, hidle, hsum⟩ := h.outcomes
  rw [meter_failed] at hx
  cases hx
  refine ⟨h.currentFdCount, h.peakFdCount, h.eventsProcessed, ?_, ?_, h.pollErrors, h.time clock⟩
  · exact (congrArg (· + 1) h.pollCalls).trans (UInt64.ofNat_add a.polls 1).symm
  · refine ⟨answered, idle, hanswered, hidle, ?_⟩
    simp only [Account.poll]
    omega

/-- An entry that waited was dispatched. -/
theorem dispatched {w' : ℕ} (h : Books a w x) {d : ℕ} (hd : d + w' = a.dispatched + w)
    (peakFds : ℕ) : Books { a with dispatched := d, peakFds := peakFds } w' x :=
  ⟨h.currentFdCount, h.peakFdCount, hd ▸ h.eventsProcessed, h.pollCalls, h.outcomes, h.pollErrors,
    h.totalPollTime⟩

end Books

/-! ### Runs -/

/-- A failed poll goes on behind the dispatch loop. -/
theorem nextSlot_after (due : Prop) [Decidable due] :
    (if due then ProcessPc.wheel else .finish).nextSlot = none := by
  split <;> rfl

/-- A failed poll leaves the loop, and no entry waits before or after it. -/
theorem pollFails_spec (h : pollFails m shortest now = some m') :
    waiting m' = waiting m ∧ m'.loop = m.loop := by
  unfold pollFails at h
  split at h
  · cases h
  · split at h
    · rename_i p fs hf
      split at h
      · rename_i hp
        have hbefore : waitingEntries (.process p) = 0 := waitingEntries_none (by rw [hp]; rfl)
        cases h
        refine ⟨(waiting_cons rfl).trans ?_, rfl⟩
        rw [waiting_cons hf, hbefore, waitingEntries_none (nextSlot_after _)]
      · cases h
    · cases h

/-- The books are kept, and the peak is not below the number of descriptors. -/
structure Kept (m : Metered σ) : Prop where
  books : ∀ x ∈ m.metrics, Books m.account (waiting m.machine) x
  peak : fdCount m.machine.loop ≤ m.account.peakFds

theorem Kept.core {m : Metered σ} (h : Kept m) (hstep : m.machine.step A poll i = some machine)
    (hc : machine.crashed = false) (clock : Clock) :
    Kept
      { machine := machine
        metrics := hooks m.machine machine i clock m.metrics
        account := m.account.core m.machine machine i clock } := by
  have hwait := waiting_step (Machine.step_inv hstep) hc
  have hsum : (if takesUp m.machine i then m.account.dispatched + 1 else m.account.dispatched) +
      waiting machine = m.account.dispatched +
        (waiting m.machine + if isPoll m.machine i then numevents machine else 0) := by
    by_cases ht : takesUp m.machine i = true
    · rw [if_pos ht] at hwait ⊢
      omega
    · rw [if_neg ht] at hwait ⊢
      omega
  refine ⟨fun x' hx' => ?_, le_max_right _ _⟩
  dsimp only at hx' ⊢
  cases hpoll : isPoll m.machine i with
  | false =>
    obtain ⟨x, hx, hsame⟩ := hooks_same hpoll hx'
    have hbooks := (h.books x hx).same hsame
    simp only [Account.core, hpoll, Bool.false_eq_true, if_false] at hsum ⊢
    exact hbooks.dispatched hsum _
  | true =>
    simp only [hooks, hpoll, if_true] at hx'
    cases hx : m.metrics with
    | none =>
      rw [hx] at hx'
      cases hx'
    | some x =>
      rw [hx] at hx'
      have hbooks := (h.books x hx).polled _ hx'
      simp only [Account.core, hpoll, if_true] at hsum ⊢
      exact hbooks.dispatched hsum _

theorem Kept.failed {m : Metered σ} (h : Kept m)
    (hstep : pollFails m.machine shortest now = some machine) (clock : Clock) :
    Kept
      { machine := machine
        metrics :=
          if wheelRuns machine then
            loopyMetricsIncrementTimersProcessed (meter clock (-1) m.metrics)
          else meter clock (-1) m.metrics
        account := { m.account.poll clock with failedPolls := m.account.failedPolls + 1 } } := by
  obtain ⟨hwait, hloop⟩ := pollFails_spec hstep
  refine ⟨fun x' hx' => ?_, hloop ▸ h.peak⟩
  dsimp only at hx' ⊢
  have hmetered : ∃ x ∈ meter clock (-1) m.metrics, SameCounts x x' := by
    split at hx'
    · exact timers_same hx'
    · exact ⟨x', hx', .refl x'⟩
  obtain ⟨y, hy, hsame⟩ := hmetered
  cases hx : m.metrics with
  | none =>
    rw [hx] at hy
    cases hy
  | some x =>
    rw [hx] at hy
    rw [hwait]
    exact ((h.books x hx).failed hy).same hsame

theorem Kept.step {m m' : Metered σ} {op : Operation ε π} (h : Kept m)
    (hstep : step A poll m op = some m') : Kept m' := by
  cases op with
  | core i clock =>
    obtain ⟨machine, hmachine, heq⟩ := Option.map_eq_some_iff.mp hstep
    cases hc : machine.crashed with
    | false =>
      rw [hc, if_neg Bool.false_ne_true] at heq
      exact heq ▸ h.core hmachine hc clock
    | true =>
      rw [hc, if_pos rfl] at heq
      obtain ⟨hframes, hloop⟩ :=
        crash_step (Machine.step_inv hmachine) (Machine.not_crashed hmachine) hc
      refine heq ▸ ⟨?_, hloop ▸ h.peak⟩
      dsimp only [waiting]
      rw [hframes]
      exact h.books
  | pollFails shortest now clock =>
    obtain ⟨machine, hmachine, heq⟩ := Option.map_eq_some_iff.mp hstep
    exact heq ▸ h.failed hmachine clock

theorem Kept.start (n addr : ℕ) (allocated : Bool) (now : UInt64) :
    Kept (start { LoopyLoop.fresh A n addr with allocated := allocated } now) := by
  constructor
  · intro x hx
    cases hx
    exact ⟨rfl, rfl, rfl, rfl, ⟨0, 0, rfl, rfl, rfl⟩, rfl, rfl⟩
  · exact le_of_eq (List.countP_eq_zero.mpr fun _ _ => Bool.false_ne_true)

/-! ### The property -/

/-- Books say exactly when the snapshot describes the loop. -/
theorem Books.describes_iff {m : Metered σ} (h : Books m.account (waiting m.machine) x)
    (hpeak : fdCount m.machine.loop ≤ m.account.peakFds) (now : UInt64) :
    Describes m (x.snapshot now) ↔ Measured m := by
  obtain ⟨answered, idle, hanswered, hidle, hsum⟩ := h.outcomes
  have hcurrent : x.currentFdCount.toNat = 0 := congrArg UInt32.toNat h.currentFdCount
  have hpeak0 : x.peakFdCount.toNat = 0 := congrArg UInt32.toNat h.peakFdCount
  have herrors : x.pollErrors.toNat = 0 := congrArg UInt64.toNat h.pollErrors
  have hevents := (congrArg UInt64.toNat h.eventsProcessed).trans UInt64.toNat_ofNat'
  have hcalls := (congrArg UInt64.toNat h.pollCalls).trans UInt64.toNat_ofNat'
  have hanswered := (congrArg UInt64.toNat hanswered).trans UInt64.toNat_ofNat'
  have hidle := (congrArg UInt64.toNat hidle).trans UInt64.toNat_ofNat'
  have htime := (congrArg UInt64.toNat h.totalPollTime).trans UInt64.toNat_ofNat'
  rw [UInt64.toNat_add, UInt64.toNat_ofNat'] at htime
  have htotal := x.totalPollTime.toNat_lt
  constructor
  · rintro ⟨-, h2, h3, h4, h5, h6⟩
    dsimp only [LoopyMetricsInternal.snapshot] at h2 h3 h4 h5 h6
    constructor <;> omega
  · rintro ⟨h1, h2, h3, h4, h5, h6, h7⟩
    constructor <;> dsimp only [LoopyMetricsInternal.snapshot] <;> omega

/-- After any run the snapshot describes the loop exactly if the run was `Measured`. -/
theorem metrics_describe (A : Adapter σ ε) (poll : π → ℕ → σ → List LoopyFiredEvent × σ)
    (n addr : ℕ) (allocated : Bool) (enabled now : UInt64) (ops : List (Operation ε π))
    (m : Metered σ) (r : LoopyMetrics)
    (hrun : Run (step A poll) (fun _ _ => True)
      (start { LoopyLoop.fresh A n addr with allocated := allocated } enabled) ops m)
    (hget : loopyMetricsGet m.metrics now = (true, r)) : Describes m r ↔ Measured m := by
  have hkept : Kept m := hrun.invariant (P := Kept) (fun _ _ _ h _ hstep => h.step hstep)
    (.start n addr allocated enabled)
  obtain ⟨x, hx, rfl⟩ := loopyMetricsGet_inv hget
  exact (hkept.books x hx).describes_iff hkept.peak now

end

/-! ### Fixed runs -/

/-- A step of the core that is no poll. -/
def plain (i : Input Bool (List EpollEvent)) : Operation Bool (List EpollEvent) := .core i ⟨0, 0⟩

/-- A loop with a timer, up to its first poll. -/
def untilPoll : List (Operation Bool (List EpollEvent)) :=
  [plain (.call .registerTimer ⟨1, true⟩), plain (.call (.main .ALL) ⟨1, true⟩), plain .go,
    plain .go, plain .go]

/-- The metrics of a fresh loop of the epoll adapter. -/
def epollMetered : Metered EpollState :=
  start { LoopyLoop.fresh epollAdapter 16 1 with allocated := false } 0

/-- Epoll steps with metrics. -/
def epollMeteredStep (m : Metered EpollState) (op : Operation Bool (List EpollEvent)) :
    Option (Metered EpollState) := step epollAdapter loopyInternalPoll m op

variable {ops : List (Operation Bool (List EpollEvent))}

theorem metered_run {P : Metered EpollState → Prop} [DecidablePred P]
    (h : (exec epollMeteredStep (fun _ _ => True) epollMetered ops).any (fun m => P m) = true) :
    ∃ m, Run epollMeteredStep (fun _ _ => True) epollMetered ops m ∧ P m := by
  obtain ⟨m, hm, hP⟩ := (Option.any_eq_true _ _).mp h
  exact ⟨m, Run.iff_exec.mpr hm, of_decide_eq_true hP⟩

/-- A timer with no descriptor: one poll of 50 microseconds that times out. -/
theorem metrics_describe_run :
    ∃ m r, Run epollMeteredStep (fun _ _ => True) epollMetered
        (untilPoll ++ [.core (.poll 7 []) ⟨100, 150⟩, plain .go]) m ∧
      loopyMetricsGet m.metrics 200 = (true, r) ∧ r.pollCalls = 1 ∧ Describes m r := by
  have hexec : (exec epollMeteredStep (fun _ _ => True) epollMetered
      (untilPoll ++ [.core (.poll 7 []) ⟨100, 150⟩, plain .go])).any (fun m =>
        (loopyMetricsGet m.metrics 200).1 = true ∧
          (loopyMetricsGet m.metrics 200).2.pollCalls = 1 ∧
          m.account = ⟨0, 0, 1, 0, 50, 0⟩ ∧ waiting m.machine = 0) = true := by
    decide +kernel
  obtain ⟨m, hrun, hget, hcalls, haccount, hwaiting⟩ := metered_run hexec
  have hsnapshot : loopyMetricsGet m.metrics 200 = (true, (loopyMetricsGet m.metrics 200).2) :=
    Prod.ext hget rfl
  refine ⟨m, (loopyMetricsGet m.metrics 200).2, hrun, hsnapshot, hcalls, ?_⟩
  rw [metrics_describe epollAdapter loopyInternalPoll 16 1 false 0 200 _ m _ hrun hsnapshot]
  constructor <;> simp [haccount, hwaiting]

/-- A run whose snapshot is checked by evaluation. -/
theorem misdescribed
    (h : (exec epollMeteredStep (fun _ _ => True) epollMetered ops).any
      (fun m => (loopyMetricsGet m.metrics 200).1 = true ∧
      ¬ Describes m (loopyMetricsGet m.metrics 200).2) = true) :
    ∃ m r, Run epollMeteredStep (fun _ _ => True) epollMetered ops m ∧
      loopyMetricsGet m.metrics 200 = (true, r) ∧ ¬ Describes m r := by
  obtain ⟨m, hrun, hget, hnot⟩ := metered_run h
  exact ⟨m, (loopyMetricsGet m.metrics 200).2, hrun, Prod.ext hget rfl, hnot⟩

/-- Registering descriptor 3 counts nothing, and a clock that steps back by 5 microseconds during a
poll wraps the time of all polls. -/
theorem metrics_misdescribe :
    (∃ m r, Run epollMeteredStep (fun _ _ => True) epollMetered
        [plain (.call (.table (.registerRead 3 5 9)) ⟨2, true⟩)] m ∧
      loopyMetricsGet m.metrics 200 = (true, r) ∧ ¬ Describes m r) ∧
    ∃ m r, Run epollMeteredStep (fun _ _ => True) epollMetered
        (untilPoll ++ [.core (.poll 7 []) ⟨105, 100⟩]) m ∧
      loopyMetricsGet m.metrics 200 = (true, r) ∧ ¬ Describes m r := by
  constructor
  · exact misdescribed (by decide +kernel)
  · exact misdescribed (by decide +kernel)

end Loopy.Metrics
