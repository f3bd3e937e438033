import Mathlib.Data.UInt

/-!
# `loopyMetrics.c`: the counters of a loop

`l->metrics` is an `Option`, `none` the NULL pointer of a loop without metrics, on which every
function here but `loopyMetricsEnable` does nothing. Clock readings are arguments. The computed
ratios and the formatted text are left out.
-/

namespace Loopy.Metrics

/-- `LOOPY_LATENCY_BUCKET_COUNT`. -/
def latencyBucketCount : ℕ := 8

/-- `struct loopyMetricsInternal`. -/
structure LoopyMetricsInternal where
  loopIterations : UInt64
  eventsProcessed : UInt64
  timersProcessed : UInt64
  totalIdleTime : UInt64
  totalBusyTime : UInt64
  totalPollTime : UInt64
  lastIterationTime : UInt64
  pollCalls : UInt64
  pollTimeouts : UInt64
  pollEvents : UInt64
  pollErrors : UInt64
  currentFdCount : UInt32
  peakFdCount : UInt32
  fdRegistrations : UInt64
  fdUnregistrations : UInt64
  currentTimerCount : UInt32
  peakTimerCount : UInt32
  timerRegistrations : UInt64
  timerUnregistrations : UInt64
  latencyBuckets : Fin latencyBucketCount → UInt64
  startTime : UInt64
  pollStartTime : UInt64
deriving DecidableEq

/-- A zeroed `struct loopyMetricsInternal`. -/
def LoopyMetricsInternal.zero : LoopyMetricsInternal :=
  { loopIterations := 0
    eventsProcessed := 0
    timersProcessed := 0
    totalIdleTime := 0
    totalBusyTime := 0
    totalPollTime := 0
    lastIterationTime := 0
    pollCalls := 0
    pollTimeouts := 0
    pollEvents := 0
    pollErrors := 0
    currentFdCount := 0
    peakFdCount := 0
    fdRegistrations := 0
    fdUnregistrations := 0
    currentTimerCount := 0
    peakTimerCount := 0
    timerRegistrations := 0
    timerUnregistrations := 0
    latencyBuckets := fun _ => 0
    startTime := 0
    pollStartTime := 0 }

/-- `loopyMetrics`, the snapshot. -/
structure LoopyMetrics where
  loopIterations : UInt64
  eventsProcessed : UInt64
  timersProcessed : UInt64
  totalIdleTime : UInt64
  totalBusyTime : UInt64
  totalPollTime : UInt64
  lastIterationTime : UInt64
  pollCalls : UInt64
  pollTimeouts : UInt64
  pollEvents : UInt64
  pollErrors : UInt64
  currentFdCount : UInt32
  peakFdCount : UInt32
  fdRegistrations : UInt64
  fdUnregistrations : UInt64
  currentTimerCount : UInt32
  peakTimerCount : UInt32
  timerRegistrations : UInt64
  timerUnregistrations : UInt64
  latencyBuckets : Fin latencyBucketCount → UInt64
  collectionTime : UInt64
  startTime : UInt64
  uptimeUs : UInt64
deriving DecidableEq

/-- The snapshot of some metrics at a time. -/
def LoopyMetricsInternal.snapshot (m : LoopyMetricsInternal) (now : UInt64) : LoopyMetrics :=
  { loopIterations := m.loopIterations
    eventsProcessed := m.eventsProcessed
    timersProcessed := m.timersProcessed
    totalIdleTime := m.totalIdleTime
    totalBusyTime := m.totalBusyTime
    totalPollTime := m.totalPollTime
    lastIterationTime := m.lastIterationTime
    pollCalls := m.pollCalls
    pollTimeouts := m.pollTimeouts
    pollEvents := m.pollEvents
    pollErrors := m.pollErrors
    currentFdCount := m.currentFdCount
    peakFdCount := m.peakFdCount
    fdRegistrations := m.fdRegistrations
    fdUnregistrations := m.fdUnregistrations
    currentTimerCount := m.currentTimerCount
    peakTimerCount := m.peakTimerCount
    timerRegistrations := m.timerRegistrations
    timerUnregistrations := m.timerUnregistrations
    latencyBuckets := m.latencyBuckets
    collectionTime := now
    startTime := m.startTime
    uptimeUs := now - m.startTime }

/-- A zeroed `loopyMetrics`. -/
def LoopyMetrics.zero : LoopyMetrics := LoopyMetricsInternal.zero.snapshot 0

/-! ## Lifecycle and access -/

/-- `loopyMetricsEnable`. -/
def loopyMetricsEnable (metrics : Option LoopyMetricsInternal) (now : UInt64) :
    Bool × Option LoopyMetricsInternal :=
  match metrics with
  | some m => (false, some m)
  | none => (true, some { LoopyMetricsInternal.zero with startTime := now })

/-- `loopyMetricsDisable`. -/
def loopyMetricsDisable (_metrics : Option LoopyMetricsInternal) : Option LoopyMetricsInternal :=
  none

/-- `loopyMetricsGet`. -/
def loopyMetricsGet (metrics : Option LoopyMetricsInternal) (now : UInt64) : Bool × LoopyMetrics :=
  match metrics with
  | none => (false, .zero)
  | some m => (true, m.snapshot now)

theorem loopyMetricsGet_inv {metrics : Option LoopyMetricsInternal} {now : UInt64}
    {r : LoopyMetrics} (h : loopyMetricsGet metrics now = (true, r)) :
    ∃ m, metrics = some m ∧ r = m.snapshot now := by
  cases metrics with
  | none => cases h
  | some m =>
    cases h
    exact ⟨m, rfl, rfl⟩

/-! ## The hooks of the core -/

/-- `loopyMetricsPollEntry`. -/
def loopyMetricsPollEntry (metrics : Option LoopyMetricsInternal) (now : UInt64) :
    Option LoopyMetricsInternal :=
  metrics.map fun m => { m with pollStartTime := now }

/-- `loopyMetricsPollExit`. -/
def loopyMetricsPollExit (metrics : Option LoopyMetricsInternal) (now : UInt64) (numevents : ℤ) :
    Option LoopyMetricsInternal :=
  metrics.map fun m =>
    let duration := now - m.pollStartTime
    { m with
      pollCalls := m.pollCalls + 1
      totalPollTime := m.totalPollTime + duration
      totalIdleTime := m.totalIdleTime + duration
      pollEvents := if numevents > 0 then m.pollEvents + 1 else m.pollEvents
      pollTimeouts := if numevents = 0 then m.pollTimeouts + 1 else m.pollTimeouts }

/-- `loopyMetricsAddEventsProcessed`. -/
def loopyMetricsAddEventsProcessed (metrics : Option LoopyMetricsInternal) (count : ℤ) :
    Option LoopyMetricsInternal :=
  metrics.map fun m =>
    if count ≤ 0 then m
    else { m with eventsProcessed := m.eventsProcessed + .ofNat count.toNat }

/-- `loopyMetricsIncrementTimersProcessed`. -/
def loopyMetricsIncrementTimersProcessed (metrics : Option LoopyMetricsInternal) :
    Option LoopyMetricsInternal :=
  metrics.map fun m => { m with timersProcessed := m.timersProcessed + 1 }

/-- `loopyMetricsIncrementIterations`. -/
def loopyMetricsIncrementIterations (metrics : Option LoopyMetricsInternal) :
    Option LoopyMetricsInternal :=
  metrics.map fun m => { m with loopIterations := m.loopIterations + 1 }

end Loopy.Metrics
