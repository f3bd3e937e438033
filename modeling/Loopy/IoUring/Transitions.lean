import Loopy.IoUring.Machine
import Loopy.Lib.Run

/-!
# What one step of the io_uring machine can do

`Transition` lists the steps of the machine with their guards, and `step_inv` says that every
step is one of them, as for the event loop.
-/

namespace Loopy.IoUring

open Loopy.EventLoop Loopy.Lib Loopy.Epoll

/-- A completion of a poll that is reported. -/
def Cqe.Fires (cqe : Cqe) : Prop :=
  (cqe.res ≥ 0 ∨ cqe.res = -ECANCELED) ∧ firedMask (BitVec.ofInt 32 cqe.res) ≠ .NONE

/-- The state after the poll of a reported completion was re-armed. -/
def IoUringState.rearm (u : IoUringState) (fd : ℕ) (ok : Bool) : IoUringState :=
  if u.pollMask fd ≠ 0 then (u.ioUringAddPoll fd (u.pollMask fd) ok).2 else u

namespace Machine

variable {m m' : Machine} {u : IoUringState}

/-! ## Small facts -/

section

variable (m : Machine) (u : IoUringState) (e : Event) (fs : List Frame) (r : OpRequest)
  (addr : ℕ) (ok : Bool)

@[simp] theorem emit_loop : (m.emit e).loop = m.loop := rfl

@[simp] theorem emit_frames : (m.emit e).frames = m.frames := rfl

@[simp] theorem emit_events : (m.emit e).events = e :: m.events := rfl

@[simp] theorem withState_state : (m.withState u).loop.state = some u := rfl

@[simp] theorem withState_frames : (m.withState u).frames = m.frames := rfl

@[simp] theorem withState_events : (m.withState u).events = m.events := rfl

@[simp] theorem withFrames_loop : (m.withFrames fs).loop = m.loop := rfl

@[simp] theorem withFrames_frames : (m.withFrames fs).frames = fs := rfl

@[simp] theorem withFrames_events : (m.withFrames fs).events = m.events := rfl

@[simp] theorem submitted_loop : (m.submitted u r addr ok).loop =
    { m.loop with state := some (u.submitRequest addr ok r).2 } := by
  unfold submitted
  simp only []
  split <;> rfl

@[simp] theorem submitted_frames : (m.submitted u r addr ok).frames = m.frames := by
  unfold submitted
  simp only []
  split <;> rfl

theorem submitted_events : (m.submitted u r addr ok).events =
    if (u.submitRequest addr ok r).1 = 0 then m.events
    else .accepted r (acceptedOp (u.submitRequest addr ok r).2 (u.submitRequest addr ok r).1) ::
      m.events := by
  unfold submitted
  simp only []
  split <;> rfl

theorem withFrames_self (h : m.frames = fs) : m.withFrames fs = m := by
  subst h
  rfl

end

/-! ## Transitions -/

/-- The request a pool function makes. -/
def poolRequest (create : Bool) (pool : BufferPool) (ctx : ℕ) : OpRequest :=
  if create then
    .provideBuffers pool.buffers pool.bufferSize pool.bufferCount pool.groupId 0
      bufferPoolOpCallback ctx
  else .removeBuffers pool.bufferCount pool.groupId bufferPoolOpCallback ctx

/-- The call that starts a pool function. -/
def poolCall (create : Bool) (pool : BufferPool) (ctx addr : ℕ) (ok : Bool) : Call :=
  if create then .poolNew pool ctx addr ok else .poolFree pool ctx addr ok

/-- The stack of a poll that has begun: a pool function counts it. -/
inductive PollStack : List Frame → List Frame → Prop
  | user {fs : List Frame} (h : ∀ p gs, fs ≠ .pool p :: gs) : PollStack fs fs
  | pool {p : PoolCall} {gs : List Frame} :
      PollStack (.pool p :: gs) (.pool { p with iterations := p.iterations + 1 } :: gs)

/-- The completion loop is about to read `cqe`. -/
structure Reads (m : Machine) (u : IoUringState) (p : Poll) (cqe : Cqe) (fs : List Frame) :
    Prop where
  frames : m.frames = .poll p :: fs
  pc : p.pc = .loop
  more : p.head ≠ p.tail
  room : p.numevents < m.loop.setSize
  cqe : u.kernel.cq[p.head]? = some cqe

/-- The steps of the machine. -/
inductive Transition (m : Machine) (u : IoUringState) : Input → Machine → Prop
  | ready {i : ℕ} {events : BitVec 32} {p : ArmedPoll} (hp : u.kernel.polls[i]? = some p)
      (hne : events ≠ 0) (hsub : events &&& (p.events ||| EPOLLERR ||| EPOLLHUP) = events) :
      Transition m u (.ready i events)
        ((m.withState (u.onKernel (·.firePoll i
          ⟨p.userData, events.toInt, 0, .ready p.events⟩))).emit (.ready p.userData events))
  | failed {i err : ℕ} {p : ArmedPoll} (hp : u.kernel.polls[i]? = some p) (herr : 0 < err)
      (hne : (err : ℤ) ≠ ECANCELED) :
      Transition m u (.failed i err)
        (m.withState (u.onKernel (·.firePoll i ⟨p.userData, -err, 0, .failed⟩)))
  | complete {id : ℕ} {res : ℤ} {flags : BitVec 32} :
      Transition m u (.complete id res flags)
        (m.withState (u.onKernel (·.post ⟨markFile id, res, flags, .operation⟩)))
  | table {c : TableCall} {env : Env EnterOks} {b : Bool} {l' : LoopyLoop IoUringState}
      (hu : m.userRuns = true)
      (he : TableEffect (ioUringAdapter u.sq.bits u.fileState.ops) env m.loop c b l') :
      Transition m u (.call (.table c env)) { m with loop := l' }
  | submit {r : OpRequest} {addr : ℕ} {ok : Bool} (hu : m.userRuns = true) :
      Transition m u (.call (.submit r addr ok)) (m.submitted u r addr ok)
  | addPoll {fd : ℕ} {events : BitVec 32} {ok : Bool} (hu : m.userRuns = true) :
      Transition m u (.call (.addPoll fd events ok))
        (m.withState (u.ioUringAddPoll fd events ok).2)
  | removePoll {fd : ℕ} {ok : Bool} (hu : m.userRuns = true) :
      Transition m u (.call (.removePoll fd ok)) (m.withState (u.ioUringRemovePoll fd ok))
  | poolRefused {pool : BufferPool} {ctx addr : ℕ} {ok : Bool} (hu : m.userRuns = true) :
      Transition m u (.call (.poolNew pool ctx addr ok)) m
  | pool {create : Bool} {pool : BufferPool} {ctx addr : ℕ} {ok : Bool} {fs : List Frame}
      (hu : m.userRuns = true)
      (hfs : fs = m.frames ∨ fs = .pool ⟨create, pool, ctx, 0⟩ :: m.frames) :
      Transition m u (.call (poolCall create pool ctx addr ok))
        (({ m with contexts := Function.update m.contexts ctx none }.submitted u
          (poolRequest create pool ctx) addr ok).withFrames fs)
  | ret {call : Invocation} {fs : List Frame} (hf : m.frames = .callback call :: fs) :
      Transition m u .ret (m.withFrames fs)
  | pollOk {fs : List Frame} (hu : m.userRuns = true ∨ ∃ p gs, m.frames = .pool p :: gs)
      (hfs : PollStack m.frames fs) :
      Transition m u (.poll .ok)
        ((m.withState (u.ioUringEnter u.sq.count true)).withFrames
          (.poll ⟨(u.ioUringEnter u.sq.count true).cqHead,
            (u.ioUringEnter u.sq.count true).kernel.cq.length, 0, .loop⟩ :: fs))
  | pollSoft {fs : List Frame} (hu : m.userRuns = true ∨ ∃ p gs, m.frames = .pool p :: gs)
      (hfs : PollStack m.frames fs) :
      Transition m u (.poll .soft)
        ((m.withState u).withFrames (.poll ⟨u.cqHead, u.kernel.cq.length, 0, .loop⟩ :: fs))
  | pollHard {fs : List Frame} (hu : m.userRuns = true ∨ ∃ p gs, m.frames = .pool p :: gs)
      (hfs : PollStack m.frames fs) : Transition m u (.poll .hard) (m.withFrames fs)
  | ignored {p : Poll} {cqe : Cqe} {fs : List Frame} {ok : Bool} (hr : m.Reads u p cqe fs)
      (hfile : isFileOp cqe.userData = true)
      (hfind : ioUringFileOpFind u.fileState (fileOpId cqe.userData) = none) :
      Transition m u (.go ok)
        (((m.emit (.processed p.head cqe)).emit (.consumed p.head cqe)).withFrames
          (.poll { p with head := p.head + 1 } :: fs))
  | called {p : Poll} {cqe : Cqe} {fs : List Frame} {ok : Bool} {fileOp : SlotPtr}
      {call : Invocation} {after : After} (hr : m.Reads u p cqe fs)
      (hfile : isFileOp cqe.userData = true)
      (hfind : ioUringFileOpFind u.fileState (fileOpId cqe.userData) = some fileOp)
      (hcall : u.completion (u.fileState.load fileOp) cqe = (some call, after)) :
      Transition m u (.go ok)
        (((m.emit (.processed p.head cqe)).emit
          (.completed p.head cqe (u.fileState.load fileOp).id (some call))).withFrames
            (.poll { p with pc := .returned fileOp after cqe } :: fs) |>.invoke call)
  | silent {p : Poll} {cqe : Cqe} {fs : List Frame} {ok : Bool} {fileOp : SlotPtr}
      {after : After} (hr : m.Reads u p cqe fs) (hfile : isFileOp cqe.userData = true)
      (hfind : ioUringFileOpFind u.fileState (fileOpId cqe.userData) = some fileOp)
      (hcall : u.completion (u.fileState.load fileOp) cqe = (none, after)) :
      Transition m u (.go ok)
        (((m.emit (.processed p.head cqe)).emit
          (.completed p.head cqe (u.fileState.load fileOp).id none)).withFrames
            (.poll { p with pc := .returned fileOp after cqe } :: fs))
  | fired {p : Poll} {cqe : Cqe} {fs : List Frame} {ok : Bool} {ev : LoopyFiredEvent}
      (hr : m.Reads u p cqe fs) (hfile : isFileOp cqe.userData = false) (hfires : cqe.Fires)
      (hev : ev = ⟨cqe.userData, firedMask (BitVec.ofInt 32 cqe.res)⟩) :
      Transition m u (.go ok)
        { m with
          loop :=
            { m.loop with
              fired := Function.update m.loop.fired p.numevents ev
              state := some (u.rearm cqe.userData ok) }
          events := .consumed p.head cqe :: .fired ev cqe :: .processed p.head cqe :: m.events
          frames := .poll { p with head := p.head + 1, numevents := p.numevents + 1 } :: fs }
  | skipped {p : Poll} {cqe : Cqe} {fs : List Frame} {ok : Bool} (hr : m.Reads u p cqe fs)
      (hfile : isFileOp cqe.userData = false) (hfires : ¬ cqe.Fires) :
      Transition m u (.go ok)
        (((m.emit (.processed p.head cqe)).emit (.consumed p.head cqe)).withFrames
          (.poll { p with head := p.head + 1 } :: fs))
  | published {p : Poll} {fs : List Frame} {ok : Bool} (hf : m.frames = .poll p :: fs)
      (hpc : p.pc = .loop) (hend : ¬ (p.head ≠ p.tail ∧ p.numevents < m.loop.setSize)) :
      Transition m u (.go ok)
        (((m.withState { u with cqHead := p.head }).emit (.published p.head)).withFrames fs)
  | returned {p : Poll} {fs : List Frame} {ok : Bool} {fileOp : SlotPtr} {after : After}
      {cqe : Cqe} (hf : m.frames = .poll p :: fs) (hpc : p.pc = .returned fileOp after cqe) :
      Transition m u (.go ok)
        (((m.withState { u with fileState := u.fileState.finish fileOp after }).emit
          (.consumed p.head cqe)).withFrames (.poll { p with head := p.head + 1, pc := .loop } :: fs))
  | poolDone {p : PoolCall} {fs : List Frame} {ok : Bool} {pool : Option BufferPool}
      (hf : m.frames = .pool p :: fs) :
      Transition m u (.go ok) ((m.withState (u.setBufferGroup p.pool.groupId pool)).withFrames fs)
  | poolFailed {p : PoolCall} {fs : List Frame} {ok : Bool} (hf : m.frames = .pool p :: fs) :
      Transition m u (.go ok) (m.withFrames fs)

/-! ## Every step is a transition -/

theorem pollReady_inv {i : ℕ} {events : BitVec 32} (h : m.pollReady u i events = some m') :
    Transition m u (.ready i events) m' := by
  unfold pollReady at h
  cases hp : u.kernel.polls[i]? with
  | none => simp [hp] at h
  | some p =>
    simp only [hp] at h
    split at h
    · rename_i hcond
      cases h
      exact .ready hp hcond.1 hcond.2
    · cases h

theorem pollFailed_inv {i err : ℕ} (h : m.pollFailed u i err = some m') :
    Transition m u (.failed i err) m' := by
  unfold pollFailed at h
  cases hp : u.kernel.polls[i]? with
  | none => simp [hp] at h
  | some p =>
    simp only [hp] at h
    split at h
    · rename_i hcond
      cases h
      exact .failed hp hcond.1 hcond.2
    · cases h

theorem userCall_inv {c : Call} (hu : m.userRuns = true) (h : m.userCall u c = some m') :
    Transition m u (.call c) m' := by
  cases c with
  | table c env =>
    obtain ⟨⟨b, l'⟩, hperf, hm⟩ := Option.bind_eq_some_iff.mp h
    cases hm
    exact .table hu (perform_inv hperf)
  | submit r addr ok => cases h; exact .submit hu
  | addPoll fd events ok => cases h; exact .addPoll hu
  | removePoll fd ok => cases h; exact .removePoll hu
  | poolNew pool ctx addr ok =>
    cases h
    unfold loopyIoUringBufferPoolNew
    split
    · exact .poolRefused hu
    · -- the frame is pushed only for an accepted submission
      have hframes := submitted_frames { m with contexts := Function.update m.contexts ctx none } u
        (poolRequest true pool ctx) addr ok
      show Transition m u (.call (poolCall true pool ctx addr ok)) (if _ then _ else _)
      split
      · have hself := withFrames_self _ _ hframes
        exact hself ▸ .pool hu (Or.inl rfl)
      · exact .pool hu (Or.inr (congrArg _ hframes))
  | poolFree pool ctx addr ok =>
    cases h
    have hframes := submitted_frames { m with contexts := Function.update m.contexts ctx none } u
      (poolRequest false pool ctx) addr ok
    show Transition m u (.call (poolCall false pool ctx addr ok)) _
    exact .pool hu (Or.inr (congrArg _ hframes))

variable {p : Poll} {fs : List Frame} {ok : Bool}

theorem fileCompletion_inv {cqe : Cqe} (hr : m.Reads u p cqe fs)
    (hfile : isFileOp cqe.userData = true) :
    Transition m u (.go ok) ((m.emit (.processed p.head cqe)).fileCompletion u p cqe fs) := by
  unfold fileCompletion
  split
  · rename_i hfind
    exact .ignored hr hfile hfind
  · rename_i fileOp hfind
    rcases hcall : u.completion (u.fileState.load fileOp) cqe with ⟨_ | call, after⟩
    · simp only [hcall]
      exact .silent hr hfile hfind hcall
    · simp only [hcall]
      exact .called hr hfile hfind hcall

theorem pollCompletion_inv {cqe : Cqe} (hr : m.Reads u p cqe fs)
    (hfile : isFileOp cqe.userData = false) :
    Transition m u (.go ok)
      (((m.emit (.processed p.head cqe)).pollCompletion u p cqe ok fs).emit
        (.consumed p.head cqe)) := by
  unfold pollCompletion
  simp only []
  split
  · rename_i hfires
    exact .fired hr hfile hfires rfl
  · rename_i hfires
    exact .skipped hr hfile hfires

theorem pollStep_inv (hf : m.frames = .poll p :: fs) (h : m.pollStep u p ok fs = some m') :
    Transition m u (.go ok) m' := by
  unfold pollStep at h
  split at h
  · rename_i hpc
    split at h
    · rename_i hmore
      split at h
      · cases h
      · rename_i cqe hcqe
        have hr : m.Reads u p cqe fs := ⟨hf, hpc, hmore.1, hmore.2, hcqe⟩
        split at h
        · rename_i hfile
          cases h
          exact fileCompletion_inv hr hfile
        · rename_i hfile
          cases h
          exact pollCompletion_inv hr (by simpa using hfile)
    · rename_i hend
      cases h
      exact .published hf hpc hend
  · rename_i fileOp after cqe hpc
    cases h
    exact .returned hf hpc

theorem startPoll_inv {outcome : PollOutcome}
    (hu : m.userRuns = true ∨ ∃ p gs, m.frames = .pool p :: gs) (hfs : PollStack m.frames fs) :
    Transition m u (.poll outcome) ((m.withFrames fs).startPoll u outcome) := by
  cases outcome with
  | ok => exact .pollOk hu hfs
  | soft => exact .pollSoft hu hfs
  | hard => exact .pollHard hu hfs

theorem poolDone_inv {p : PoolCall} (hf : m.frames = .pool p :: fs) :
    Transition m u (.go ok) (m.poolDone u p fs) := by
  unfold poolDone
  split
  · simp only []
    split
    · split
      · exact .poolFailed hf
      · exact .poolDone hf
    · exact .poolFailed hf
  · exact .poolDone hf

/-- Every step is one of the transitions. -/
theorem step_inv {i : Input} (h : m.step i = some m') :
    ∃ u, m.loop.state = some u ∧ Transition m u i m' := by
  unfold step at h
  cases hs : m.loop.state with
  | none => simp [hs] at h
  | some u =>
    refine ⟨u, rfl, ?_⟩
    simp only [hs] at h
    split at h
    · exact pollReady_inv h
    · exact pollFailed_inv h
    · cases h; exact .complete
    · split at h
      · rename_i hu; exact userCall_inv hu h
      · cases h
    · rename_i hf; cases h; exact .ret hf
    · rename_i p fs hf
      split at h
      · cases h
        exact startPoll_inv (Or.inr ⟨_, _, hf⟩) (hf ▸ .pool)
      · cases h
    · rename_i hnot
      split at h
      · rename_i hu
        cases h
        exact startPoll_inv (Or.inl hu) (.user fun p gs hf => hnot _ _ hf)
      · cases h
    · rename_i hf; exact pollStep_inv hf h
    · rename_i hf
      split at h
      · cases h
      · cases h; exact poolDone_inv hf
    · cases h

end Machine

end Loopy.IoUring
