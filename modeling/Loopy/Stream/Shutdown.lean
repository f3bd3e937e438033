import Loopy.Stream.Completion

/-!
# `loopyStream.c`: shutdown callbacks

`loopyStreamShutdown` shuts the stream down at once, or it sets `shutdownPending` and leaves that
to `streamWriteCallback` behind the queue. There is one slot for the callback, every call writes to
it, and `loopyStreamClose` does not look at it. A callback is called once as long as no call
overwrites one that waits, none comes between the last write and a shutdown that is pending, and
the stream is not closed before (`Graceful`).
-/

namespace Loopy.Stream

open Loopy.Lib

/-! ## The record -/

/-- A call of `loopyStreamShutdown` that wrote to the slot: whether it had a callback, what it
returns, and how many writes had been accepted. -/
structure ShutdownCall where
  cb : Bool
  returned : Bool
  accepted : ℕ
deriving DecidableEq, Repr

/-- A shutdown callback is called with status 0: the number of the call that it is from, how often
`shutdown` was called, how often it failed and `loopyStreamShutdown` said so, and the writes that
were completed. -/
structure ShutdownDone where
  call : ℕ
  issued : ℕ
  failed : ℕ
  completed : List ℕ
deriving DecidableEq, Repr

/-- A stream and a record of its shutdowns; `slot` is the call that `shutdownCb` is from. -/
structure Shutdowns where
  stream : LoopyStream
  issued : ℕ
  failed : ℕ
  calls : List ShutdownCall
  slot : ℕ
  done : List ShutdownDone

namespace Shutdowns

/-- A new stream. -/
def new (stream : LoopyStream) : Shutdowns :=
  { stream
    issued := 0
    failed := 0
    calls := []
    slot := 0
    done := [] }

/-- A call writes to the slot. -/
def writeSlot (s : Shutdowns) (cb returned : Bool) : Shutdowns :=
  { s with
    calls := s.calls ++ [{ cb, returned, accepted := s.stream.allocated }]
    slot := s.calls.length }

/-- The system call. -/
def issue (s : Shutdowns) : Shutdowns := { s with issued := s.issued + 1 }

/-- The callback in the slot is called. -/
def invoke (s : Shutdowns) : Shutdowns :=
  { s with
    done := s.done ++
      [{ call := s.slot
         issued := s.issued
         failed := s.failed
         completed := s.stream.completed.map Prod.fst }] }

/-- What an action of the stream is for the shutdowns. -/
def after (s : Shutdowns) : Action → Shutdowns
  | .shutdown ok cb =>
    if s.stream.fd = none ∨ s.stream.writable = false then s
    else if s.stream.writeHead ≠ none then s.writeSlot cb true
    else if ok = false then { (s.writeSlot cb false).issue with failed := s.failed + 1 }
    else if cb then (s.writeSlot cb true).issue.invoke
    else (s.writeSlot cb true).issue
  | .run =>
    if s.stream.pc = .writeLoop ∧ s.stream.shutdownPending = true then
      if s.stream.shutdownCb then s.issue.invoke else s.issue
    else s
  | _ => s

/-- One action. -/
def step (s : Shutdowns) (a : Action) : Option Shutdowns :=
  (Stream.step s.stream a).map fun stream => { s.after a with stream }

/-- How often the callback of a call was called. -/
def times (s : Shutdowns) (n : ℕ) : ℕ := (s.done.map (·.call)).count n

/-- A call returned true and had a callback. -/
def Owed (s : Shutdowns) (n : ℕ) : Prop :=
  ∃ c, s.calls[n]? = some c ∧ c.returned = true ∧ c.cb = true

end Shutdowns

/-- Every callback is called once, after the one system call and after the writes. -/
structure ShutdownLaw (s : Shutdowns) : Prop where
  once : ∀ n, s.Owed n → s.times n ≤ 1
  closed : s.stream.pc = .closed → ∀ n, s.Owed n → s.times n = 1
  issued : ∀ d ∈ s.done, d.issued = d.failed + 1
  completed : ∀ d ∈ s.done, ∃ c, s.calls[d.call]? = some c ∧ c.cb = true ∧
    ∀ m < c.accepted, m ∈ d.completed

/-- The callback in the slot waits for the queue. -/
def Shutdowns.waits (s : Shutdowns) : Bool :=
  s.stream.shutdownPending && s.stream.shutdownCb && s.calls[s.slot]?.any (·.returned)

/-- A callback that waits is forgotten, that of the call is never called, or it is called twice. -/
def Shutdowns.misses (s : Shutdowns) : Action → Bool
  | .shutdown ok cb =>
    s.stream.fd.isSome && s.stream.writable &&
      (s.waits || (s.stream.closing && cb) ||
        (s.stream.shutdownPending && s.stream.writeHead.isNone && ok && cb))
  | .close _ => !s.stream.closing && s.waits
  | _ => false

/-- No callback is missed and no write is lost. -/
def Graceful (s : Shutdowns) (a : Action) : Prop :=
  NoneLost s.stream a ∧ s.misses a = false

instance : ∀ s a, Decidable (Graceful s a) := fun _ _ =>
  inferInstanceAs (Decidable (_ ∧ _))

/-! ## What the other actions leave alone -/

/-- The flags of the shutdown are the same. -/
structure SameShutdown (s s' : LoopyStream) : Prop where
  writable : s'.writable = s.writable
  shutdownPending : s'.shutdownPending = s.shutdownPending
  shutdownCb : s'.shutdownCb = s.shutdownCb
  closing : s'.closing = s.closing

section frame

variable {s s' s'' : LoopyStream}

theorem SameShutdown.refl (s : LoopyStream) : SameShutdown s s := ⟨rfl, rfl, rfl, rfl⟩

theorem SameShutdown.trans (h : SameShutdown s s') (h' : SameShutdown s' s'') :
    SameShutdown s s'' where
  writable := h'.writable.trans h.writable
  shutdownPending := h'.shutdownPending.trans h.shutdownPending
  shutdownCb := h'.shutdownCb.trans h.shutdownCb
  closing := h'.closing.trans h.closing

namespace LoopyStream

theorem updateWriteWatcher_shutdown (s : LoopyStream) :
    SameShutdown s s.updateWriteWatcher := by
  unfold updateWriteWatcher
  split <;> exact ⟨rfl, rfl, rfl, rfl⟩

theorem unregisterWrite_shutdown (s : LoopyStream) :
    SameShutdown s s.unregisterWrite := by
  unfold unregisterWrite
  split <;> exact ⟨rfl, rfl, rfl, rfl⟩

theorem enqueue_shutdown (s : LoopyStream) (data : List UInt8) (fds : List ℕ)
    (cb : Bool) : SameShutdown s (s.enqueue data fds cb) := by
  unfold enqueue setReq
  dsimp only
  split <;> exact ⟨rfl, rfl, rfl, rfl⟩

theorem write_shutdown (s : LoopyStream) (data : List UInt8) (cb alloc : Bool) :
    SameShutdown s (s.write data cb alloc) := by
  unfold write
  split
  · exact .refl s
  · split
    · exact .refl s
    · split
      · exact .refl s
      · exact (enqueue_shutdown ..).trans (updateWriteWatcher_shutdown _)

theorem writeWithFd_shutdown (s : LoopyStream) (data : List UInt8) (fds : List ℕ)
    (cb alloc : Bool) : SameShutdown s (s.writeWithFd data fds cb alloc) := by
  unfold writeWithFd
  repeat' split
  all_goals first
    | exact .refl s
    | exact (enqueue_shutdown ..).trans (updateWriteWatcher_shutdown _)

theorem tryWrite_shutdown {data : List UInt8} {r : KernelResult}
    (h : s.tryWrite data r = some s') : SameShutdown s s' := by
  unfold tryWrite at h
  repeat' split at h
  all_goals cases h
  all_goals exact ⟨rfl, rfl, rfl, rfl⟩

theorem connectFd_shutdown (s : LoopyStream) (r : ConnectResult) (cb : Bool) :
    SameShutdown s (s.connectFd r cb) := by
  unfold connectFd
  dsimp only
  repeat' split
  all_goals exact ⟨rfl, rfl, rfl, rfl⟩

theorem connect_shutdown (s : LoopyStream) (address : Address) (r : ConnectResult)
    (cb : Bool) : SameShutdown s (s.connect address r cb) := by
  have hfd (fd : Option ℕ) : SameShutdown s { s with fd } := ⟨rfl, rfl, rfl, rfl⟩
  unfold connect
  dsimp only
  repeat' split
  all_goals first
    | exact ⟨rfl, rfl, rfl, rfl⟩
    | exact connectFd_shutdown ..
    | exact (hfd _).trans (connectFd_shutdown ..)

theorem finishConnect_shutdown (s : LoopyStream) (ok : Bool) :
    SameShutdown s (s.finishConnect ok) := by
  unfold finishConnect unregisterWrite updateWriteWatcher
  dsimp only
  repeat' split
  all_goals exact ⟨rfl, rfl, rfl, rfl⟩

theorem kernelWrite_shutdown {n : ℕ} {r : KernelResult}
    (h : s.kernelWrite n r = some s') : SameShutdown s s' := by
  unfold kernelWrite setReq at h
  dsimp only at h
  repeat' split at h
  all_goals cases h
  all_goals exact ⟨rfl, rfl, rfl, rfl⟩

theorem drainStep_shutdown (s : LoopyStream) (closing : Bool) (req : Option ℕ) :
    SameShutdown s (s.drainStep closing req) := by
  unfold drainStep updateWriteWatcher
  dsimp only
  repeat' split
  all_goals exact ⟨rfl, rfl, rfl, rfl⟩

theorem dispatch_shutdown (h : s.dispatch = some s') : SameShutdown s s' := by
  unfold dispatch at h
  split at h
  all_goals cases h
  all_goals exact ⟨rfl, rfl, rfl, rfl⟩

theorem callbackReturns_shutdown (h : s.callbackReturns = some s') :
    SameShutdown s s' := by
  unfold callbackReturns updateWriteWatcher at h
  repeat' split at h
  all_goals cases h
  all_goals exact ⟨rfl, rfl, rfl, rfl⟩

end LoopyStream

end frame

/-! ## What an action does to the shutdowns -/

/-- The parts of an action that the record is about. -/
inductive ShutdownStep (s : Shutdowns) (a : Action) (stream : LoopyStream) : Shutdowns → Prop
  | defers (ok cb : Bool) (ha : a = .shutdown ok cb) (hfd : s.stream.fd ≠ none)
      (hwritable : s.stream.writable = true) (hhead : s.stream.writeHead ≠ none)
      (h : stream = { s.stream with shutdownCb := cb, shutdownPending := true }) :
      ShutdownStep s a stream { s.writeSlot cb true with stream }
  | fails (cb : Bool) (ha : a = .shutdown false cb) (hfd : s.stream.fd ≠ none)
      (hwritable : s.stream.writable = true) (h : stream = { s.stream with shutdownCb := cb }) :
      ShutdownStep s a stream
        { (s.writeSlot cb false).issue with failed := s.failed + 1, stream }
  | succeeds (cb : Bool) (ha : a = .shutdown true cb) (hfd : s.stream.fd ≠ none)
      (huser : s.stream.user = true) (hwritable : s.stream.writable = true)
      (hhead : s.stream.writeHead = none)
      (h : stream = { s.stream with
        shutdownCb := cb
        writable := false
        depth := if cb then s.stream.depth + 1 else s.stream.depth }) :
      ShutdownStep s a stream
        { if cb then (s.writeSlot cb true).issue.invoke else (s.writeSlot cb true).issue with
          stream }
  | finishes (ha : a = .run) (hpc : s.stream.pc = .writeLoop) (hhead : s.stream.writeHead = none)
      (hpending : s.stream.shutdownPending = true)
      (h : SameShutdown { s.stream with writable := false, shutdownPending := false } stream) :
      ShutdownStep s a stream
        { if s.stream.shutdownCb then s.issue.invoke else s.issue with stream }
  | closes (cb : Bool) (ha : a = .close cb) (hopen : s.stream.closing = false)
      (h : SameShutdown { s.stream with closing := true } stream) :
      ShutdownStep s a stream { s with stream }
  | keeps (h : SameShutdown s.stream stream) : ShutdownStep s a stream { s with stream }

section steps

variable {s s' : Shutdowns} {stream : LoopyStream} {a : Action}

theorem shutdown_cases (s : Shutdowns) (huser : s.stream.user = true) (ok cb : Bool) :
    ShutdownStep s (.shutdown ok cb) (s.stream.shutdown ok cb)
      { s.after (.shutdown ok cb) with stream := s.stream.shutdown ok cb } := by
  unfold LoopyStream.shutdown Shutdowns.after
  dsimp only
  split
  · exact .keeps (.refl _)
  · next hguard =>
    rw [not_or] at hguard
    have hwritable : s.stream.writable = true := Bool.of_not_eq_false hguard.2
    split
    · next hhead => exact .defers ok cb rfl hguard.1 hwritable hhead rfl
    · next hhead =>
      have hempty : s.stream.writeHead = none := not_not.mp hhead
      cases ok with
      | false => exact .fails cb rfl hguard.1 hwritable rfl
      | true =>
        rw [if_neg Bool.false_ne_true.symm, if_neg Bool.false_ne_true.symm]
        exact .succeeds cb rfl hguard.1 huser hwritable hempty rfl

theorem finish_cases (s : Shutdowns) (hpc : s.stream.pc = .writeLoop)
    (hhead : s.stream.writeHead = none) :
    ShutdownStep s .run s.stream.finishWrite
      { s.after .run with stream := s.stream.finishWrite } := by
  unfold LoopyStream.finishWrite Shutdowns.after
  dsimp only
  by_cases hpending : s.stream.shutdownPending = true
  · rw [if_pos hpending, if_pos (And.intro hpc hpending)]
    refine .finishes rfl hpc hhead hpending ?_
    split
    · exact ⟨rfl, rfl, rfl, rfl⟩
    · obtain ⟨h1, h2, h3, h4⟩ := LoopyStream.updateWriteWatcher_shutdown
        { s.stream with writable := false, shutdownPending := false }
      exact ⟨h1, h2, h3, h4⟩
  · rw [if_neg hpending, if_neg (mt And.right hpending)]
    obtain ⟨h1, h2, h3, h4⟩ := s.stream.updateWriteWatcher_shutdown
    exact .keeps ⟨h1, h2, h3, h4⟩

theorem close_cases (s : Shutdowns) (cb : Bool) :
    ShutdownStep s (.close cb) (s.stream.close cb) { s with stream := s.stream.close cb } := by
  unfold LoopyStream.close
  split
  · exact .keeps (.refl _)
  · next hopen =>
    obtain ⟨h1, h2, h3, h4⟩ := LoopyStream.unregisterWrite_shutdown
      { s.stream with closing := true, closeCb := cb, reading := false }
    exact .closes cb rfl (Bool.of_not_eq_true hopen) ⟨h1, h2, h3, h4⟩

theorem shutdownStep (hstep : s.step a = some s') :
    ∃ stream, step s.stream a = some stream ∧ ShutdownStep s a stream s' := by
  obtain ⟨stream, hstream, rfl⟩ := Option.map_eq_some_iff.mp hstep
  refine ⟨stream, hstream, ?_⟩
  cases stepped hstream with
  | write data cb alloc => exact .keeps (s.stream.write_shutdown data cb alloc)
  | writeWithFd data fds cb alloc => exact .keeps (s.stream.writeWithFd_shutdown data fds cb alloc)
  | tryWrite data r huser h => exact .keeps (LoopyStream.tryWrite_shutdown h)
  | connect address r cb => exact .keeps (s.stream.connect_shutdown address r cb)
  | shutdown ok cb huser => exact shutdown_cases s huser ok cb
  | readStart | readStop | endOfFile => exact .keeps ⟨rfl, rfl, rfl, rfl⟩
  | close cb => exact close_cases s cb
  | writable hquiet h => exact .keeps (LoopyStream.dispatch_shutdown h)
  | getsockopt ok => exact .keeps (s.stream.finishConnect_shutdown ok)
  | kernel r n hpc hhead h => exact .keeps (LoopyStream.kernelWrite_shutdown h)
  | finishWrite hpc hhead => exact finish_cases s hpc hhead
  | drainStep closing req hpc =>
    have hafter : s.after .run = s := by
      refine if_neg fun h => ?_
      rw [hpc] at h
      cases h.1
    rw [hafter]
    exact .keeps (s.stream.drainStep_shutdown closing req)
  | ret h => exact .keeps (LoopyStream.callbackReturns_shutdown h)

end steps

/-! ## In a drain the head stays -/

/-- While user code runs in a drain, `writeHead` is the request that the drain began with. -/
def HeadStays (s : LoopyStream) : Prop :=
  s.draining = true → (∀ closing, s.pc ≠ .drain closing none) → s.writeHead ≠ none

section drain

variable {s s' : LoopyStream} {a : Action}

/-- Behind the last request the drain ends. -/
theorem PcInv.ends {closing : Bool} (hplace : PcInv s) (hpc : s.pc = .drain closing none)
    (hstep : Stream.step s a = some s') : s' = s.drainStep closing none := by
  have hdepth : s.depth = 0 := hplace.inside (by rw [hpc]; rfl)
  have huser : s.user = false := by
    rw [LoopyStream.user, hdepth, hpc]
    rfl
  have hquiet : ¬ s.quiet := by
    rintro ⟨hidle, -⟩
    rw [hpc] at hidle
    cases hidle
  cases a with
  | run =>
    rw [Stream.step, hpc] at hstep
    exact (Option.some.inj hstep).symm
  | ret =>
    rw [Stream.step, LoopyStream.callbackReturns, hdepth, hpc, if_neg (Nat.lt_irrefl 0)] at hstep
    cases hstep
  | _ => simp [Stream.step, huser, hquiet, hpc] at hstep

theorem LoopyStream.drainStep_none_draining (s : LoopyStream) (closing : Bool) :
    (s.drainStep closing none).draining = false := by
  rw [drainStep_none]
  split <;> rfl

theorem LoopyStream.enqueue_writeHead (s : LoopyStream) (data : List UInt8) (fds : List ℕ)
    (cb : Bool) (h : s.writeHead ≠ none) : (s.enqueue data fds cb).writeHead ≠ none := by
  unfold enqueue setReq
  dsimp only
  split
  · exact h
  · exact Option.some_ne_none _

theorem HeadStays.same (h : HeadStays s) (hpc : ∀ closing, s.pc ≠ .drain closing none)
    (hsame : SameQueue s s') : HeadStays s' := by
  intro hdraining _
  rw [hsame.writeHead]
  exact h (hsame.draining.symm.trans hdraining) hpc

theorem HeadStays.step (h : HeadStays s) (hplace : PcInv s) (hstep : Stream.step s a = some s') :
    HeadStays s' := by
  by_cases hend : ∃ closing, s.pc = .drain closing none
  · obtain ⟨closing, hpc⟩ := hend
    rw [hplace.ends hpc hstep]
    intro hdraining
    rw [LoopyStream.drainStep_none_draining] at hdraining
    cases hdraining
  · have hpc : ∀ closing, s.pc ≠ .drain closing none := fun closing hpc => hend ⟨closing, hpc⟩
    cases step_effect hstep with
    | same hsame => exact h.same hpc hsame
    | tries data huser hempty hsame => exact HeadStays.same (s := s.tookDirectly data) h hpc hsame
    | enqueues data fds cb huser haccepts hclosing hdata hfds hsame =>
      have hnew : HeadStays (s.enqueue data fds cb) := by
        intro hdraining _
        rw [LoopyStream.enqueue_draining] at hdraining
        exact s.enqueue_writeHead data fds cb (h hdraining hpc)
      refine hnew.same (fun closing hdrain => hpc closing ?_) hsame
      rw [← (s.enqueue_place data fds cb).pc]
      exact hdrain
    | takes n bytes hloop hhead hbytes hrest =>
      intro hdraining
      have hnot : (s.tookBytes n bytes).draining = false := by
        show s.draining = false
        rw [LoopyStream.draining, hloop]
      rw [hnot] at hdraining
      cases hdraining
    | completes n bytes hloop hhead hbytes hrest =>
      intro hdraining
      rw [LoopyStream.completeHead_draining] at hdraining
      cases hdraining
    | begins closing ha hdraining hsame =>
      intro _ hnot hnone
      apply hnot closing
      rw [hnone]
    | drains closing n hdrain =>
      intro _ _
      refine h ?_ hpc
      rw [LoopyStream.draining, hdrain]
    | ends closing hdrain => exact absurd hdrain (hpc closing)

/-- Outside a drain every write is completed when the list is empty. -/
theorem QueueInv.completed_of_empty (hinv : QueueInv s) (hdraining : s.draining = false)
    (hhead : s.writeHead = none) : s.completed.length = s.allocated := by
  have hpending : s.pending = none := (LoopyStream.pending_of_not_draining hdraining).trans hhead
  have hlength := congrArg List.length (hinv.chain.eq_none_iff.mp hpending)
  rw [LoopyStream.queued, List.length_range', List.length_nil] at hlength
  have hle := hinv.le
  omega

/-- Where user code finds an empty list, every write that was accepted is completed. -/
theorem HeadStays.completed (h : HeadStays s) (hplace : PcInv s) (hqueue : QueueInv s)
    (huser : s.user = true) (hhead : s.writeHead = none) : s.completed.length = s.allocated := by
  have hdraining : s.draining = false := by
    apply Bool.of_not_eq_true
    intro hdraining
    refine h hdraining (fun closing hpc => ?_) hhead
    have hinside := LoopyStream.not_inside_of_user hplace huser
    rw [hpc] at hinside
    cases hinside
  exact hqueue.completed_of_empty hdraining hhead

end drain

end Loopy.Stream
