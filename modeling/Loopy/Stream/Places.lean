import Loopy.Stream.Basic

/-!
# `loopyStream.c`: where user code runs

In the middle of a function of the stream no callback runs, and the places of `loopyStreamClose`
are reached with `closing` set. The functions that user code calls leave both alone.
-/

namespace Loopy.Stream

/-- In the middle of a function of the stream no user code runs. -/
def Pc.inside : Pc → Bool
  | .connectCheck | .writeLoop | .drain .. => true
  | .idle | .writeDone | .drained .. | .shutdownDone | .closed => false

/-- `loopyStreamClose` has begun. -/
def Pc.closes : Pc → Bool
  | .drain closing _ | .drained closing _ => closing
  | .closed => true
  | .idle | .connectCheck | .writeLoop | .writeDone | .shutdownDone => false

structure PcInv (s : LoopyStream) : Prop where
  inside : s.pc.inside = true → s.depth = 0
  closes : s.pc.closes = true → s.closing = true

theorem PcInv.new (type : LoopyStreamType) (fd : Option ℕ) (connected : Bool) :
    PcInv (.new type fd connected) := ⟨nofun, nofun⟩

/-- The functions that user code calls leave the place and the flag of closing alone. -/
structure SamePlace (s s' : LoopyStream) : Prop where
  pc : s'.pc = s.pc
  closing : s'.closing = s.closing

variable {s s' : LoopyStream}

theorem SamePlace.trans {s'' : LoopyStream} (h : SamePlace s s') (h' : SamePlace s' s'') :
    SamePlace s s'' := ⟨h'.pc.trans h.pc, h'.closing.trans h.closing⟩

namespace LoopyStream

theorem updateWriteWatcher_place (s : LoopyStream) :
    SamePlace s s.updateWriteWatcher := by
  unfold updateWriteWatcher
  split <;> exact ⟨rfl, rfl⟩

theorem enqueue_place (s : LoopyStream) (data : List UInt8) (fds : List ℕ)
    (cb : Bool) : SamePlace s (s.enqueue data fds cb) := by
  unfold enqueue setReq
  dsimp only
  split <;> exact ⟨rfl, rfl⟩

theorem write_place (s : LoopyStream) (data : List UInt8) (cb alloc : Bool) :
    SamePlace s (s.write data cb alloc) := by
  unfold write
  repeat' split
  all_goals first
    | exact ⟨rfl, rfl⟩
    | exact (enqueue_place ..).trans (updateWriteWatcher_place _)

theorem writeWithFd_place (s : LoopyStream) (data : List UInt8) (fds : List ℕ)
    (cb alloc : Bool) : SamePlace s (s.writeWithFd data fds cb alloc) := by
  unfold writeWithFd
  repeat' split
  all_goals first
    | exact ⟨rfl, rfl⟩
    | exact (enqueue_place ..).trans (updateWriteWatcher_place _)

theorem tryWrite_place {data : List UInt8} {r : KernelResult}
    (h : s.tryWrite data r = some s') : SamePlace s s' := by
  unfold tryWrite at h
  repeat' split at h
  all_goals cases h
  all_goals exact ⟨rfl, rfl⟩

theorem connectFd_place (s : LoopyStream) (r : ConnectResult) (cb : Bool) :
    SamePlace s (s.connectFd r cb) := by
  unfold connectFd
  dsimp only
  repeat' split
  all_goals exact ⟨rfl, rfl⟩

theorem connect_place (s : LoopyStream) (address : Address) (r : ConnectResult)
    (cb : Bool) : SamePlace s (s.connect address r cb) := by
  have hfd (fd : Option ℕ) : SamePlace s { s with fd } := ⟨rfl, rfl⟩
  unfold connect
  dsimp only
  repeat' split
  all_goals first
    | exact ⟨rfl, rfl⟩
    | exact connectFd_place ..
    | exact (hfd _).trans (connectFd_place ..)

theorem shutdown_place (s : LoopyStream) (ok cb : Bool) :
    SamePlace s (s.shutdown ok cb) := by
  unfold shutdown
  dsimp only
  repeat' split
  all_goals exact ⟨rfl, rfl⟩

theorem not_inside_of_user (hinv : PcInv s) (huser : s.user = true) :
    s.pc.inside = false := by
  apply Bool.of_not_eq_true
  intro hinside
  have hdepth := hinv.inside hinside
  rw [user, hdepth, decide_eq_false (Nat.lt_irrefl 0), Bool.false_or] at huser
  revert hinside huser
  cases s.pc <;> simp [Pc.inside]

end LoopyStream

/-- A function that user code has called. -/
theorem PcInv.called (hinv : PcInv s) (huser : s.user = true) (h : SamePlace s s') : PcInv s' where
  inside hinside := by
    rw [h.pc, LoopyStream.not_inside_of_user hinv huser] at hinside
    cases hinside
  closes hcloses := by
    rw [h.pc] at hcloses
    rw [h.closing]
    exact hinv.closes hcloses

theorem LoopyStream.unregisterWrite_depth (s : LoopyStream) : s.unregisterWrite.depth = s.depth := by
  unfold unregisterWrite
  split <;> rfl

theorem PcInv.close (hinv : PcInv s) (hquiet : s.quiet) (cb : Bool) : PcInv (s.close cb) := by
  unfold LoopyStream.close
  split
  · exact hinv
  · refine ⟨fun _ => ?_, fun _ => ?_⟩
    · exact (LoopyStream.unregisterWrite_depth _).trans hquiet.2
    · unfold LoopyStream.unregisterWrite
      dsimp only
      split <;> rfl

theorem PcInv.dispatch (hquiet : s.quiet) (h : s.dispatch = some s') : PcInv s' := by
  unfold LoopyStream.dispatch at h
  split at h
  · cases h
    refine ⟨fun _ => hquiet.2, fun hcloses => ?_⟩
    revert hcloses
    cases s.connecting <;> nofun
  · cases h
    exact ⟨fun _ => hquiet.2, nofun⟩
  · cases h

theorem PcInv.finishConnect (s : LoopyStream) (ok : Bool) : PcInv (s.finishConnect ok) := by
  unfold LoopyStream.finishConnect
  exact ⟨nofun, nofun⟩

theorem PcInv.kernelWrite (hinv : PcInv s) (hpc : s.pc = .writeLoop) {n : ℕ} {r : KernelResult}
    (h : s.kernelWrite n r = some s') : PcInv s' := by
  have hdepth : s.depth = 0 := hinv.inside (by rw [hpc]; rfl)
  unfold LoopyStream.kernelWrite at h
  dsimp only at h
  split at h
  · cases h
    exact ⟨nofun, nofun⟩
  · cases h
    exact ⟨fun _ => hdepth, nofun⟩
  · obtain ⟨_, h⟩ := Option.ite_none_right_eq_some.mp h
    split at h
    · cases h
      refine ⟨fun _ => hdepth, fun hcloses => ?_⟩
      revert hcloses
      dsimp only
      split <;> nofun
    · cases h
      refine ⟨fun _ => hdepth, fun hcloses => hinv.closes ?_⟩
      exact hcloses

theorem PcInv.finishWrite (s : LoopyStream) : PcInv s.finishWrite := by
  unfold LoopyStream.finishWrite
  dsimp only
  repeat' split
  all_goals exact ⟨nofun, nofun⟩

theorem PcInv.drainStep (hinv : PcInv s) {closing : Bool} {req : Option ℕ}
    (hpc : s.pc = .drain closing req) : PcInv (s.drainStep closing req) := by
  have hdepth : s.depth = 0 := hinv.inside (by rw [hpc]; rfl)
  have hclosing : closing = true → s.closing = true := by
    intro hclosing
    apply hinv.closes
    rw [hpc]
    exact hclosing
  unfold LoopyStream.drainStep
  dsimp only
  split
  · refine ⟨fun _ => hdepth, fun hcloses => hclosing ?_⟩
    revert hcloses
    dsimp only
    split <;> exact id
  · split
    · next h => exact ⟨nofun, fun _ => hclosing h⟩
    · exact ⟨nofun, nofun⟩

theorem PcInv.callbackReturns (hinv : PcInv s) (h : s.callbackReturns = some s') : PcInv s' := by
  -- the callbacks counted by `depth` return first, then the one that the place stands for
  unfold LoopyStream.callbackReturns at h
  split at h
  · next hdepth =>
    cases h
    refine ⟨fun hinside => ?_, hinv.closes⟩
    have hzero : s.depth = 0 := hinv.inside hinside
    omega
  · next hdepth =>
    have hzero : s.depth = 0 := Nat.eq_zero_of_not_pos hdepth
    split at h
    · cases h
      exact ⟨fun _ => hzero, nofun⟩
    · next closing next hpc =>
      cases h
      refine ⟨fun _ => hzero, fun hcloses => hinv.closes ?_⟩
      rw [hpc]
      exact hcloses
    · cases h
      exact ⟨nofun, nofun⟩
    all_goals cases h

theorem PcInv.step {a : Action} (hinv : PcInv s) (hstep : step s a = some s') : PcInv s' := by
  cases stepped hstep with
  | write data cb alloc huser => exact hinv.called huser (s.write_place data cb alloc)
  | writeWithFd data fds cb alloc huser =>
    exact hinv.called huser (s.writeWithFd_place data fds cb alloc)
  | tryWrite data r huser h => exact hinv.called huser (LoopyStream.tryWrite_place h)
  | connect address r cb huser => exact hinv.called huser (s.connect_place address r cb)
  | shutdown ok cb huser => exact hinv.called huser (s.shutdown_place ok cb)
  | readStart huser => exact hinv.called huser ⟨rfl, rfl⟩
  | readStop huser => exact hinv.called huser ⟨rfl, rfl⟩
  | close cb hquiet => exact hinv.close hquiet cb
  | writable hquiet h => exact .dispatch hquiet h
  | endOfFile => exact ⟨hinv.inside, hinv.closes⟩
  | getsockopt ok => exact .finishConnect s ok
  | kernel r n hpc hhead h => exact hinv.kernelWrite hpc h
  | finishWrite => exact .finishWrite s
  | drainStep closing req hpc => exact hinv.drainStep hpc
  | ret h => exact hinv.callbackReturns h

/-! ## The end of a callback -/

/-- One action of a stream that the callbacks counted by `depth` may close as well: nothing follows
them in the functions of the stream. -/
def tailStep (s : LoopyStream) (a : Action) : Option LoopyStream :=
  match a with
  | .close cb => if s.pc = .idle then some ({ s with depth := 0 }.close cb) else none
  | a => step s a

theorem tailStepped {a : Action} (hstep : tailStep s a = some s') :
    (∃ cb, a = .close cb ∧ s.pc = .idle ∧ s' = { s with depth := 0 }.close cb) ∨
    (∀ cb, a ≠ .close cb) ∧ Stepped s a s' := by
  by_cases hclose : ∃ cb, a = .close cb
  · obtain ⟨cb, rfl⟩ := hclose
    obtain ⟨hpc, hstep⟩ := Option.ite_none_right_eq_some.mp hstep
    exact .inl ⟨cb, rfl, hpc, (Option.some.inj hstep).symm⟩
  · refine .inr ⟨fun cb ha => hclose ⟨cb, ha⟩, stepped ?_⟩
    rw [← hstep]
    cases a with
    | close cb => exact absurd ⟨cb, rfl⟩ hclose
    | _ => rfl

end Loopy.Stream
