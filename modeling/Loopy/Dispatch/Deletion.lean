import Loopy.Epoll.Poll

/-!
# Deleting the loop from a callback

`loopyDelete` tears the loop down at once when `processingDepth` is 0 and otherwise leaves
it to the exit of `loopyDo`. That is safe when it is called from a file or timer callback of
the only running `loopyDo` and no further loop is started afterwards (`DeleteSafe`): the
teardown then happens once, at the exit of that `loopyDo`. From the other callbacks, or
under nested loops, it happens while an activation still needs the loop
(`deletion_unsafe`).

A run has two phases: the loop is `Alive`, with a pending deletion only in a stack that is on
its way out (`Closing`), or it is `Torn` down and the stack is empty.
-/

namespace Loopy.EventLoop

open Loopy.Lib Loopy.Epoll

/-! ## What is safe -/

/-- A teardown. -/
def Event.isDeinit : Event → Bool
  | .deinit _ => true
  | _ => false

/-- A callback invoked or a poll performed. -/
def Event.isActivity : Event → Bool
  | .invoked _ _ _ | .polled _ => true
  | _ => false

/-- Deletion so far: at most one teardown, under no activation of `loopyProcessEvents`, with
no callback and no poll after it; and when `loopyDo` has returned after a deletion, the
teardown has taken place. -/
structure SafeDeletion {σ : Type} (m : Machine σ) : Prop where
  once : m.events.countP Event.isDeinit ≤ 1
  outside : ∀ n, .deinit n ∈ m.events → n = 0
  silent : ∀ later n earlier, m.events = later ++ .deinit n :: earlier →
    ∀ e ∈ later, e.isActivity = false
  done : m.frames = [] → .called .delete true ∈ m.events → m.events.countP Event.isDeinit = 1

section

variable {σ ε π : Type}

/-- The loop has been torn down. -/
def Machine.tornDown (m : Machine σ) : Bool := m.events.any Event.isDeinit

/-- The code around the loop leaves deleting to the callbacks, and does not use the loop
after its teardown but for deleting a caller-allocated one once more. -/
def InLoop (m : Machine σ) : Input ε π → Prop
  | .call .delete _ => m.frames = [] → m.tornDown = true ∧ m.freed = false
  | .call _ _ => m.frames = [] → m.tornDown = false
  | _ => True

/-- A file or timer callback of the only running `loopyDo` is innermost. -/
def OnlyLoop : List Frame → Prop
  | [.user _, .process _, .loopyDo _ _] => True
  | _ => False

/-- Callbacks request deletion from a file or timer callback of the only running `loopyDo`,
and start no loop while it is pending. -/
def DefersDeletion (m : Machine σ) : Input ε π → Prop
  | .call .delete _ => m.frames = [] ∨ OnlyLoop m.frames
  | .call (.main _) _ => m.loop.pendingDelete = false
  | _ => True

/-- The steps under which deletion is safe. -/
def DeleteSafe (m : Machine σ) (i : Input ε π) : Prop := InLoop m i ∧ DefersDeletion m i

instance (m : Machine σ) : (i : Input ε π) → Decidable (InLoop m i)
  | .call .delete _ => inferInstanceAs (Decidable (_ → _))
  | .call (.table _) _ | .call .stop _ | .call (.main _) _ | .call (.setBeforeSleepCallback _ _) _
  | .call (.setAfterSleepCallback _ _) _ | .call .registerTimer _ =>
    inferInstanceAs (Decidable (_ → _))
  | .go | .ret | .poll _ _ | .clock _ | .fire | .wheelDone => isTrue trivial

instance : (fs : List Frame) → Decidable (OnlyLoop fs)
  | [.user _, .process _, .loopyDo _ _] => isTrue trivial
  | [] | [_] | [_, _] | _ :: _ :: _ :: _ :: _ => isFalse (by simp [OnlyLoop])
  | [.loopyDo _ _, _, _] | [.process _, _, _] | [.user _, .user _, _] | [.user _, .loopyDo _ _, _]
  | [.user _, .process _, .user _] | [.user _, .process _, .process _] =>
    isFalse (by simp [OnlyLoop])

instance (m : Machine σ) : (i : Input ε π) → Decidable (DefersDeletion m i)
  | .call .delete _ => inferInstanceAs (Decidable (_ ∨ _))
  | .call (.main _) _ => inferInstanceAs (Decidable (m.loop.pendingDelete = false))
  | .call (.table _) _ | .call .stop _ | .call (.setBeforeSleepCallback _ _) _
  | .call (.setAfterSleepCallback _ _) _ | .call .registerTimer _
  | .go | .ret | .poll _ _ | .clock _ | .fire | .wheelDone => isTrue trivial

instance (m : Machine σ) (i : Input ε π) : Decidable (DeleteSafe m i) :=
  inferInstanceAs (Decidable (_ ∧ _))

/-! ## The stack -/

/-- The activations of `loopyProcessEvents` that have counted themselves in
`processingDepth`. -/
def running : List Frame → ℤ
  | [] => 0
  | .process p :: fs => (if p.pc = .start then 0 else 1) + running fs
  | _ :: fs => running fs

/-- `loopyProcessEvents` is called from `loopyDo`. -/
def Shaped : List Frame → Prop
  | [] => True
  | .process _ :: fs => (∃ flags gs, fs = .loopyDo flags .process :: gs) ∧ Shaped fs
  | _ :: fs => Shaped fs

/-- The stack of an only `loopyDo` that will not start another turn of its loop. -/
def Closing : List Frame → Prop
  | [.loopyDo _ pc] => pc = .process ∨ pc = .top ∨ pc = .exit
  | [.process p, .loopyDo _ pc] => p.pc ≠ .start ∧ pc = .process
  | [.user _, .process p, .loopyDo _ pc] => p.pc ≠ .start ∧ pc = .process
  | _ => False

/-- The first phase. -/
structure Alive (m : Machine σ) : Prop where
  depth : m.loop.processingDepth = running m.frames
  ptr : m.loop.eventsPtr.isSome
  deleting : m.loop.deleting = false
  freed : m.freed = false
  waits : StackSat (fun _ => True) m.frames
  shaped : Shaped m.frames
  pending : m.loop.pendingDelete = true → m.loop.stop = true ∧ Closing m.frames
  undeleted : m.loop.pendingDelete = false → .called .delete true ∉ m.events
  noDeinit : m.tornDown = false

/-- The second phase. -/
structure Torn (m : Machine σ) : Prop where
  frames : m.frames = []
  loop : m.loop = .zero
  events : ∃ later earlier, m.events = later ++ .deinit 0 :: earlier ∧
    (∀ e ∈ later, e = .called .delete true) ∧ earlier.any Event.isDeinit = false

variable {pc : ProcessPc} {m m' : Machine σ} {A : Adapter σ ε} {fs : List Frame} {p : Process}

theorem suspended_ne_start (h : pc.Suspended) : pc ≠ .start := by
  rintro rfl
  exact h

theorem tornDown_cons {e : Event} (hev : m'.events = e :: m.events) (he : e.isDeinit = false)
    (h : m.tornDown = false) : m'.tornDown = false := by
  unfold Machine.tornDown at h ⊢
  rw [hev, List.any_cons, he, h]
  rfl

/-- A step that neither requests nor carries out a deletion. -/
theorem Alive.next (h : Alive m) (hdepth : m'.loop.processingDepth = running m'.frames)
    (hptr : m'.loop.eventsPtr.isSome) (hdel : m'.loop.deleting = m.loop.deleting)
    (hpend : m'.loop.pendingDelete = m.loop.pendingDelete) (hfreed : m'.freed = m.freed)
    (hwaits : StackSat (fun _ => True) m'.frames) (hshaped : Shaped m'.frames)
    (hclosing : m.loop.pendingDelete = true → m.loop.stop = true → Closing m.frames →
      m'.loop.stop = true ∧ Closing m'.frames)
    (hnew : m'.events = m.events ∨ ∃ e, m'.events = e :: m.events ∧ e.isDeinit = false ∧
      e ≠ .called .delete true) :
    Alive m' := by
  refine ⟨hdepth, hptr, hdel.trans h.deleting, hfreed.trans h.freed, hwaits, hshaped, ?_, ?_, ?_⟩
  · intro hp
    obtain ⟨hstop, hc⟩ := h.pending (hpend ▸ hp)
    exact hclosing (hpend ▸ hp) hstop hc
  · intro hp hin
    have hold := h.undeleted (hpend ▸ hp)
    rcases hnew with hev | ⟨e, hev, -, hne⟩
    · rw [hev] at hin; exact hold hin
    · rw [hev] at hin
      rcases List.mem_cons.mp hin with heq | hin
      · exact hne heq.symm
      · exact hold hin
  · rcases hnew with hev | ⟨e, hev, hdeinit, -⟩
    · have hold := h.noDeinit
      unfold Machine.tornDown at hold ⊢
      rwa [hev]
    · exact tornDown_cons hev hdeinit h.noDeinit

variable {l : LoopyLoop σ} {poll : π → ℕ → σ → List LoopyFiredEvent × σ} {i : Input ε π}

/-- Table calls leave the control fields alone. -/
theorem TableEffect.control {env : Env ε} {l' : LoopyLoop σ} {c : TableCall} {b : Bool}
    (he : TableEffect A env l c b l') :
    l'.processingDepth = l.processingDepth ∧ l'.deleting = l.deleting ∧
      l'.pendingDelete = l.pendingDelete ∧ l'.stop = l.stop ∧
      (l.eventsPtr.isSome → l'.eventsPtr.isSome) := by
  have hgrown : ∀ {l₁}, Grown A env.addr l l₁ → l₁.processingDepth = l.processingDepth ∧
      l₁.deleting = l.deleting ∧ l₁.pendingDelete = l.pendingDelete ∧ l₁.stop = l.stop ∧
      (l.eventsPtr.isSome → l₁.eventsPtr.isSome) := by
    rintro l₁ (rfl | ⟨n, -, -, rfl⟩)
    · exact ⟨rfl, rfl, rfl, rfl, id⟩
    · exact ⟨rfl, rfl, rfl, rfl, fun _ => rfl⟩
  cases he with
  | register hc hr hg hsame hi hs hfree hok =>
    obtain ⟨h1, h2, h3, h4, h5⟩ := hgrown hg
    exact ⟨h1, h2, h3, h4, h5⟩
  | refuse hc hr hg hi hs hok =>
    obtain ⟨h1, h2, h3, h4, h5⟩ := hgrown hg
    exact ⟨h1, h2, h3, h4, h5⟩
  | taken hc hg => exact hgrown hg
  | unregister hc hi hmask hs => rw [unregistered_frame]; exact ⟨rfl, rfl, rfl, rfl, id⟩
  | absent hc hmask => exact ⟨rfl, rfl, rfl, rfl, id⟩
  | resize hg => exact hgrown hg

/-- A closing stack whose innermost activation is `loopyDo`. -/
theorem Closing.loopyDo {flags : LoopyEvents} {pc : DoPc} (h : Closing (.loopyDo flags pc :: fs)) :
    fs = [] ∧ (pc = .process ∨ pc = .top ∨ pc = .exit) := by
  cases fs with
  | nil => exact ⟨rfl, h⟩
  | cons g gs => cases gs <;> exact h.elim

/-- A closing stack whose innermost activation is `loopyProcessEvents`. -/
theorem Closing.process (h : Closing (.process p :: fs)) :
    p.pc ≠ .start ∧ ∃ flags, fs = [.loopyDo flags .process] := by
  unfold Closing at h
  split at h
  · next heq => cases heq
  · next p' flags pc heq =>
    cases heq
    obtain ⟨hpc, hdo⟩ := h
    exact ⟨hpc, flags, by rw [hdo]⟩
  · next heq => cases heq
  · exact h.elim

theorem Closing.user {callback : Callback} (h : Closing (.user callback :: fs)) : Closing fs := by
  unfold Closing at h
  split at h
  · next heq => cases heq
  · next heq => cases heq
  · next heq =>
    cases heq
    exact h
  · exact h.elim

theorem Closing.process_iff {p' : Process} (h : Closing (.process p :: fs)) (hp : p'.pc ≠ .start)
    (callback : Callback) :
    Closing (.process p' :: fs) ∧ Closing (.user callback :: .process p' :: fs) := by
  obtain ⟨-, flags, rfl⟩ := h.process
  exact ⟨⟨hp, rfl⟩, ⟨hp, rfl⟩⟩

/-- Deletion requested from a file or timer callback of the only `loopyDo`. -/
theorem OnlyLoop.closing (h : OnlyLoop fs) (hw : StackSat (fun _ => True) fs) (hs : Shaped fs) :
    Closing fs ∧ running fs = 1 := by
  unfold OnlyLoop at h
  split at h
  · next callback p flags pc =>
    have hsusp : p.pc.Suspended := (hw.2 (.process p) List.mem_cons_self).2
    obtain ⟨⟨flags', gs, heq⟩, -⟩ : (∃ flags' gs, [Frame.loopyDo flags pc] =
      .loopyDo flags' .process :: gs) ∧ Shaped [Frame.loopyDo flags pc] := hs
    cases heq
    refine ⟨⟨suspended_ne_start hsusp, rfl⟩, ?_⟩
    simp [running, suspended_ne_start hsusp]
  · exact h.elim

/-! ## Steps -/

theorem DirPc.points {e : Entry} {returned skipped : ProcessPc} {dir : Dir}
    (h : Machine.DirPc l e pc dir returned skipped) :
    pc ≠ .start ∧ returned.Suspended ∧ skipped ≠ .start := by
  cases h with
  | read => exact ⟨nofun, trivial, nofun⟩
  | write => exact ⟨nofun, trivial, nofun⟩

/-- Undefined behaviour neither requests a deletion nor carries one out. -/
theorem Alive.fault (h : Alive m) : Alive m.fault :=
  h.next h.depth h.ptr rfl rfl rfl h.waits h.shaped (fun _ hst hc => ⟨hst, hc⟩)
    (Or.inr ⟨.fault, rfl, rfl, by simp⟩)

theorem running_user (callback : Callback) (fs : List Frame) :
    running (.user callback :: fs) = running fs := rfl

theorem running_process (h : p.pc ≠ .start) (fs : List Frame) :
    running (.process p :: fs) = 1 + running fs := by
  rw [running, if_neg h]

namespace Alive

/-- What the invariant says of the innermost activation. -/
theorem top {f : Frame} (h : Alive m) (hf : m.frames = f :: fs) :
    m.loop.processingDepth = running (f :: fs) ∧ StackSat (fun _ => True) (f :: fs) ∧
      Shaped (f :: fs) := by
  rw [← hf]
  exact ⟨h.depth, h.waits, h.shaped⟩

/-- A callback returns. -/
theorem ret {callback : Callback} (h : Alive m) (hf : m.frames = .user callback :: fs) :
    Alive { m with frames := fs } := by
  obtain ⟨hd, hw, hs⟩ := h.top hf
  refine h.next hd h.ptr rfl rfl rfl hw.tail hs (fun _ hst hc => ⟨hst, ?_⟩) (Or.inl rfl)
  rw [hf] at hc
  exact hc.user

variable {flags : LoopyEvents} {pc' : DoPc}

/-- `loopyDo` starts; a stack that waits for a deletion has no such activation. -/
theorem enter (h : Alive m) (hf : m.frames = .loopyDo flags .enter :: fs) :
    Alive { m with
      loop := { m.loop with stop := false }, frames := .loopyDo flags .top :: fs } := by
  obtain ⟨hd, hw, hs⟩ := h.top hf
  refine h.next hd h.ptr rfl rfl rfl ⟨trivial, hw.2⟩ hs (fun _ hst hc => ?_) (Or.inl rfl)
  rw [hf] at hc
  rcases hc.loopyDo.2 with hpc | hpc | hpc <;> cases hpc

/-- `loopyDo` goes on. -/
theorem jump {pc : DoPc} (h : Alive m) (hf : m.frames = .loopyDo flags pc :: fs)
    (hj : Machine.DoJump m.loop pc pc') : Alive { m with frames := .loopyDo flags pc' :: fs } := by
  obtain ⟨hd, hw, hs⟩ := h.top hf
  refine h.next hd h.ptr rfl rfl rfl ⟨trivial, hw.2⟩ hs (fun _ hst hc => ⟨hst, ?_⟩) (Or.inl rfl)
  rw [hf] at hc
  obtain ⟨rfl, hpc⟩ := hc.loopyDo
  cases hj with
  | topExit | processExit => exact Or.inr (Or.inr rfl)
  | processTop => exact Or.inr (Or.inl rfl)
  | beforeExit | afterExit | afterTop => rcases hpc with hpc | hpc | hpc <;> cases hpc

/-- `loopyDo` calls the callback before or after the sleep, which it does not with `stop` set. -/
theorem sleep {pc : DoPc} (h : Alive m) (hf : m.frames = .loopyDo flags pc :: fs)
    (hns : ¬ m.loop.stop = true) (callback : Callback) (cb clientData : ℕ) :
    Alive (m.invoke callback cb clientData (.loopyDo flags pc' :: fs)) := by
  obtain ⟨hd, hw, hs⟩ := h.top hf
  exact h.next hd h.ptr rfl rfl rfl ⟨trivial, List.forall_mem_cons.mpr ⟨trivial, hw.2⟩⟩ hs
    (fun _ hst _ => absurd hst hns) (Or.inr ⟨_, rfl, rfl, by simp⟩)

/-- `loopyDo` calls `loopyProcessEvents`. -/
theorem process {pc : DoPc} (h : Alive m) (hf : m.frames = .loopyDo flags pc :: fs)
    (hns : ¬ m.loop.stop = true) :
    Alive { m with frames := Machine.newProcess flags :: .loopyDo flags .process :: fs } := by
  obtain ⟨hd, hw, hs⟩ := h.top hf
  refine h.next ?_ h.ptr rfl rfl rfl ⟨trivial, List.forall_mem_cons.mpr ⟨trivial, hw.2⟩⟩
    ⟨⟨_, _, rfl⟩, hs⟩ (fun _ hst _ => absurd hst hns) (Or.inl rfl)
  rw [hd]
  simp [running, Machine.newProcess]

/-- `loopyDo` returns while no deletion is pending. -/
theorem exit {pc : DoPc} (h : Alive m) (hf : m.frames = .loopyDo flags pc :: fs)
    (hp : m.loop.pendingDelete = false) : Alive { m with frames := fs } := by
  obtain ⟨hd, hw, hs⟩ := h.top hf
  refine h.next hd h.ptr rfl rfl rfl hw.tail hs (fun hp' => ?_) (Or.inl rfl)
  rw [hp] at hp'
  cases hp'

/-- `loopyDo` returns and carries out the deletion, with nothing left on the stack. -/
theorem exitDelete {pc : DoPc} (h : Alive m) (hf : m.frames = .loopyDo flags pc :: fs)
    (hp : m.loop.pendingDelete = true) :
    Torn ({ m with frames := fs } : Machine σ).loopyDeinit := by
  obtain ⟨-, hc⟩ := h.pending hp
  rw [hf] at hc
  obtain ⟨rfl, -⟩ := hc.loopyDo
  exact ⟨rfl, rfl, [], m.events, rfl, nofun, h.noDeinit⟩

/-- `loopyDelete` does not find the loop idle in a callback. -/
theorem not_deleteNow (h : Alive m)
    (hok : m.frames = [] → m.tornDown = true ∧ m.freed = false)
    (hdefers : m.frames = [] ∨ OnlyLoop m.frames) : m.loop.processingDepth > 0 := by
  rcases hdefers with hnil | honly
  · -- outside the loop deletion comes after the teardown
    have htorn := (hok hnil).1
    rw [h.noDeinit] at htorn
    cases htorn
  · rw [h.depth, (honly.closing h.waits h.shaped).2]
    decide

/-- An activation of `loopyProcessEvents` moves on, calling `callback` or not. -/
theorem processStep (h : Alive m) {p' : Process} (hf : m.frames = .process p :: fs)
    (hp : p.pc ≠ .start) (hp' : p'.pc ≠ .start)
    (hf' : m'.frames = .process p' :: fs ∨
      p'.pc.Suspended ∧ ∃ callback, m'.frames = .user callback :: .process p' :: fs)
    (hctl : m'.loop.processingDepth = m.loop.processingDepth ∧
      m'.loop.eventsPtr = m.loop.eventsPtr ∧ m'.loop.deleting = m.loop.deleting ∧
      m'.loop.pendingDelete = m.loop.pendingDelete ∧ m'.loop.stop = m.loop.stop)
    (hfreed : m'.freed = m.freed)
    (hnew : m'.events = m.events ∨ ∃ e, m'.events = e :: m.events ∧ e.isDeinit = false ∧
      e ≠ .called .delete true) :
    Alive m' := by
  obtain ⟨hdepth, hptr, hdel, hpend, hstop⟩ := hctl
  obtain ⟨hd, hw, hs⟩ := h.top hf
  rw [running_process hp] at hd
  refine h.next ?_ (by rw [hptr]; exact h.ptr) hdel hpend hfreed ?_ ?_ ?_ hnew
  · rcases hf' with hf' | ⟨-, callback, hf'⟩
    · rw [hf', running_process hp', hdepth, hd]
    · rw [hf', running_user, running_process hp', hdepth, hd]
  · rcases hf' with hf' | ⟨hsusp, callback, hf'⟩
    · rw [hf']; exact ⟨trivial, hw.2⟩
    · rw [hf']; exact ⟨trivial, List.forall_mem_cons.mpr ⟨⟨trivial, hsusp⟩, hw.2⟩⟩
  · rcases hf' with hf' | ⟨-, callback, hf'⟩
    · rw [hf']; exact hs
    · rw [hf']; exact hs
  · intro _ hst hc
    rw [hf] at hc
    rcases hf' with hf' | ⟨-, callback, hf'⟩
    · rw [hf']; exact ⟨hstop.trans hst, (hc.process_iff hp' .timer).1⟩
    · rw [hf']; exact ⟨hstop.trans hst, (hc.process_iff hp' callback).2⟩

/-- `loopyDelete` in a callback of the only `loopyDo` marks the loop. -/
theorem deletePending (h : Alive m) (honly : OnlyLoop m.frames) :
    Alive { m.emit (.called .delete true) with
      loop := { m.loop with pendingDelete := true, stop := true } } :=
  ⟨h.depth, h.ptr, h.deleting, h.freed, h.waits, h.shaped,
    fun _ => ⟨rfl, (honly.closing h.waits h.shaped).1⟩, nofun, tornDown_cons rfl rfl h.noDeinit⟩

/-- `loopyMain` is called while no deletion is pending. -/
theorem main (h : Alive m) (flags : LoopyEvents) (hu : m.UserRuns)
    (hpend : m.loop.pendingDelete = false) :
    Alive { m.emit (.called (.main flags) true) with
      frames := .loopyDo flags .enter :: m.frames } := by
  refine ⟨h.depth, h.ptr, h.deleting, h.freed, ⟨trivial, h.waits.waits hu⟩, h.shaped,
    fun hp => ?_, fun _ hin => ?_, tornDown_cons rfl rfl h.noDeinit⟩
  · have hp' : m.loop.pendingDelete = true := hp
    rw [hpend] at hp'
    cases hp'
  · rcases List.mem_cons.mp hin with heq | hin
    · cases heq
    · exact h.undeleted hpend hin

/-- `loopyProcessEvents` counts itself in `processingDepth`. -/
theorem started (h : Alive m) (hf : m.frames = .process p :: fs) (hp : p.pc = .start)
    (hasTimers : Bool) (hpc : pc = .polling ∨ pc = .timers) :
    Alive { m with
      loop := { m.loop with processingDepth := m.loop.processingDepth + 1 }
      frames := .process { p with hasTimers := hasTimers, pc := pc } :: fs } := by
  obtain ⟨hd, hw, hs⟩ := h.top hf
  have hne : pc ≠ .start := by rcases hpc with rfl | rfl <;> nofun
  refine h.next ?_ h.ptr rfl rfl rfl ⟨trivial, hw.2⟩ hs (fun _ hst hc => ?_) (Or.inl rfl)
  · rw [running, if_pos hp] at hd
    show m.loop.processingDepth + 1 =
      running (.process { p with hasTimers := hasTimers, pc := pc } :: fs)
    rw [running_process hne, hd]
    omega
  · rw [hf] at hc
    exact absurd hp hc.process.1

/-- `loopyProcessEvents` returns and is no longer counted. -/
theorem leave (h : Alive m) (hf : m.frames = .process p :: fs)
    (hp : p.pc = .finish ∨ p.pc = .wheel) :
    Alive { m with
      loop := { m.loop with processingDepth := m.loop.processingDepth - 1 }
      frames := fs } := by
  obtain ⟨hd, hw, hs⟩ := h.top hf
  have hne : p.pc ≠ .start := by
    rcases hp with hp | hp
    · rw [hp]; nofun
    · rw [hp]; nofun
  refine h.next ?_ h.ptr rfl rfl rfl hw.tail hs.2 (fun _ hst hc => ⟨hst, ?_⟩) (Or.inl rfl)
  · rw [running_process hne] at hd
    show m.loop.processingDepth - 1 = running fs
    omega
  · rw [hf] at hc
    obtain ⟨-, flags, rfl⟩ := hc.process
    exact Or.inl rfl

end Alive

open Machine in
/-- A step of the first phase stays in it or is the teardown at the exit of `loopyDo`. -/
theorem Alive.step (h : Alive m) (hok : DeleteSafe m i) (hstep : step A poll m i = some m') :
    Alive m' ∨ Torn m' := by
  cases step_inv hstep with
  | table hu heff =>
    obtain ⟨h1, h2, h3, h4, h5⟩ := heff.control
    left
    exact h.next (h1.trans h.depth) (h5 h.ptr) h2 h3 rfl h.waits h.shaped
      (fun _ hst hc => ⟨h4.trans hst, hc⟩) (Or.inr ⟨_, rfl, rfl, by simp⟩)
  | control hu hc hnd hl =>
    obtain ⟨stop, before, after, timer, hstop, rfl⟩ := hl
    left
    exact h.next h.depth h.ptr rfl rfl rfl h.waits h.shaped (fun _ hst hc => ⟨hstop hst, hc⟩)
      (Or.inr ⟨_, rfl, rfl, by simpa using hnd⟩)
  | deleteNone hu hnull =>
    have hptr := h.ptr
    rw [Option.isNone_iff_eq_none.mp hnull.2.2] at hptr
    cases hptr
  | deletePending hu hdepth =>
    rcases hok.2 with hnil | honly
    · rw [h.depth, hnil] at hdepth
      exact absurd hdepth (by decide)
    · exact Or.inl (h.deletePending honly)
  | deleteNow hu hlive hdepth => exact absurd (h.not_deleteNow hok.1 hok.2) hdepth
  | main hu => exact Or.inl (h.main _ hu hok.2)
  | ret hf => exact Or.inl (h.ret hf)
  | enter hf => exact Or.inl (h.enter hf)
  | jump hf hj => exact Or.inl (h.jump hf hj)
  | beforeSleep hf hns | afterSleep hf hns => exact Or.inl (h.sleep hf hns _ _ _)
  | process hf hpc hns => exact Or.inl (h.process hf hns)
  | exit hf hp => exact Or.inl (h.exit hf hp)
  | exitDelete hf hp => exact Or.inr (h.exitDelete hf hp)
  | started hf hp hpc => exact Or.inl (h.started hf hp _ hpc)
  | polled hf hp hs =>
    left
    refine h.processStep hf (by rw [hp]; nofun) ?_ (Or.inl rfl) ⟨rfl, rfl, rfl, rfl, rfl⟩ rfl
      (Or.inr ⟨_, rfl, rfl, by simp⟩)
    nofun
  | pollFault hf hp hs =>
    left
    have hpolled : Alive (m.emit (.polled [])) :=
      h.next h.depth h.ptr rfl rfl rfl h.waits h.shaped (fun _ hst hc => ⟨hst, hc⟩)
        (Or.inr ⟨_, rfl, rfl, by simp⟩)
    exact hpolled.fault
  | fetch hf hp hj hptr =>
    left
    refine h.processStep hf (by rw [hp]; nofun) ?_ (Or.inl rfl) ⟨rfl, rfl, rfl, rfl, rfl⟩ rfl
      (Or.inl rfl)
    nofun
  | dispatched hf hp hj =>
    left
    refine h.processStep hf (by rw [hp]; nofun) ?_ (Or.inl rfl) ⟨rfl, rfl, rfl, rfl, rfl⟩ rfl
      (Or.inr ⟨_, rfl, rfl, by simp⟩)
    nofun
  | dirInvoked hf hp hr hi =>
    obtain ⟨hne, hsusp, -⟩ := DirPc.points hp
    left
    exact h.processStep hf hne (suspended_ne_start hsusp) (Or.inr ⟨hsusp, _, rfl⟩)
      ⟨rfl, rfl, rfl, rfl, rfl⟩ rfl (Or.inr ⟨_, rfl, rfl, by simp⟩)
  | dirSkipped hf hp hr hi =>
    obtain ⟨hne, -, hskip⟩ := DirPc.points hp
    left
    exact h.processStep hf hne hskip (Or.inl rfl) ⟨rfl, rfl, rfl, rfl, rfl⟩ rfl (Or.inl rfl)
  | readReturned hf hp =>
    left
    refine h.processStep hf (by rw [hp]; nofun) ?_ (Or.inl rfl) ⟨rfl, rfl, rfl, rfl, rfl⟩ rfl
      (Or.inl rfl)
    nofun
  | timers hf hp hpc =>
    left
    refine h.processStep hf ?_ ?_ (Or.inl rfl) ⟨rfl, rfl, rfl, rfl, rfl⟩ rfl (Or.inl rfl)
    · rcases hp with hp | hp <;> rw [hp] <;> nofun
    · rcases hpc with rfl | rfl <;> nofun
  | fire hf hp =>
    left
    refine h.processStep hf (by rw [hp]; nofun) (by rw [hp]; nofun) (Or.inr ⟨?_, _, rfl⟩)
      ⟨rfl, rfl, rfl, rfl, rfl⟩ rfl (Or.inr ⟨_, rfl, rfl, by simp⟩)
    rw [hp]
    trivial
  | leave hf hp => exact Or.inl (h.leave hf hp)
  | fetchFault | dirFault =>
    left
    exact h.fault
  | freed hfreed =>
    rw [h.freed] at hfreed
    cases hfreed

/-- After the teardown nothing happens but a further, idle deletion. -/
theorem Torn.step (h : Torn m) (hok : DeleteSafe m i) (hstep : Machine.step A poll m i = some m') :
    Torn m' := by
  obtain ⟨later, earlier, hev, hlater, hearlier⟩ := h.events
  have htorn : m.tornDown = true := by simp [Machine.tornDown, hev, Event.isDeinit]
  have hnocall : ¬ m.tornDown = false := by rw [htorn]; nofun
  unfold Machine.step at hstep
  split at hstep
  · cases hstep
  · rw [h.frames] at hstep
    cases i with
    | call c env =>
      cases c with
      | delete =>
        have hfreed : m.freed = false := (hok.1 h.frames).2
        have hidle : m' = m.emit (.called .delete true) := by
          simp only [Machine.guarded, hfreed, Machine.userCall, Machine.loopyDelete,
            Machine.emit_loop, h.loop] at hstep
          exact (Option.some.inj hstep).symm
        rw [hidle]
        refine ⟨h.frames, h.loop, .called .delete true :: later, earlier, ?_, ?_, hearlier⟩
        · rw [Machine.emit_events, hev]; rfl
        · exact List.forall_mem_cons.mpr ⟨rfl, hlater⟩
      | table c => exact absurd (hok.1 h.frames) hnocall
      | stop => exact absurd (hok.1 h.frames) hnocall
      | main flags => exact absurd (hok.1 h.frames) hnocall
      | setBeforeSleepCallback cb clientData => exact absurd (hok.1 h.frames) hnocall
      | setAfterSleepCallback cb clientData => exact absurd (hok.1 h.frames) hnocall
      | registerTimer => exact absurd (hok.1 h.frames) hnocall
    | go | ret | poll _ _ | clock _ | fire | wheelDone => cases hstep

theorem Alive.safeDeletion (h : Alive m) : SafeDeletion m := by
  have hnone : ∀ e ∈ m.events, ¬ e.isDeinit = true := by
    have hany := h.noDeinit
    unfold Machine.tornDown at hany
    rwa [List.any_eq_false] at hany
  have hcount : m.events.countP Event.isDeinit = 0 := List.countP_eq_zero.mpr hnone
  refine ⟨by omega, fun n hin => absurd rfl (hnone _ hin), fun later n earlier heq => ?_, ?_⟩
  · exact absurd rfl (hnone (.deinit n) (by rw [heq]; simp))
  · intro hf hin
    -- a pending deletion would have activations on the stack
    cases hp : m.loop.pendingDelete with
    | true =>
      obtain ⟨-, hc⟩ := h.pending hp
      rw [hf] at hc
      exact hc.elim
    | false => exact absurd hin (h.undeleted hp)

theorem Torn.safeDeletion (h : Torn m) : SafeDeletion m := by
  obtain ⟨later, earlier, hev, hlater, hearlier⟩ := h.events
  have hnone : ∀ e ∈ earlier, ¬ e.isDeinit = true := List.any_eq_false.mp hearlier
  have hlate : ∀ e ∈ later, ¬ e.isDeinit = true := by
    intro e he
    rw [hlater e he]
    nofun
  have hcount : m.events.countP Event.isDeinit = 1 := by
    rw [hev, List.countP_append, List.countP_cons, List.countP_eq_zero.mpr hnone,
      List.countP_eq_zero.mpr hlate]
    rfl
  refine ⟨hcount.le, fun n hin => ?_, fun later' n earlier' heq e he => ?_, fun _ _ => hcount⟩
  · rw [hev] at hin
    rcases List.mem_append.mp hin with hin | hin
    · exact absurd rfl (hlate _ hin)
    · rcases List.mem_cons.mp hin with heq | hin
      · cases heq; rfl
      · exact absurd rfl (hnone _ hin)
  · -- the one teardown splits the history in one way only
    have hin : e ∈ later := by
      rw [hev] at heq
      rcases List.append_eq_append_iff.mp heq with ⟨mid, rfl, hmid⟩ | ⟨mid, rfl, -⟩
      · cases mid with
        | nil => simpa using he
        | cons e' mid =>
          obtain ⟨-, rfl⟩ := List.cons.inj hmid
          exact absurd rfl (hnone (.deinit n) (by simp))
      · exact List.mem_append_left _ he
    rw [hlater e hin]
    rfl

/-- **Safe deferred deletion.** In every run of a loop whose callbacks request its deletion
only from a file or timer callback of the only running `loopyDo`, and start no loop while the
deletion is pending, the loop is torn down at most once, under no activation of
`loopyProcessEvents`, with no callback and no poll afterwards; and once `loopyDo` has
returned after a deletion, it has been torn down. -/
theorem deletion_safe (A : Adapter σ ε) (poll : π → ℕ → σ → List LoopyFiredEvent × σ)
    (n addr : ℕ) (allocated : Bool) (is : List (Input ε π)) (m : Machine σ)
    (hrun : Run (Machine.step A poll) DeleteSafe
      (.start { LoopyLoop.fresh A n addr with allocated := allocated }) is m) :
    SafeDeletion m := by
  have hstart : Alive (Machine.start { LoopyLoop.fresh A n addr with allocated := allocated }) :=
    ⟨rfl, rfl, rfl, rfl, trivial, trivial, nofun, nofun, rfl⟩
  have hinv : Alive m ∨ Torn m := by
    refine hrun.invariant (P := fun m => Alive m ∨ Torn m) (fun m i m' h hok hstep => ?_)
      (Or.inl hstart)
    rcases h with h | h
    · exact h.step hok hstep
    · exact Or.inr (h.step hok hstep)
  rcases hinv with h | h
  · exact h.safeDeletion
  · exact h.safeDeletion

end

/-- Descriptor 3 is readable, and its callback deletes the loop. -/
def deleteFromFile : List EpollInput :=
  [.call (.table (.registerRead 3 5 9)) ⟨2, true⟩, .call (.main .ALL) ⟨2, true⟩, .go, .go, .go,
    .poll 0 [(3, EPOLLIN)], .go, .go, .call .delete ⟨2, true⟩, .ret, .go, .go, .go, .clock 0, .go,
    .go, .go, .go]

theorem deletion_safe_from_file :
    ∃ m, Run epollStep DeleteSafe (epollStart 16 1 true) deleteFromFile m ∧ m.frames = [] ∧
      m.events.head? = some (.deinit 0) ∧ SafeDeletion m := by
  have hexec : (exec epollStep DeleteSafe (epollStart 16 1 true) deleteFromFile).map
      (fun m => (m.frames, m.events.head?)) = some ([], some (.deinit 0)) := by decide +kernel
  obtain ⟨m, hrun, hend⟩ := Run.of_exec_map hexec
  obtain ⟨hframes, hhead⟩ := Prod.mk.inj hend
  exact ⟨m, hrun, hframes, hhead, deletion_safe _ _ 16 1 true _ _ hrun⟩

/-- A before-sleep callback deletes the loop and returns. -/
def deleteFromHook : List EpollInput :=
  [.call (.setBeforeSleepCallback 7 9) ⟨2, true⟩, .call (.main .ALL) ⟨2, true⟩, .go, .go,
    .call .delete ⟨2, true⟩, .ret, .go, .go, .poll 0 []]

/-- `loopyDo` goes on with the zeroed loop and polls it. -/
theorem deletion_unsafe :
    ¬ ∀ is m, Run epollStep InLoop (epollStart 16 1 false) is m → SafeDeletion m := by
  intro hall
  have hexec : (exec epollStep InLoop (epollStart 16 1 false) deleteFromHook).map
      (fun m => m.events.take 3) = some [.fault, .polled [], .deinit 0] := by decide +kernel
  obtain ⟨m, hm, htake⟩ := Run.of_exec_map hexec
  have hevents : m.events = [.fault, .polled []] ++ .deinit 0 :: m.events.drop 3 := by
    conv_lhs => rw [← List.take_append_drop 3 m.events, htake]
    rfl
  have hsilent := (hall _ _ hm).silent _ _ _ hevents (.polled []) (by simp)
  cases hsilent

end Loopy.EventLoop
