import Loopy.EventLoop.Machine
import Loopy.EventLoop.Theorems

/-!
# What one step of the machine can do

`Transition` lists the steps of the machine with their guards, and `step_inv` says that
every step is one of them. The invariants of the later modules are proved by cases on it
and never unfold the step function.
-/

namespace Loopy.EventLoop

/-! ## Directions and tables -/

theorem has_zero (dir : Dir) : LoopyFileEvent.zero.mask.has dir = false := by cases dir <;> rfl

theorem has_union (a b : LoopyAction) (dir : Dir) :
    (a.union b).has dir = (a.has dir || b.has dir) := by cases dir <;> rfl

theorem has_diff (a b : LoopyAction) (dir : Dir) :
    (a.diff b).has dir = (a.has dir && !b.has dir) := by cases dir <;> rfl

theorem ne_none_of_has {a : LoopyAction} (dir : Dir) (h : a.has dir = true) : a ≠ .NONE := by
  rintro rfl
  cases dir <;> cases h

/-- Growing keeps the table but for the new, zeroed entries. -/
theorem Grown.events_eq {σ ε : Type} {A : Adapter σ ε} {addr : ℕ} {l l' : LoopyLoop σ}
    (h : Grown A addr l l') (i : ℕ) :
    l'.events i = l.events i ∨ (l.setSize ≤ i ∧ l'.events i = .zero) := by
  rcases h with rfl | ⟨n, -, -, rfl⟩
  · exact Or.inl rfl
  · by_cases hi : l.setSize ≤ i ∧ i < n
    · exact Or.inr ⟨hi.1, if_pos hi⟩
    · exact Or.inl (if_neg hi)

/-! ## Changes of an activation -/

/-- The process after one direction of an entry had its turn. -/
def Process.turned (p : Process) (pc : ProcessPc) (turn : Turn) : Process :=
  { p with pc := pc, dispatch := { p.dispatch with turns := p.dispatch.turns ++ [turn] } }

/-- The process after its poll. -/
def Process.polled (p : Process) (shortest since : ℕ) (batch : List LoopyFiredEvent) : Process :=
  { p with
    pc := .entry 0
    shortest := shortest
    numevents := batch.length
    dispatch := ⟨batch, since, []⟩ }

namespace Machine

variable {σ ε π : Type}

/-! ## Small facts -/

section

variable (m : Machine σ) (e : Event) (callback : Callback) (cb clientData : ℕ) (fs : List Frame)

@[simp] theorem emit_loop : (m.emit e).loop = m.loop := rfl

@[simp] theorem emit_frames : (m.emit e).frames = m.frames := rfl

@[simp] theorem emit_events : (m.emit e).events = e :: m.events := rfl

@[simp] theorem emit_freed : (m.emit e).freed = m.freed := rfl

@[simp] theorem fault_loop : m.fault.loop = m.loop := rfl

@[simp] theorem fault_frames : m.fault.frames = m.frames := rfl

@[simp] theorem fault_events : m.fault.events = .fault :: m.events := rfl

@[simp] theorem loopyDeinit_loop : m.loopyDeinit.loop = .zero := rfl

@[simp] theorem loopyDeinit_frames : m.loopyDeinit.frames = m.frames := rfl

@[simp] theorem loopyDeinit_events :
    m.loopyDeinit.events = .deinit (processDepth m.frames) :: m.events := rfl

@[simp] theorem invoke_loop : (m.invoke callback cb clientData fs).loop = m.loop := rfl

@[simp] theorem invoke_frames :
    (m.invoke callback cb clientData fs).frames = .user callback :: fs := rfl

@[simp] theorem invoke_events :
    (m.invoke callback cb clientData fs).events = .invoked callback cb clientData :: m.events := rfl

end

/-! ## Steps -/

/-- User code runs: the stack is empty or a callback is innermost. -/
def UserRuns (m : Machine σ) : Prop := m.frames = [] ∨ ∃ callback fs, m.frames = .user callback :: fs

/-- The loop with other control fields than its tables and its deletion state; `stop` is not
taken back. -/
def Controlled (l l' : LoopyLoop σ) : Prop :=
  ∃ stop before after timer, (l.stop = true → stop = true) ∧
    l' = { l with stop := stop, before := before, after := after, timer := timer }

/-- The jumps of `loopyDo`. -/
inductive DoJump (l : LoopyLoop σ) : DoPc → DoPc → Prop
  | topExit (h : l.stop = true) : DoJump l .top .exit
  | beforeExit (h : l.stop = true ∨ l.deleting = true) : DoJump l .before .exit
  | processExit (h : l.deleting = true) : DoJump l .process .exit
  | processTop (h : ¬ l.deleting = true) : DoJump l .process .top
  | afterExit (h : l.deleting = true) : DoJump l .after .exit
  | afterTop (h : ¬ l.deleting = true) : DoJump l .after .top

/-- Where the dispatch of a direction starts and where it goes on after the callback or
without it. -/
inductive DirPc (l : LoopyLoop σ) (e : Entry) : ProcessPc → Dir → ProcessPc → ProcessPc → Prop
  | read : DirPc l e (.testRead e) .read (.readReturned e l.eventsPtr) (.testWrite e)
  | write : DirPc l e (.testWrite e) .write (.entry (e.j + 1)) (.entry (e.j + 1))

/-- The turn of one direction of an entry. -/
def turnOf (m : Machine σ) (e : Entry) (dir : Dir) : Turn :=
  let registered := (m.loop.events e.fd).mask.has dir
  ⟨e.j, dir, e.fd, e.mask, m.events.length, registered, registered && e.mask.has dir⟩

/-- Everything one step can do. -/
inductive Transition (A : Adapter σ ε) (poll : π → ℕ → σ → List LoopyFiredEvent × σ)
    (m : Machine σ) : Input ε π → Machine σ → Prop
  | table {c : TableCall} {env : Env ε} {b : Bool} {l : LoopyLoop σ} (hu : m.UserRuns)
      (heff : TableEffect A env m.loop c b l) :
      Transition A poll m (.call (.table c) env)
        ({ m with loop := l }.emit (.called (.table c) b))
  | control {c : Call} {env : Env ε} {l : LoopyLoop σ} (hu : m.UserRuns)
      (hc : ∀ t, c ≠ .table t) (hd : c ≠ .delete) (hl : Controlled m.loop l) :
      Transition A poll m (.call c env) ({ m with loop := l }.emit (.called c true))
  | deleteNone {env : Env ε} (hu : m.UserRuns)
      (hnull : m.loop.state.isNone ∧ m.loop.timer = false ∧ m.loop.eventsPtr.isNone) :
      Transition A poll m (.call .delete env) (m.emit (.called .delete true))
  | deletePending {env : Env ε} (hu : m.UserRuns) (hd : m.loop.processingDepth > 0) :
      Transition A poll m (.call .delete env)
        { m.emit (.called .delete true) with
          loop := { m.loop with pendingDelete := true, stop := true } }
  | deleteNow {env : Env ε} (hu : m.UserRuns)
      (hlive : ¬ (m.loop.state.isNone ∧ m.loop.timer = false ∧ m.loop.eventsPtr.isNone))
      (hd : ¬ m.loop.processingDepth > 0) :
      Transition A poll m (.call .delete env) (m.emit (.called .delete true)).loopyDeinit
  | main {env : Env ε} {flags : LoopyEvents} (hu : m.UserRuns) :
      Transition A poll m (.call (.main flags) env)
        { m.emit (.called (.main flags) true) with
          frames := .loopyDo flags .enter :: m.frames }
  | ret {callback : Callback} {fs : List Frame} (hf : m.frames = .user callback :: fs) :
      Transition A poll m .ret { m with frames := fs }
  | enter {flags : LoopyEvents} {fs : List Frame} (hf : m.frames = .loopyDo flags .enter :: fs) :
      Transition A poll m .go
        { m with loop := { m.loop with stop := false }, frames := .loopyDo flags .top :: fs }
  | jump {flags : LoopyEvents} {pc pc' : DoPc} {fs : List Frame}
      (hf : m.frames = .loopyDo flags pc :: fs) (hj : DoJump m.loop pc pc') :
      Transition A poll m .go { m with frames := .loopyDo flags pc' :: fs }
  | beforeSleep {flags : LoopyEvents} {fs : List Frame}
      (hf : m.frames = .loopyDo flags .top :: fs) (hs : ¬ m.loop.stop = true) :
      Transition A poll m .go (m.invoke .beforeSleep m.loop.before.cb m.loop.before.clientData
        (.loopyDo flags .before :: fs))
  | afterSleep {flags : LoopyEvents} {fs : List Frame}
      (hf : m.frames = .loopyDo flags .process :: fs) (hs : ¬ m.loop.stop = true) :
      Transition A poll m .go (m.invoke .afterSleep m.loop.after.cb m.loop.after.clientData
        (.loopyDo flags .after :: fs))
  | process {flags : LoopyEvents} {pc : DoPc} {fs : List Frame}
      (hf : m.frames = .loopyDo flags pc :: fs) (hpc : pc = .top ∨ pc = .before)
      (hs : ¬ m.loop.stop = true) :
      Transition A poll m .go
        { m with frames := newProcess flags :: .loopyDo flags .process :: fs }
  | exit {flags : LoopyEvents} {fs : List Frame} (hf : m.frames = .loopyDo flags .exit :: fs)
      (hp : m.loop.pendingDelete = false) : Transition A poll m .go { m with frames := fs }
  | exitDelete {flags : LoopyEvents} {fs : List Frame}
      (hf : m.frames = .loopyDo flags .exit :: fs) (hp : m.loop.pendingDelete = true) :
      Transition A poll m .go ({ m with frames := fs } : Machine σ).loopyDeinit
  | started {p : Process} {fs : List Frame} {hasTimers : Bool} {pc : ProcessPc}
      (hf : m.frames = .process p :: fs) (hp : p.pc = .start)
      (hpc : pc = .polling ∨ pc = .timers) :
      Transition A poll m .go
        { m with
          loop := { m.loop with processingDepth := m.loop.processingDepth + 1 }
          frames := .process { p with hasTimers := hasTimers, pc := pc } :: fs }
  | polled {p : Process} {fs : List Frame} {shortest shortest' : ℕ} {answer : π} {s : σ}
      (hf : m.frames = .process p :: fs) (hp : p.pc = .polling) (hs : m.loop.state = some s) :
      Transition A poll m (.poll shortest answer)
        { m.emit (.polled (poll answer m.loop.setSize s).1) with
          loop :=
            { m.loop with
              state := some (poll answer m.loop.setSize s).2
              fired := writeFired m.loop.fired (poll answer m.loop.setSize s).1 }
          frames := .process (p.polled shortest' (m.events.length + 1)
            (poll answer m.loop.setSize s).1) :: fs }
  | pollFault {p : Process} {fs : List Frame} {shortest : ℕ} {answer : π}
      (hf : m.frames = .process p :: fs) (hp : p.pc = .polling) (hs : m.loop.state = none) :
      Transition A poll m (.poll shortest answer) (m.emit (.polled [])).fault
  | fetch {p : Process} {fs : List Frame} {j : ℕ} (hf : m.frames = .process p :: fs)
      (hp : p.pc = .entry j) (hj : j < p.numevents) (hptr : m.loop.eventsPtr.isSome) :
      Transition A poll m .go
        { m with
          frames := .process
            { p with
              pc := .testRead
                ⟨j, (m.loop.fired j).fd, (m.loop.fired j).mask, m.loop.eventsPtr⟩ } :: fs }
  | fetchFault {p : Process} {fs : List Frame} {j : ℕ} (hf : m.frames = .process p :: fs)
      (hp : p.pc = .entry j) (hj : j < p.numevents)
      (hbad : m.loop.eventsPtr = none ∨ m.loop.setSize ≤ j) :
      Transition A poll m .go m.fault
  | dispatched {p : Process} {fs : List Frame} {j : ℕ} (hf : m.frames = .process p :: fs)
      (hp : p.pc = .entry j) (hj : p.numevents ≤ j) :
      Transition A poll m .go
        (({ m with frames := .process { p with pc := .timers } :: fs } : Machine σ).emit
          (.dispatched p.dispatch))
  | dirFault {p : Process} {fs : List Frame} {e : Entry} {dir : Dir} {returned skipped : ProcessPc}
      (hf : m.frames = .process p :: fs) (hp : DirPc m.loop e p.pc dir returned skipped)
      (hbad : ¬ readable m.loop e) : Transition A poll m .go m.fault
  | dirInvoked {p : Process} {fs : List Frame} {e : Entry} {dir : Dir}
      {returned skipped : ProcessPc} (hf : m.frames = .process p :: fs)
      (hp : DirPc m.loop e p.pc dir returned skipped) (hr : readable m.loop e)
      (hi : (turnOf m e dir).invoked = true) :
      Transition A poll m .go
        (m.invoke (.file e.fd dir) ((m.loop.events e.fd).callback dir)
          (m.loop.events e.fd).clientData
          (.process (p.turned returned (turnOf m e dir)) :: fs))
  | dirSkipped {p : Process} {fs : List Frame} {e : Entry} {dir : Dir}
      {returned skipped : ProcessPc} (hf : m.frames = .process p :: fs)
      (hp : DirPc m.loop e p.pc dir returned skipped) (hr : readable m.loop e)
      (hi : ¬ (turnOf m e dir).invoked = true) :
      Transition A poll m .go
        { m with frames := .process (p.turned skipped (turnOf m e dir)) :: fs }
  | readReturned {p : Process} {fs : List Frame} {e : Entry} {eventsBefore : Option ℕ}
      (hf : m.frames = .process p :: fs) (hp : p.pc = .readReturned e eventsBefore) :
      Transition A poll m .go
        { m with
          frames := .process
            { p with
              pc := .testWrite
                (if m.loop.eventsPtr ≠ eventsBefore then { e with fe := m.loop.eventsPtr }
                  else e) } :: fs }
  | timers {p : Process} {fs : List Frame} {pc : ProcessPc} {i : Input ε π}
      (hf : m.frames = .process p :: fs) (hp : p.pc = .timers ∨ p.pc = .wheel)
      (hpc : pc = .wheel ∨ pc = .finish) :
      Transition A poll m i { m with frames := .process { p with pc := pc } :: fs }
  | fire {p : Process} {fs : List Frame} (hf : m.frames = .process p :: fs)
      (hp : p.pc = .wheel) :
      Transition A poll m .fire (m.invoke .timer 0 0 (.process p :: fs))
  | leave {p : Process} {fs : List Frame} {i : Input ε π} (hf : m.frames = .process p :: fs)
      (hp : p.pc = .finish ∨ p.pc = .wheel) :
      Transition A poll m i
        { m with
          loop := { m.loop with processingDepth := m.loop.processingDepth - 1 }
          frames := fs }
  | freed {i : Input ε π} (hfreed : m.freed = true) : Transition A poll m i m.fault

section

variable {A : Adapter σ ε} {poll : π → ℕ → σ → List LoopyFiredEvent × σ} {m m' : Machine σ}

/-- A call of user code is one of the transitions. -/
theorem userCall_inv {c : Call} {env : Env ε} (hu : m.UserRuns)
    (h : m.userCall A c env = some m') : Transition A poll m (.call c env) m' := by
  cases c with
  | table c =>
    obtain ⟨⟨b, l⟩, hperf, hrest⟩ := Option.bind_eq_some_iff.mp h
    cases hrest
    exact .table hu (perform_inv hperf)
  | stop =>
    cases h
    exact .control hu (by simp) (by simp) ⟨true, _, _, _, fun _ => rfl, rfl⟩
  | delete =>
    cases h
    unfold loopyDelete
    split
    · rename_i hnull; exact .deleteNone hu hnull
    · rename_i hlive
      split
      · rename_i hd; exact .deletePending hu hd
      · rename_i hd; exact .deleteNow hu hlive hd
  | main flags => cases h; exact .main hu
  | setBeforeSleepCallback cb clientData =>
    cases h
    exact .control hu (by simp) (by simp) ⟨_, ⟨cb, clientData⟩, _, _, id, rfl⟩
  | setAfterSleepCallback cb clientData =>
    cases h
    exact .control hu (by simp) (by simp) ⟨_, _, ⟨cb, clientData⟩, _, id, rfl⟩
  | registerTimer =>
    cases h
    exact .control hu (by simp) (by simp) ⟨_, _, _, true, id, rfl⟩

variable {fs : List Frame} {i : Input ε π}

/-- So is a step of `loopyDo`. -/
theorem doStep_inv {flags : LoopyEvents} {pc : DoPc} (hf : m.frames = .loopyDo flags pc :: fs) :
    Transition A poll m .go (m.doStep flags pc fs) := by
  cases pc with
  | enter => exact .enter hf
  | top =>
    simp only [doStep]
    split
    · rename_i hs; exact .jump hf (.topExit hs)
    · rename_i hs
      split
      · exact .beforeSleep hf hs
      · exact .process hf (Or.inl rfl) hs
  | before =>
    simp only [doStep]
    split
    · rename_i hs; exact .jump hf (.beforeExit hs)
    · rename_i hs; exact .process hf (Or.inr rfl) fun hstop => hs (Or.inl hstop)
  | process =>
    simp only [doStep]
    split
    · rename_i hd; exact .jump hf (.processExit hd)
    · rename_i hd
      split
      · rename_i ha; exact .afterSleep hf ha.2
      · exact .jump hf (.processTop hd)
  | after =>
    simp only [doStep]
    split
    · rename_i hd; exact .jump hf (.afterExit hd)
    · rename_i hd; exact .jump hf (.afterTop hd)
  | exit =>
    simp only [doStep]
    split
    · rename_i hp; exact .exitDelete hf hp
    · rename_i hp; exact .exit hf (by simpa using hp)

/-- So is the call of a callback, or its omission. -/
theorem dispatchDir_inv {p : Process} {e : Entry} {dir : Dir} {returned skipped : ProcessPc}
    (hf : m.frames = .process p :: fs) (hp : DirPc m.loop e p.pc dir returned skipped) :
    Transition A poll m .go (m.dispatchDir p e dir returned skipped fs) := by
  unfold dispatchDir
  split
  · rename_i hbad; exact .dirFault hf hp hbad
  · rename_i hr
    dsimp only
    split
    · rename_i hi; exact .dirInvoked hf hp (not_not.mp hr) hi
    · rename_i hi; exact .dirSkipped hf hp (not_not.mp hr) hi

/-- So is a step of the dispatch of a batch. -/
theorem processStep_inv {p : Process} (hf : m.frames = .process p :: fs)
    (h : m.processStep poll p fs i = some m') : Transition A poll m i m' := by
  unfold processStep at h
  dsimp only at h
  split at h
  · rename_i hp
    cases h
    refine .started hf hp ?_
    split
    · exact Or.inl rfl
    · exact Or.inr rfl
  · rename_i hp
    split at h
    · rename_i hs; cases h; exact .pollFault hf hp hs
    · rename_i s hs; cases h; exact .polled hf hp hs
  · rename_i j hp
    split at h
    · rename_i hj
      split at h
      · rename_i hbad
        cases h
        exact .fetchFault hf hp hj (by simpa using hbad)
      · rename_i hok
        cases h
        simp only [not_or, not_not, Bool.not_eq_true, Option.isNone_eq_false_iff] at hok
        exact .fetch hf hp hj hok.1
    · rename_i hj
      cases h
      exact .dispatched hf hp (not_lt.mp hj)
  · rename_i e hp
    cases h
    exact dispatchDir_inv hf (hp ▸ .read)
  · rename_i e eventsBefore hp
    cases h
    exact .readReturned hf hp
  · rename_i e hp
    cases h
    exact dispatchDir_inv hf (hp ▸ .write)
  · rename_i hp
    cases h
    refine .timers hf (Or.inl hp) ?_
    split
    · exact Or.inl rfl
    · exact Or.inr rfl
  · rename_i hp; cases h; exact .fire hf hp
  · rename_i hp
    split at h
    · cases h; exact .leave hf (Or.inr hp)
    · cases h; exact .timers hf (Or.inr hp) (Or.inr rfl)
  · rename_i hp; cases h; exact .leave hf (Or.inl hp)
  · cases h

/-- Nothing follows a crash. -/
theorem not_crashed (h : step A poll m i = some m') : m.crashed = false := by
  unfold step at h
  split at h
  · cases h
  · rename_i hc; simpa using hc

/-- Every step is one of the transitions. -/
theorem step_inv (h : step A poll m i = some m') : Transition A poll m i m' := by
  have hguard : ∀ r : Option (Machine σ), m.guarded r = some m' →
      (r = some m' → Transition A poll m i m') → Transition A poll m i m' := by
    intro r hr hstep
    unfold guarded at hr
    split at hr
    · rename_i hfreed; cases hr; exact .freed hfreed
    · exact hstep hr
  unfold step at h
  split at h
  · cases h
  · split at h
    · rename_i hf; exact hguard _ h (userCall_inv (Or.inl hf))
    · rename_i hf; exact hguard _ h (userCall_inv (Or.inr ⟨_, _, hf⟩))
    · rename_i hf; cases h; exact .ret hf
    · rename_i hf
      refine hguard _ h fun hs => ?_
      cases hs
      exact doStep_inv hf
    · rename_i hf; exact hguard _ h (processStep_inv hf)
    · cases h

end

end Machine

/-! ## Invariants of the activations on the stack -/

/-- The points at which `loopyProcessEvents` waits for a callback. -/
def ProcessPc.Suspended : ProcessPc → Prop
  | .entry _ | .readReturned _ _ | .wheel => True
  | _ => False

/-- `P` of an activation of `loopyProcessEvents`. -/
def Frame.Sat (P : Process → Prop) : Frame → Prop
  | .process p => P p
  | _ => True

/-- `P` of an activation that waits for the one above it. -/
def Frame.Waits (P : Process → Prop) : Frame → Prop
  | .process p => P p ∧ p.pc.Suspended
  | _ => True

/-- `P` of every activation; the innermost one is anywhere, the others wait. -/
def StackSat (P : Process → Prop) : List Frame → Prop
  | [] => True
  | f :: fs => f.Sat P ∧ ∀ g ∈ fs, g.Waits P

section

variable {P Q : Process → Prop}

/-- A frame that waits meets what it waits with. -/
theorem Frame.Waits.sat {f : Frame} (h : f.Waits P) : f.Sat P := by
  cases f with
  | process p => exact h.1
  | _ => exact h

/-- What is weaker holds of it too. -/
theorem Frame.Waits.mono {f : Frame} (h : f.Waits P)
    (hPQ : ∀ p, f = .process p → P p → p.pc.Suspended → Q p) : f.Waits Q := by
  cases f with
  | process p => exact ⟨hPQ p rfl h.1 h.2, h.2⟩
  | _ => exact h

namespace StackSat

variable {fs : List Frame}

/-- Every frame of the stack meets the predicate. -/
theorem sat (h : StackSat P fs) {f : Frame} (hf : f ∈ fs) : f.Sat P := by
  cases fs with
  | nil => cases hf
  | cons g gs =>
    rcases List.mem_cons.mp hf with rfl | hf
    · exact h.1
    · exact (h.2 f hf).sat

/-- A stack whose frames all wait. -/
theorem of_waits (h : ∀ g ∈ fs, g.Waits P) : StackSat P fs := by
  cases fs with
  | nil => trivial
  | cons g gs =>
    exact ⟨(h g List.mem_cons_self).sat, fun k hk => h k (List.mem_cons_of_mem g hk)⟩

/-- The activation below the innermost one runs on. -/
theorem tail {f : Frame} (h : StackSat P (f :: fs)) : StackSat P fs := of_waits h.2

/-- The stack meets what is weaker. -/
theorem mono (h : StackSat P fs) (hPQ : ∀ p, P p → Q p) : StackSat Q fs := by
  cases fs with
  | nil => trivial
  | cons f fs =>
    refine ⟨?_, fun g hg => (h.2 g hg).mono fun p _ hp _ => hPQ p hp⟩
    cases f with
    | process p => exact hPQ p h.1
    | _ => trivial

variable {σ : Type} {m : Machine σ}

/-- While user code runs, every activation waits. -/
theorem waits (h : StackSat P m.frames) (hu : m.UserRuns) : ∀ g ∈ m.frames, g.Waits P := by
  intro g hg
  rcases hu with hf | ⟨callback, fs, hf⟩
  · rw [hf] at hg; cases hg
  · rw [hf] at h hg
    rcases List.mem_cons.mp hg with rfl | hg
    · trivial
    · exact h.2 g hg

/-- While user code runs, only suspended frames matter. -/
theorem userMono (h : StackSat P m.frames) (hu : m.UserRuns)
    (hPQ : ∀ p, P p → p.pc.Suspended → Q p) : StackSat Q m.frames := by
  rcases hu with hf | ⟨callback, fs, hf⟩
  · rw [hf]; trivial
  · rw [hf] at h ⊢
    exact ⟨trivial, fun g hg => (h.2 g hg).mono fun p _ hp hsusp => hPQ p hp hsusp⟩

end StackSat

end

end Loopy.EventLoop
