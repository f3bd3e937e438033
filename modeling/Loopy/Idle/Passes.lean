import Loopy.Idle.Calls
import Loopy.Lib.Loops

/-!
# The sleep callbacks

`idleBeforeSleepCallback` walks the prepare handles and then the idle handles,
`idleAfterSleepCallback` the check handles; both call the sleep callback that was there before. The
callbacks of the handles are user code, which makes any calls. A pass keeps two pointers across
them: the next handle of the walk and the manager. `pass_safe` is what holds as long as no callback
takes one of them away, and no idle callback frees its own handle and asks to be stopped.
-/

namespace Loopy.Idle

open Loopy.Lib
open Function (update update_of_ne update_self)

/-! ## The pass -/

/-- The two sleep callbacks. -/
inductive Phase
  | before
  | after
deriving DecidableEq, Repr

/-- The lists that are walked, in their order. -/
def Phase.kinds : Phase → List Kind
  | before => [.prepare, .idle]
  | after => [.check]

/-- The sleep callback of a phase. -/
def Phase.callback : Phase → Sleep → SleepCallback
  | before => Sleep.before
  | after => Sleep.after

/-- `NULL`. -/
def SleepCallback.isNull : SleepCallback → Bool
  | other cb _ => cb = 0
  | _ => false

/-- An invoked callback; `held` tells whether the handle was there and active. -/
structure Call where
  kind : Kind
  handle : ℕ
  cb : ℕ
  userData : ℕ
  held : Bool
deriving DecidableEq, Repr

/-- A use of what is gone. -/
inductive Misuse
  | freedHandle (n : ℕ)
  | destroyedManager
deriving DecidableEq, Repr

/-- Where a pass is; `kinds` are the lists after the one that is walked. -/
inductive Pc
  /-- The manager is read, for the next list or for the sleep callback. -/
  | list (kinds : List Kind)
  | walk (k : Kind) (kinds : List Kind) (current : Option ℕ)
  | callback (k : Kind) (kinds : List Kind) (n : ℕ) (next : Option ℕ)
  /-- The sleep callback of other code runs. -/
  | orig
  | done
  | crashed
deriving DecidableEq, Repr

/-- One pass over the handles of a loop. `steady` are the handles that have been there and active
since it began. -/
structure Pass where
  system : System
  phase : Phase
  loop : ℕ
  mgr : ℕ
  pc : Pc
  calls : List Call
  origCalls : List SleepCallback
  steady : ℕ → Bool
  misuse : List Misuse

namespace Pass

/-- The handle exists and is active. -/
def held (s : System) (n : ℕ) : Bool := s.live n && (s.handle n).active

/-- A pass begins. -/
def start (s : System) (phase : Phase) (loop mgr : ℕ) : Pass where
  system := s
  phase := phase
  loop := loop
  mgr := mgr
  pc := .list phase.kinds
  calls := []
  origCalls := []
  steady := held s
  misuse := []

/-- A use of what is gone ends the pass. -/
def crash (p : Pass) (m : Misuse) : Pass := { p with misuse := p.misuse ++ [m], pc := .crashed }

/-- The system after a call. -/
def setSystem (p : Pass) (s : System) : Pass :=
  { p with system := s, steady := fun n => p.steady n && held s n }

/-- The sleep callback that the manager has saved. -/
def origCb (p : Pass) : SleepCallback := p.phase.callback (p.system.manager p.mgr).orig

/-- The code of the pass up to the next handle, list or callback. -/
def advance (p : Pass) : Option Pass :=
  match p.pc with
  | .list kinds =>
    if p.mgr ∈ p.system.managers then
      match kinds with
      | k :: kinds =>
        some { p with pc := .walk k kinds ((p.system.manager p.mgr).list k) }
      | [] =>
        if p.origCb.isNull then some { p with pc := .done }
        else some { p with origCalls := p.origCalls ++ [p.origCb], pc := .orig }
    else some (p.crash .destroyedManager)
  | .walk _ kinds none => some { p with pc := .list kinds }
  | .walk k kinds (some n) =>
    if p.system.live n then
      let h := p.system.handle n
      let next := p.system.next n
      if h.active ∧ h.cb ≠ 0 then
        some { p with
          calls := p.calls ++ [⟨k, n, h.cb, h.userData, held p.system n⟩]
          pc := .callback k kinds n next }
      else some { p with pc := .walk k kinds next }
    else some (p.crash (.freedHandle n))
  | _ => none

/-- A callback returns; an idle handle is stopped unless it returns `true`. -/
def ret (p : Pass) (continueRunning : Bool) (timerId : ℕ) : Option Pass :=
  match p.pc with
  | .callback k kinds n next =>
    if k = .idle ∧ continueRunning = false then
      if p.system.live n then
        if p.system.fresh (p.system.handle n).loop timerId then
          some { p.setSystem (p.system.loopyIdleStop n timerId) with pc := .walk k kinds next }
        else none
      else some (p.crash (.freedHandle n))
    else some { p with pc := .walk k kinds next }
  | .orig => some { p with pc := .done }
  | _ => none

/-- User code runs. -/
def userRuns (p : Pass) : Bool :=
  match p.pc with
  | .callback .. | .orig => true
  | _ => false

end Pass

/-- One step of a pass. -/
inductive PassAction
  | advance
  | call (a : Action)
  | ret (continueRunning : Bool) (timerId : ℕ)
deriving DecidableEq, Repr

namespace Pass

/-- One step; `none` is a step that is not possible. -/
def step (p : Pass) : PassAction → Option Pass
  | .advance => p.advance
  | .call a => if p.userRuns then (p.system.step a).map p.setSystem else none
  | .ret continueRunning timerId => p.ret continueRunning timerId

/-- The invocations for a handle. -/
def callsOf (p : Pass) (n : ℕ) : List Call := p.calls.filter fun c => c.handle = n

end Pass

/-! ## The law -/

/-- What a pass does, begun in `s₀`: nothing that is gone is used; the callback of a handle that is
stopped or freed is not invoked; every handle that stays active has its callback invoked once; and
so has the sleep callback of other code. -/
structure PassLaw (s₀ : System) (p : Pass) : Prop where
  misuse : p.misuse = []
  held : ∀ c ∈ p.calls, c.held = true
  once : p.pc = .done → ∀ k ∈ p.phase.kinds, ∀ n ∈ s₀.handles p.loop k, p.steady n = true →
    (p.callsOf n).length = 1
  orig : p.pc = .done → p.origCalls =
    if (p.phase.callback (s₀.installed p.loop)).isNull then []
    else [p.phase.callback (s₀.installed p.loop)]

/-- A callback may free `n`: that is not the handle after its own, nor the last one of the loop. -/
def MayFree (p : Pass) (n : ℕ) : Pc → Prop
  | .callback _ _ _ next =>
    next ≠ some n ∧
      ∃ m < p.system.allocated, m ≠ n ∧ p.system.live m = true ∧ (p.system.handle m).loop = p.loop
  | _ => True

/-- An idle callback that has freed its own handle returns `true`. -/
def MayReturn (p : Pass) (continueRunning : Bool) : Pc → Prop
  | .callback .idle _ n _ => continueRunning = true ∨ p.system.live n = true
  | _ => True

/-- The condition on a step: callbacks leave alone what the pass goes on with. -/
def Spared (p : Pass) : PassAction → Prop
  | .call (.free _ n _) => MayFree p n p.pc
  | .ret continueRunning _ => MayReturn p continueRunning p.pc
  | _ => True

instance (p : Pass) (n : ℕ) : ∀ pc, Decidable (MayFree p n pc)
  | .callback .. => inferInstanceAs (Decidable (_ ∧ _))
  | .list _ | .walk .. | .orig | .done | .crashed => inferInstanceAs (Decidable True)

instance (p : Pass) (continueRunning : Bool) : ∀ pc, Decidable (MayReturn p continueRunning pc)
  | .callback .idle .. => inferInstanceAs (Decidable (_ ∨ _))
  | .callback .prepare .. | .callback .check .. => inferInstanceAs (Decidable True)
  | .list _ | .walk .. | .orig | .done | .crashed => inferInstanceAs (Decidable True)

instance (p : Pass) : ∀ a, Decidable (Spared p a)
  | .call (.free _ n _) => inferInstanceAs (Decidable (MayFree p n p.pc))
  | .ret continueRunning _ => inferInstanceAs (Decidable (MayReturn p continueRunning p.pc))
  | .advance | .call (.start ..) | .call (.stop ..) | .call (.restart ..)
  | .call (.setBeforeSleep ..) | .call (.setAfterSleep ..) => inferInstanceAs (Decidable True)

/-! ## The invariant -/

/-- While the lists of `kinds` are ahead and those of `current` are walked. -/
structure Underway (s₀ : System) (p : Pass) (todo visited : Kind → List ℕ)
    (current kinds : List Kind) : Prop where
  nodup : (current ++ kinds).Nodup
  ahead : ∀ k ∈ kinds, todo k = p.system.handles p.loop k ∧ visited k = []
  past : ∀ k ∈ p.phase.kinds, k ∉ current ++ kinds → todo k = []
  manager : p.system.idleGetManager p.loop = some p.mgr
  installed : p.system.installed p.loop = s₀.installed p.loop
  orig : p.origCalls = []

/-- The pass is where the tours of the lists are. -/
def Position (s₀ : System) (p : Pass) (todo visited : Kind → List ℕ) : Prop :=
  match p.pc with
  | .list kinds => Underway s₀ p todo visited [] kinds
  | .walk k kinds current =>
    current = (todo k).head? ∧ Underway s₀ p todo visited [k] kinds
  | .callback k kinds n next =>
    n ∈ visited k ∧ next = (todo k).head? ∧ Underway s₀ p todo visited [k] kinds
  | .orig =>
    (∀ k ∈ p.phase.kinds, todo k = []) ∧
      (p.phase.callback (s₀.installed p.loop)).isNull = false ∧
      p.origCalls = [p.phase.callback (s₀.installed p.loop)]
  | .done =>
    (∀ k ∈ p.phase.kinds, todo k = []) ∧ p.origCalls =
      if (p.phase.callback (s₀.installed p.loop)).isNull then []
      else [p.phase.callback (s₀.installed p.loop)]
  | .crashed => False

/-- What holds between the steps of a pass; `visited` are the handles that were passed. -/
structure PassInv (s₀ : System) (p : Pass) (todo visited : Kind → List ℕ) : Prop where
  inv : IdleInv p.system
  cbs : ∀ n < p.system.allocated, (p.system.handle n).cb ≠ 0
  allocated : s₀.allocated ≤ p.system.allocated
  same : ∀ n < s₀.allocated, (p.system.handle n).loop = (s₀.handle n).loop ∧
    (p.system.handle n).kind = (s₀.handle n).kind
  tour : ∀ k, Tour (s₀.handles p.loop k) (p.system.handles p.loop k) (todo k) (visited k)
  passed : ∀ k, ∀ n ∈ visited k, n < p.system.allocated ∧ (p.system.handle n).kind = k
  steady : ∀ n, p.steady n = true → Pass.held p.system n = true
  misuse : p.misuse = []
  held : ∀ c ∈ p.calls, c.held = true
  called : ∀ k, ∀ n ∈ visited k, p.steady n = true → (p.callsOf n).length = 1
  uncalled : ∀ n, (∀ k, n ∉ visited k) → p.callsOf n = []
  position : Position s₀ p todo visited

namespace PassInv

variable {s₀ t : System} {p q : Pass} {todo visited : Kind → List ℕ} {k : Kind} {kinds : List Kind}
  {n : ℕ} {next : Option ℕ} {phase : Phase} {loop mgr : ℕ}

theorem start (h : IdleInv s₀) (hcbs : ∀ n < s₀.allocated, (s₀.handle n).cb ≠ 0)
    (hmgr : s₀.idleGetManager loop = some mgr) :
    PassInv s₀ (.start s₀ phase loop mgr) (s₀.handles loop) fun _ => [] where
  inv := h
  cbs := hcbs
  allocated := Nat.le_refl _
  same _ _ := ⟨rfl, rfl⟩
  tour k := .init _ (s₀.nodup_handles loop k)
  passed k n hn := absurd hn List.not_mem_nil
  steady _ hn := hn
  misuse := rfl
  held c hc := absurd hc List.not_mem_nil
  called k n hn := absurd hn List.not_mem_nil
  uncalled _ _ := rfl
  position :=
    { nodup := by cases phase <;> decide
      ahead := fun _ _ => ⟨rfl, rfl⟩
      past := fun k hk hnot => absurd hk hnot
      manager := hmgr
      installed := rfl
      orig := rfl }

/-- What the law asks for. -/
theorem law (h : PassInv s₀ p todo visited) : PassLaw s₀ p where
  misuse := h.misuse
  held := h.held
  once hdone k hk n hn hsteady := by
    have hposition := h.position
    unfold Position at hposition
    rw [hdone] at hposition
    have hheld := h.steady n hsteady
    unfold Pass.held at hheld
    rw [Bool.and_eq_true] at hheld
    -- a handle that stays is in the list, and nothing of the list is ahead
    have hmem : n ∈ p.system.handles p.loop k := by
      obtain ⟨hlt, -, hloop, hkind⟩ := System.mem_handles.mp hn
      obtain ⟨hloop', hkind'⟩ := h.same n hlt
      have := h.allocated
      exact System.mem_handles.mpr ⟨by omega, hheld.1, hloop'.trans hloop, hkind'.trans hkind⟩
    rcases (h.tour k).all n hn hmem with hv | ht
    · exact h.called k n hv hsteady
    · rw [hposition.1 k hk] at ht
      cases ht
  orig hdone := by
    have hposition := h.position
    unfold Position at hposition
    rw [hdone] at hposition
    exact hposition.2

/-! ## Calls -/

/-- What is ahead after a call. -/
def aheadAfter (t : System) (loop : ℕ) (kinds : List Kind) (todo : Kind → List ℕ) (a : Action)
    (k : Kind) : List ℕ :=
  if k ∈ kinds then t.handles loop k
  else match a with
    | .free _ n _ => (todo k).erase n
    | _ => todo k

variable {a : Action}

/-- The tours go on while lists change. -/
theorem tour_call (h : PassInv s₀ p todo visited) (hlists : ListsAfter p.system t a)
    (hempty : ∀ k ∈ kinds, visited k = []) (k : Kind) :
    Tour (s₀.handles p.loop k) (t.handles p.loop k) (aheadAfter t p.loop kinds todo a k)
      (visited k) := by
  unfold aheadAfter
  by_cases hk : k ∈ kinds
  · rw [if_pos hk, hempty k hk]
    exact .init _ (t.nodup_handles p.loop k)
  rw [if_neg hk]
  have hpush : t.handles p.loop k = p.system.handles p.loop k ∨
      t.handles p.loop k = p.system.allocated :: p.system.handles p.loop k →
      Tour (s₀.handles p.loop k) (t.handles p.loop k) (todo k) (visited k) := by
    rintro (hsame | hnew)
    · rw [hsame]
      exact h.tour k
    · rw [hnew]
      refine (h.tour k).push (fun hmem => ?_) fun hmem => ?_
      · exact Nat.lt_irrefl _ (System.mem_handles.mp hmem).1
      · have hlt := (System.mem_handles.mp hmem).1
        have := h.allocated
        omega
  cases a with
  | free k' n timerId =>
    dsimp only
    rw [hlists p.loop k]
    exact (h.tour k).erase n
  | start k' loop cb userData timerId => exact hpush (hlists p.loop k)
  | stop k' n timerId => exact hpush (hlists p.loop k)
  | restart k' n timerId => exact hpush (hlists p.loop k)
  | setBeforeSleep loop cb data => exact hpush (hlists p.loop k)
  | setAfterSleep loop cb data => exact hpush (hlists p.loop k)

/-- A call keeps everything but the position. -/
theorem call (h : PassInv s₀ p todo visited) (hstep : p.system.step a = some t)
    (hempty : ∀ k ∈ kinds, visited k = [])
    (hposition : Position s₀ (p.setSystem t) (aheadAfter t p.loop kinds todo a) visited) :
    PassInv s₀ (p.setSystem t) (aheadAfter t p.loop kinds todo a) visited := by
  obtain ⟨hframe, hlists⟩ := Frame.of_step hstep
  have hallocated := hframe.allocated
  have hhandle : ∀ n < p.system.allocated, (t.handle n).loop = (p.system.handle n).loop ∧
      (t.handle n).kind = (p.system.handle n).kind ∧ (t.handle n).cb = (p.system.handle n).cb := by
    intro n hn
    rw [hframe.handle n hn]
    exact ⟨rfl, rfl, rfl⟩
  refine ⟨h.inv.step hstep, fun n hn => ?_, Nat.le_trans h.allocated hallocated, fun n hn => ?_,
    h.tour_call hlists hempty, fun k n hn => ?_, fun n hn => ?_, h.misuse, h.held,
    fun k n hn hsteady => ?_, h.uncalled, hposition⟩
  · have hn : n < t.allocated := hn
    show (t.handle n).cb ≠ 0
    by_cases hold : n < p.system.allocated
    · rw [(hhandle n hold).2.2]
      exact h.cbs n hold
    · exact hframe.fresh n (by omega) hn
  · have hold : n < p.system.allocated := Nat.lt_of_lt_of_le hn h.allocated
    obtain ⟨hloop, hkind, -⟩ := hhandle n hold
    obtain ⟨hloop', hkind'⟩ := h.same n hn
    exact ⟨hloop.trans hloop', hkind.trans hkind'⟩
  · obtain ⟨hlt, hkind⟩ := h.passed k n hn
    exact ⟨Nat.lt_of_lt_of_le hlt hallocated, (hhandle n hlt).2.1.trans hkind⟩
  · exact (Bool.and_eq_true _ _ ▸ hn : _ ∧ _).2
  · exact h.called k n hn (Bool.and_eq_true _ _ ▸ hsteady : _ ∧ _).1

theorem aheadAfter_nil (hk : k ∉ kinds) (hnil : todo k = []) :
    aheadAfter t loop kinds todo a k = [] := by
  unfold aheadAfter
  rw [if_neg hk]
  cases a with
  | free k' n timerId =>
    dsimp only
    rw [hnil]
    rfl
  | start | stop | restart | setBeforeSleep | setAfterSleep => exact hnil

/-- A loop keeps a handle, unless its last one is freed. -/
theorem exists_handle (h : IdleInv p.system) (hmgr : p.system.idleGetManager p.loop = some p.mgr)
    (hpc : p.pc = .callback k kinds n next) (hok : Spared p (.call a))
    (hlists : ListsAfter p.system t a) : ∃ k', ∃ m, m ∈ t.handles p.loop k' := by
  have hkeep : (∀ k', t.handles p.loop k' = p.system.handles p.loop k' ∨
      t.handles p.loop k' = p.system.allocated :: p.system.handles p.loop k') →
      ∃ k', ∃ m, m ∈ t.handles p.loop k' := by
    intro hpush
    obtain ⟨k', hk'⟩ := (h.loops p.loop).some p.mgr hmgr
    obtain ⟨m, hm⟩ := List.exists_mem_of_ne_nil _ hk'
    refine ⟨k', m, ?_⟩
    rcases hpush k' with heq | heq
    · rw [heq]
      exact hm
    · rw [heq]
      exact List.mem_cons_of_mem _ hm
  cases a with
  | free k' m timerId =>
    unfold Spared at hok
    dsimp only at hok
    rw [hpc] at hok
    obtain ⟨-, m', hlt, hne, hlive, hloop⟩ := hok
    refine ⟨(p.system.handle m').kind, m', ?_⟩
    rw [hlists p.loop _]
    exact (List.mem_erase_of_ne hne).mpr (System.mem_handles.mpr ⟨hlt, hlive, hloop, rfl⟩)
  | start | stop | restart | setBeforeSleep | setAfterSleep => exact hkeep (hlists p.loop)

/-- A callback of a handle makes a call. -/
theorem call_callback (h : PassInv s₀ p todo visited) (hpc : p.pc = .callback k kinds n next)
    (hok : Spared p (.call a)) (hstep : p.system.step a = some t) :
    PassInv s₀ (p.setSystem t) (aheadAfter t p.loop kinds todo a) visited := by
  have hposition := h.position
  unfold Position at hposition
  rw [hpc] at hposition
  obtain ⟨hvisited, hnext, hway⟩ := hposition
  obtain ⟨hframe, hlists⟩ := Frame.of_step hstep
  have hk : k ∉ kinds := (List.nodup_cons.mp hway.nodup).1
  have hpc' : (p.setSystem t).pc = .callback k kinds n next := hpc
  refine h.call hstep (fun k' hk' => (hway.ahead k' hk').2) ?_
  unfold Position
  rw [hpc']
  refine ⟨hvisited, ?_, hway.nodup, fun k' hk' => ⟨if_pos hk', (hway.ahead k' hk').2⟩,
    fun k' hk' hnot => ?_, ?_, ?_, hway.orig⟩
  · -- the next handle is still the next one
    unfold aheadAfter
    rw [if_neg hk]
    cases a with
    | free k' m timerId =>
      unfold Spared at hok
      dsimp only at hok
      rw [hpc] at hok
      dsimp only
      rw [Tour.head?_erase (by rw [← hnext]; exact hok.1)]
      exact hnext
    | start | stop | restart | setBeforeSleep | setAfterSleep => exact hnext
  · exact aheadAfter_nil (fun hmem => hnot (List.mem_cons_of_mem k hmem)) (hway.past k' hk' hnot)
  · obtain ⟨k', m, hm⟩ := exists_handle h.inv hway.manager hpc hok hlists
    exact hframe.keeps_manager h.inv (h.inv.step hstep) hway.manager hm
  · refine (hframe.installed p.loop ?_).trans hway.installed
    rw [hway.manager]
    exact Option.some_ne_none _

/-- The sleep callback of other code makes a call. -/
theorem call_orig (h : PassInv s₀ p todo visited) (hpc : p.pc = .orig)
    (hstep : p.system.step a = some t) :
    PassInv s₀ (p.setSystem t) (aheadAfter t p.loop [] todo a) visited := by
  have hposition := h.position
  unfold Position at hposition
  rw [hpc] at hposition
  have hpc' : (p.setSystem t).pc = .orig := hpc
  refine h.call hstep (fun _ hk => absurd hk List.not_mem_nil) ?_
  unfold Position
  rw [hpc']
  exact ⟨fun k hk => aheadAfter_nil List.not_mem_nil (hposition.1 k hk), hposition.2⟩

/-! ## The code of the pass -/

/-- The pass is somewhere else, and nothing has happened. -/
theorem move (h : PassInv s₀ p todo visited) {pc : Pc} {origCalls : List SleepCallback}
    (hposition : Position s₀ { p with pc := pc, origCalls := origCalls } todo visited) :
    PassInv s₀ { p with pc := pc, origCalls := origCalls } todo visited :=
  ⟨h.inv, h.cbs, h.allocated, h.same, h.tour, h.passed, h.steady, h.misuse, h.held, h.called,
    h.uncalled, hposition⟩

/-- A handle of the walk: it is there, and its link leads to the next one. -/
theorem walked (h : PassInv s₀ p todo visited)
    (hmgr : p.system.idleGetManager p.loop = some p.mgr) {rest : List ℕ} (htodo : todo k = n :: rest) :
    n ∈ p.system.handles p.loop k ∧ p.system.next n = rest.head? := by
  obtain ⟨l₁, hl⟩ := (h.tour k).suffix
  rw [htodo] at hl
  have hlist := ((h.inv.loops p.loop).kept p.mgr hmgr).list k
  rw [← hl] at hlist ⊢
  exact ⟨List.mem_append_right _ List.mem_cons_self, hlist.links.2⟩

/-- A handle is passed, and its callback is invoked or not. -/
theorem visit (h : PassInv s₀ p todo visited) {rest : List ℕ} (htodo : todo k = n :: rest)
    (hmem : n ∈ p.system.handles p.loop k) {pc : Pc} {calls : List Call}
    (hcalls : (calls = p.calls ∧ p.steady n = false) ∨
      ∃ c : Call, calls = p.calls ++ [c] ∧ c.handle = n ∧ c.held = true)
    (hposition : Position s₀ { p with calls := calls, pc := pc } (update todo k rest)
      (update visited k (visited k ++ [n]))) :
    PassInv s₀ { p with calls := calls, pc := pc } (update todo k rest)
      (update visited k (visited k ++ [n])) := by
  have htour := h.tour k
  rw [htodo] at htour
  obtain ⟨hlt, -, -, hkind⟩ := System.mem_handles.mp hmem
  -- the handle has not been passed, in this list or in another one
  have hnew : ∀ k', n ∉ visited k' := by
    intro k' hmem'
    have hk' := (h.passed k' n hmem').2
    rw [hkind] at hk'
    subst hk'
    exact htour.apart n hmem' List.mem_cons_self
  have hvisited : ∀ k' m, m ∈ update visited k (visited k ++ [n]) k' ↔
      m ∈ visited k' ∨ k' = k ∧ m = n := by
    intro k' m
    by_cases hk' : k' = k
    · subst hk'
      rw [update_self, List.mem_append, List.mem_singleton]
      simp
    · rw [update_of_ne hk']
      simp [hk']
  have hother : ∀ m, m ≠ n → (Pass.callsOf { p with calls := calls, pc := pc } m) = p.callsOf m := by
    intro m hm
    rcases hcalls with ⟨rfl, -⟩ | ⟨c, rfl, hc, -⟩
    · rfl
    · show (p.calls ++ [c]).filter _ = p.calls.filter _
      rw [List.filter_append, List.filter_cons_of_neg (by simpa [hc] using Ne.symm hm),
        List.filter_nil, List.append_nil]
  refine ⟨h.inv, h.cbs, h.allocated, h.same, fun k' => ?_, fun k' m hm => ?_, h.steady, h.misuse, ?_,
    fun k' m hm hsteady => ?_, fun m hm => ?_, hposition⟩
  · by_cases hk' : k' = k
    · subst hk'
      rw [update_self, update_self]
      exact htour.visit
    · rw [update_of_ne hk', update_of_ne hk']
      exact h.tour k'
  · rcases (hvisited k' m).mp hm with hm | ⟨rfl, rfl⟩
    · exact h.passed k' m hm
    · exact ⟨hlt, hkind⟩
  · rcases hcalls with ⟨rfl, -⟩ | ⟨c, rfl, -, hheld⟩
    · exact h.held
    · intro c' hc'
      rcases List.mem_append.mp hc' with hc' | hc'
      · exact h.held c' hc'
      · rw [List.mem_singleton.mp hc']
        exact hheld
  · by_cases hmn : m = n
    · subst hmn
      rcases hcalls with ⟨-, hidle⟩ | ⟨c, rfl, hc, -⟩
      · rw [show p.steady m = true from hsteady] at hidle
        cases hidle
      · have hnone := h.uncalled m hnew
        unfold Pass.callsOf at hnone ⊢
        dsimp only
        rw [List.filter_append, hnone, List.filter_cons_of_pos (by simpa using hc)]
        rfl
    · rw [hother m hmn]
      refine h.called k' m ?_ hsteady
      exact ((hvisited k' m).mp hm).resolve_right fun hright => hmn hright.2
  · have hmn : m ≠ n := by
      rintro rfl
      exact hm k ((hvisited k m).mpr (.inr ⟨rfl, rfl⟩))
    rw [hother m hmn]
    exact h.uncalled m fun k' hk' => hm k' ((hvisited k' m).mpr (.inl hk'))

/-- The manager is there, and a step goes on to the next list or to the sleep callback. -/
theorem advance_list (h : PassInv s₀ p todo visited) (hpc : p.pc = .list kinds)
    (hstep : p.advance = some q) : PassInv s₀ q todo visited := by
  have hposition := h.position
  unfold Position at hposition
  rw [hpc] at hposition
  have hmem := (h.inv.registry.get_eq_some.mp hposition.manager).1
  have hkept := (h.inv.loops p.loop).kept p.mgr hposition.manager
  unfold Pass.advance at hstep
  rw [hpc] at hstep
  dsimp only at hstep
  rw [if_pos hmem] at hstep
  cases kinds with
  | cons k kinds =>
    cases hstep
    refine h.move ⟨?_, hposition.nodup, fun k' hk' => ?_, fun k' hk' hnot => ?_, hposition.manager,
      hposition.installed, hposition.orig⟩
    · rw [(hposition.ahead k List.mem_cons_self).1]
      exact (hkept.list k).head_eq
    · exact hposition.ahead k' (List.mem_cons_of_mem k hk')
    · exact hposition.past k' hk' hnot
  | nil =>
    have horig : p.origCb = p.phase.callback (s₀.installed p.loop) := by
      unfold Pass.origCb
      rw [hkept.orig, hposition.installed]
    have hpast : ∀ k ∈ p.phase.kinds, todo k = [] := fun k hk =>
      hposition.past k hk List.not_mem_nil
    dsimp only at hstep
    rw [horig] at hstep
    split at hstep
    next hnull =>
      cases hstep
      refine h.move ⟨hpast, ?_⟩
      rw [if_pos hnull]
      exact hposition.orig
    next hnull =>
      cases hstep
      refine h.move ⟨hpast, Bool.eq_false_iff.mpr hnull, ?_⟩
      rw [hposition.orig]
      rfl

/-- A handle of the walk is passed, or the walk ends. -/
theorem advance_walk (h : PassInv s₀ p todo visited) {current : Option ℕ}
    (hpc : p.pc = .walk k kinds current) (hstep : p.advance = some q) :
    ∃ todo' visited', PassInv s₀ q todo' visited' := by
  have hposition := h.position
  unfold Position at hposition
  rw [hpc] at hposition
  obtain ⟨hcurrent, hway⟩ := hposition
  obtain ⟨hk, hnodup⟩ := List.nodup_cons.mp hway.nodup
  unfold Pass.advance at hstep
  rw [hpc] at hstep
  cases htodo : todo k with
  | nil =>
    rw [htodo] at hcurrent
    subst hcurrent
    cases hstep
    refine ⟨todo, visited, h.move ⟨hnodup, hway.ahead, fun k' hk' hnot => ?_, hway.manager,
      hway.installed, hway.orig⟩⟩
    by_cases heq : k' = k
    · rw [heq]
      exact htodo
    · exact hway.past k' hk' fun hmem => (List.mem_cons.mp hmem).elim heq hnot
  | cons n rest =>
    rw [htodo] at hcurrent
    subst hcurrent
    obtain ⟨hmem, hnext⟩ := h.walked hway.manager htodo
    obtain ⟨hlt, hlive, -, -⟩ := System.mem_handles.mp hmem
    dsimp only [List.head?_cons] at hstep
    rw [if_pos hlive, hnext] at hstep
    -- the tours of the other lists stay
    have hway' : ∀ (pc : Pc) (calls : List Call),
        Underway s₀ { p with calls := calls, pc := pc } (update todo k rest)
          (update visited k (visited k ++ [n])) [k] kinds := by
      intro pc calls
      refine ⟨hway.nodup, fun k' hk' => ?_, fun k' hk' hnot => ?_, hway.manager, hway.installed,
        hway.orig⟩
      · have hne : k' ≠ k := by
          rintro rfl
          exact hk hk'
        rw [update_of_ne hne, update_of_ne hne]
        exact hway.ahead k' hk'
      · have hne : k' ≠ k := by
          rintro rfl
          exact hnot List.mem_cons_self
        rw [update_of_ne hne]
        exact hway.past k' hk' hnot
    have hhead : rest.head? = (update todo k rest k).head? := by
      rw [update_self]
    split at hstep
    next hactive =>
      cases hstep
      refine ⟨_, _, h.visit htodo hmem (.inr ⟨_, rfl, rfl, ?_⟩) ⟨?_, hhead, hway' _ _⟩⟩
      · unfold Pass.held
        rw [hlive, hactive.1]
        rfl
      · rw [update_self]
        exact List.mem_append_right _ List.mem_cons_self
    next hidle =>
      cases hstep
      refine ⟨_, _, h.visit htodo hmem (.inl ⟨rfl, ?_⟩) ⟨hhead, hway' _ _⟩⟩
      -- it has a callback, so it is not active
      rw [Bool.eq_false_iff]
      intro hsteady
      have hheld := h.steady n hsteady
      unfold Pass.held at hheld
      rw [Bool.and_eq_true] at hheld
      exact hidle ⟨hheld.2, h.cbs n hlt⟩

/-- The walk goes on after a callback. -/
theorem resume (h : PassInv s₀ p todo visited) (hpc : p.pc = .callback k kinds n next) :
    PassInv s₀ { p with pc := .walk k kinds next } todo visited := by
  have hposition := h.position
  unfold Position at hposition
  rw [hpc] at hposition
  obtain ⟨-, hnext, hway⟩ := hposition
  exact h.move ⟨hnext, hway.nodup, hway.ahead, hway.past, hway.manager, hway.installed, hway.orig⟩

/-- A callback returns. -/
theorem ret (h : PassInv s₀ p todo visited) {continueRunning : Bool} {timerId : ℕ}
    (hok : Spared p (.ret continueRunning timerId)) (hstep : p.ret continueRunning timerId = some q) :
    ∃ todo' visited', PassInv s₀ q todo' visited' := by
  unfold Pass.ret at hstep
  unfold Spared at hok
  dsimp only at hok
  split at hstep
  next k kinds n next hpc =>
    rw [hpc] at hok
    split at hstep
    next hstop =>
      obtain ⟨rfl, hfalse⟩ := hstop
      have hok : continueRunning = true ∨ p.system.live n = true := hok
      have hlive : p.system.live n = true := by
        refine hok.resolve_left ?_
        rw [hfalse]
        exact Bool.false_ne_true
      rw [if_pos hlive] at hstep
      split at hstep
      next hfresh =>
        cases hstep
        have hposition := h.position
        unfold Position at hposition
        rw [hpc] at hposition
        obtain ⟨hlt, hkind⟩ := h.passed .idle n hposition.1
        have hhas : p.system.has .idle n = true := by
          unfold System.has
          rw [hlive, hkind, decide_eq_true hlt]
          rfl
        have hcall : p.system.step (.stop .idle n timerId) =
            some (p.system.loopyIdleStop n timerId) := if_pos ⟨hhas, hfresh⟩
        exact ⟨_, _, (h.call_callback (a := .stop .idle n timerId) hpc trivial hcall).resume hpc⟩
      next => cases hstep
    next =>
      cases hstep
      exact ⟨_, _, h.resume hpc⟩
  next hpc =>
    cases hstep
    have hposition := h.position
    unfold Position at hposition
    rw [hpc] at hposition
    obtain ⟨hpast, hnull, horig⟩ := hposition
    refine ⟨todo, visited, h.move ⟨hpast, ?_⟩⟩
    rw [if_neg (by rw [hnull]; exact Bool.false_ne_true)]
    exact horig
  next => cases hstep

/-- **One step.** -/
theorem step (h : PassInv s₀ p todo visited) {a : PassAction} (hok : Spared p a)
    (hstep : p.step a = some q) : ∃ todo' visited', PassInv s₀ q todo' visited' := by
  cases a with
  | advance =>
    cases hpc : p.pc with
    | list kinds => exact ⟨todo, visited, h.advance_list hpc hstep⟩
    | walk k kinds current => exact h.advance_walk hpc hstep
    | callback | orig | done | crashed =>
      unfold Pass.step Pass.advance at hstep
      rw [hpc] at hstep
      cases hstep
  | call a =>
    unfold Pass.step at hstep
    dsimp only at hstep
    split at hstep
    next hruns =>
      obtain ⟨t, ht, rfl⟩ := Option.map_eq_some_iff.mp hstep
      cases hpc : p.pc with
      | callback k kinds n next => exact ⟨_, _, h.call_callback hpc hok ht⟩
      | orig => exact ⟨_, _, h.call_orig hpc ht⟩
      | list | walk | done | crashed =>
        unfold Pass.userRuns at hruns
        rw [hpc] at hruns
        cases hruns
    next => cases hstep
  | ret continueRunning timerId => exact h.ret hok hstep

end PassInv

/-- The handles of every state that calls reach have callbacks. -/
theorem callbacks_set {sleep : ℕ → Sleep} {as : List Action} {s : System}
    (h : Run System.step (fun _ _ => True) (.start sleep) as s) :
    IdleInv s ∧ ∀ n < s.allocated, (s.handle n).cb ≠ 0 := by
  refine h.invariant (P := fun s => IdleInv s ∧ ∀ n < s.allocated, (s.handle n).cb ≠ 0)
    (fun s a t hs _ hstep => ⟨hs.1.step hstep, fun n hn => ?_⟩) ⟨.start sleep, fun n hn => ?_⟩
  · have hframe := (Frame.of_step hstep).1
    by_cases hold : n < s.allocated
    · rw [hframe.handle n hold]
      exact hs.2 n hold
    · exact hframe.fresh n (by omega) hn
  · exact absurd hn (Nat.not_lt_zero n)

/-- **A pass is safe** as long as no callback frees the handle that comes next or the last one of
the loop, and no idle callback frees its own handle and asks to be stopped. -/
theorem pass_safe {sleep : ℕ → Sleep} {as : List Action} {s₀ : System} {phase : Phase}
    {loop mgr : ℕ} {is : List PassAction} {p : Pass}
    (h₀ : Run System.step (fun _ _ => True) (.start sleep) as s₀)
    (hmgr : s₀.idleGetManager loop = some mgr)
    (h : Run Pass.step Spared (.start s₀ phase loop mgr) is p) : PassLaw s₀ p := by
  obtain ⟨hinv, hcbs⟩ := callbacks_set h₀
  obtain ⟨todo, visited, hp⟩ := h.invariant
    (P := fun p => ∃ todo visited, PassInv s₀ p todo visited)
    (fun p a q hp hok hstep => by
      obtain ⟨todo, visited, hp⟩ := hp
      exact hp.step hok hstep)
    ⟨_, _, .start hinv hcbs hmgr⟩
  exact hp.law

/-- Two prepare handles and an idle handle, beside a sleep callback of other code. -/
def threeHandles : List Action :=
  [.setBeforeSleep 1 5 50, .start .prepare 1 7 70 9, .start .prepare 1 8 80 9,
    .start .idle 1 9 90 9]

/-- A prepare callback frees its own handle, and the idle callback asks to be stopped. -/
def freeOwn : List PassAction :=
  [.advance, .advance, .call (.free .prepare 1 4), .ret true 4, .advance, .ret true 4, .advance,
    .advance, .advance, .ret false 4, .advance, .advance, .ret true 4]

theorem pass_safe_freeOwn :
    ∃ s₀ p, Run System.step (fun _ _ => True) (.start fun _ => ⟨.other 0 0, .other 0 0⟩)
        threeHandles s₀ ∧
      Run Pass.step Spared (.start s₀ .before 1 0) freeOwn p ∧ PassLaw s₀ p ∧ p.pc = .done ∧
      p.calls.map Call.handle = [1, 0, 2] ∧ p.origCalls = [.other 5 50] := by
  have hexec : ((exec System.step (fun _ _ => True) (.start fun _ => ⟨.other 0 0, .other 0 0⟩)
      threeHandles).bind fun s => (exec Pass.step Spared (.start s .before 1 0) freeOwn).map
        fun p => (s.idleGetManager 1, p.pc, p.calls.map Call.handle, p.origCalls)) =
      some (some 0, .done, [1, 0, 2], [.other 5 50]) := by
    decide +kernel
  obtain ⟨s₀, hs₀, hexec⟩ := Option.bind_eq_some_iff.mp hexec
  have h₀ := Run.iff_exec.mpr hs₀
  obtain ⟨p, hp, hval⟩ := Run.of_exec_map hexec
  obtain ⟨hmgr, hval⟩ := Prod.mk.inj hval
  obtain ⟨hpc, hval⟩ := Prod.mk.inj hval
  obtain ⟨hcalls, horig⟩ := Prod.mk.inj hval
  exact ⟨s₀, p, h₀, hp, pass_safe h₀ hmgr hp, hpc, hcalls, horig⟩

/-- A prepare callback frees the handle after its own. -/
def freeNext : List PassAction :=
  [.advance, .advance, .call (.free .prepare 0 4), .ret true 4, .advance]

/-- The only handle frees itself, and the manager with it. -/
def freeOnly : List PassAction :=
  [.advance, .advance, .call (.free .check 0 4), .ret true 4, .advance, .advance]

theorem pass_not_safe :
    (¬ ∀ (sleep : ℕ → Sleep) as s₀ phase loop mgr is p,
      Run System.step (fun _ _ => True) (.start sleep) as s₀ →
      s₀.idleGetManager loop = some mgr →
      Run Pass.step (fun _ _ => True) (.start s₀ phase loop mgr) is p →
      ∀ n, .freedHandle n ∉ p.misuse) ∧
    ¬ ∀ (sleep : ℕ → Sleep) as s₀ phase loop mgr is p,
      Run System.step (fun _ _ => True) (.start sleep) as s₀ →
      s₀.idleGetManager loop = some mgr →
      Run Pass.step (fun _ _ => True) (.start s₀ phase loop mgr) is p →
      .destroyedManager ∉ p.misuse := by
  constructor
  · intro hall
    have hexec : ((exec System.step (fun _ _ => True) (.start fun _ => ⟨.other 0 0, .other 0 0⟩)
        threeHandles).bind fun s => (exec Pass.step (fun _ _ => True) (.start s .before 1 0)
          freeNext).map fun p => (s.idleGetManager 1, p.misuse)) =
        some (some 0, [.freedHandle 0]) := by
      decide +kernel
    obtain ⟨s₀, hs₀, hexec⟩ := Option.bind_eq_some_iff.mp hexec
    obtain ⟨p, hp, hval⟩ := Run.of_exec_map hexec
    obtain ⟨hmgr, hmisuse⟩ := Prod.mk.inj hval
    refine hall _ _ s₀ _ _ _ _ p (Run.iff_exec.mpr hs₀) hmgr hp 0 ?_
    rw [hmisuse]
    exact List.mem_singleton_self _
  · intro hall
    have hexec : ((exec System.step (fun _ _ => True) (.start fun _ => ⟨.other 0 0, .other 0 0⟩)
        [.start .check 1 7 70 9]).bind fun s => (exec Pass.step (fun _ _ => True)
          (.start s .after 1 0) freeOnly).map fun p => (s.idleGetManager 1, p.misuse)) =
        some (some 0, [.destroyedManager]) := by
      decide +kernel
    obtain ⟨s₀, hs₀, hexec⟩ := Option.bind_eq_some_iff.mp hexec
    obtain ⟨p, hp, hval⟩ := Run.of_exec_map hexec
    obtain ⟨hmgr, hmisuse⟩ := Prod.mk.inj hval
    refine hall _ _ s₀ _ _ _ _ p (Run.iff_exec.mpr hs₀) hmgr hp ?_
    rw [hmisuse]
    exact List.mem_singleton_self _

end Loopy.Idle
