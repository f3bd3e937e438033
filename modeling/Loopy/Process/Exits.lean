import Loopy.Process.Basic

/-!
# Every exit is reported once

The list of the manager holds the handles that have not been freed, the newest one first. A pid is
given to a new child only when the one that had it is reaped, so of the handles with one pid all
but the newest have exited: the search finds the handle of the child that was reaped, if that
handle is still there. `exits_reported` is what callers see of this.
-/

namespace Loopy.Process

open Loopy.Lib
open Function (update update_eq_self update_of_ne update_self)

namespace System

/-! ## The law -/

/-- The exit callback of a handle, for the status of a child. -/
def report (s : System) (n : ℕ) (status : WaitStatus) : List ExitCall :=
  if (s.process n).exitCb ≠ 0 then
    [⟨n, (s.process n).exitCb, status.exitStatus, status.termSignal, (s.process n).userData⟩]
  else []

/-- The exit callback that is due for a handle: the one of its own child, if that was reaped while
the handle existed. -/
def dueCalls (s : System) (n : ℕ) : List ExitCall :=
  match s.child n with
  | .reaped status true => s.report n status
  | _ => []

/-- `loopyProcessExited`. -/
def loopyProcessExited (s : System) (n : ℕ) : Bool := (s.process n).exited

end System

/-- Every exit is reported once, to the handle of the child; a handle has exited exactly if its
child was reaped; nothing that is gone is used. -/
structure ExitLaw (s : System) : Prop where
  calls : ∀ n, (s.calls.filter fun c => c.process = n) = s.dueCalls n
  exited : ∀ n < s.spawned, s.freed n = false → s.loopyProcessExited n = (s.child n).gone
  misuse : s.misuse = []

/-- The newest handle of the list with that pid has no exit callback. -/
def Unheard (s : System) (pid : ℕ) : Prop :=
  ∀ m ∈ s.listed, (s.process m).pid = pid →
    (∀ k ∈ s.listed, (s.process k).pid = pid → k ≤ m) → (s.process m).exitCb = 0

instance (s : System) (pid : ℕ) : Decidable (Unheard s pid) :=
  inferInstanceAs (Decidable (∀ m ∈ s.listed, _))

/-- The condition on a step: no exit callback frees the only handle, and no child without a handle
is reaped whose pid an exited handle with a callback still has. -/
def Admitted (s : System) : Action → Prop
  | .free n =>
    s.pc = .user ∨ (s.process n).next.isSome = true ∨ (s.process n).prev.isSome = true
  | .reap n => s.freed n = true → Unheard s (s.childPid n)
  | _ => True

instance (s : System) : ∀ a, Decidable (Admitted s a)
  | .free _ => inferInstanceAs (Decidable (_ ∨ _))
  | .reap _ => inferInstanceAs (Decidable (_ → _))
  | .spawn _ _ _ _ | .exit _ _ | .stopped | .dispatch | .read | .noChild | .ret =>
    inferInstanceAs (Decidable True)

/-! ## The handles -/

namespace System

variable {s : System} {n m : ℕ}

/-- The handles that have not been freed, the newest one first. -/
def handles (s : System) : List ℕ :=
  ((List.range s.spawned).filter fun n => !s.freed n).reverse

/-- The handles that are not freed. -/
theorem mem_handles : n ∈ s.handles ↔ n < s.spawned ∧ s.freed n = false := by
  unfold handles
  rw [List.mem_reverse, List.mem_filter, List.mem_range, Bool.not_eq_true']

/-- The newest handle comes first. -/
theorem handles_sorted (s : System) : s.handles.Pairwise (· > ·) := by
  unfold handles
  rw [List.pairwise_reverse]
  exact (List.pairwise_lt_range).filter _

/-- The links of the list. -/
def links (s : System) : DList ℕ where
  next n := (s.process n).next
  prev n := (s.process n).prev
  head := s.processList

/-- A sound list has exactly these handles. -/
theorem listed_eq (h : s.links.Holds s.handles) : s.listed = s.handles := by
  refine walk_eq h.chain (h.chain.length_le fun n hn => ?_)
  exact (mem_handles.mp hn).1

end System

/-! ## The invariant -/

/-- The manager that a dispatch belongs to. -/
def Pc.manager : Pc → Option ℕ
  | .read g | .waitpid g | .callback g => some g
  | .user | .crashed => none

/-- What holds between steps. -/
structure ProcessInv (s : System) : Prop where
  links : s.links.Holds s.handles
  managed : s.manager.isSome = !s.handles.isEmpty
  loop : ∀ n ∈ s.handles, ∀ mgr, s.manager = some mgr → (s.process n).loop = mgr.loop
  pid : ∀ n ∈ s.handles, (s.process n).pid = s.childPid n
  reused : ∀ m n, m < n → n < s.spawned → s.childPid m = s.childPid n → (s.child m).gone = true
  fresh : ∀ n, s.spawned ≤ n → s.child n = .running
  dispatch : ∀ g, s.pc.manager = some g → s.managerId = some g
  law : ExitLaw s

/-- At the start there is no handle and no child. -/
theorem ProcessInv.start : ProcessInv .start where
  links := ⟨rfl, trivial⟩
  managed := rfl
  loop := by
    intro n hn
    cases hn
  pid := by
    intro n hn
    cases hn
  reused := by
    intro m n _ hn
    exact absurd hn (Nat.not_lt_zero n)
  fresh _ _ := rfl
  dispatch := by
    intro g hg
    cases hg
  law :=
    { calls := fun _ => rfl
      exited := fun n hn => absurd hn (Nat.not_lt_zero n)
      misuse := rfl }

/-! ## Adding to and removing from the list -/

/-- The same handle, apart from its links. -/
structure SameData (p q : LoopyProcess) : Prop where
  loop : p.loop = q.loop
  pid : p.pid = q.pid
  exitCb : p.exitCb = q.exitCb
  userData : p.userData = q.userData
  exited : p.exited = q.exited
  exitStatus : p.exitStatus = q.exitStatus
  termSignal : p.termSignal = q.termSignal

namespace SameData

variable {p q r : LoopyProcess}

/-- A handle has the data that it has. -/
theorem refl (p : LoopyProcess) : SameData p p := ⟨rfl, rfl, rfl, rfl, rfl, rfl, rfl⟩

/-- Two changes that keep the data keep it together. -/
theorem trans (h : SameData p q) (h' : SameData q r) : SameData p r :=
  ⟨h.loop.trans h'.loop, h.pid.trans h'.pid, h.exitCb.trans h'.exitCb,
    h.userData.trans h'.userData, h.exited.trans h'.exited, h.exitStatus.trans h'.exitStatus,
    h.termSignal.trans h'.termSignal⟩

end SameData

/-- Only the list has changed, and no freed handle was used for it. -/
structure Relinked (s t : System) : Prop where
  process : ∀ n, SameData (t.process n) (s.process n)
  freed : t.freed = s.freed
  child : t.child = s.child
  childPid : t.childPid = s.childPid
  spawned : t.spawned = s.spawned
  manager : t.manager = s.manager.map fun mgr => { mgr with processList := t.processList }
  pc : t.pc = s.pc
  calls : t.calls = s.calls
  misuse : t.misuse = s.misuse

namespace System

variable {s t u : System} {n m : ℕ} {p : Option ℕ}

/-- The manager stands for its list. -/
theorem map_processList (s : System) :
    s.manager = s.manager.map fun mgr => { mgr with processList := s.processList } := by
  unfold processList
  cases s.manager <;> rfl

/-- A manager that exists gets the new head. -/
theorem processList_setProcessList (h : s.manager.isSome = true) (p : Option ℕ) :
    (s.setProcessList p).processList = p := by
  obtain ⟨mgr, hmgr⟩ := Option.isSome_iff_exists.mp h
  unfold setProcessList processList
  rw [hmgr]
  rfl

/-- Using handles that are not freed is no fault. -/
theorem touch_of_not_freed {ns : List ℕ} (h : ∀ m ∈ ns, s.freed m = false) : s.touch ns = s := by
  have hnil : ns.filter s.freed = [] := by
    rw [List.filter_eq_nil_iff]
    intro m hm
    rw [h m hm]
    exact Bool.false_ne_true
  unfold touch
  rw [hnil, List.map_nil, List.append_nil]

/-- What a write of `next` is among the links. -/
theorem links_setNext (s : System) (n : ℕ) (p : Option ℕ) :
    (s.setNext n p).links = { s.links with next := update s.links.next n p } := by
  have hnext := Function.comp_update LoopyProcess.next s.process n { s.process n with next := p }
  have hprev := Function.comp_update LoopyProcess.prev s.process n { s.process n with next := p }
  have hself : update (LoopyProcess.prev ∘ s.process) n (s.process n).prev =
      LoopyProcess.prev ∘ s.process := update_eq_self ..
  exact congrArg₂ (fun next prev => DList.mk next prev s.links.head) hnext (hprev.trans hself)

/-- What a write of `prev` is. -/
theorem links_setPrev (s : System) (n : ℕ) (p : Option ℕ) :
    (s.setPrev n p).links = { s.links with prev := update s.links.prev n p } := by
  have hnext := Function.comp_update LoopyProcess.next s.process n { s.process n with prev := p }
  have hprev := Function.comp_update LoopyProcess.prev s.process n { s.process n with prev := p }
  have hself : update (LoopyProcess.next ∘ s.process) n (s.process n).next =
      LoopyProcess.next ∘ s.process := update_eq_self ..
  exact congrArg₂ (fun next prev => DList.mk next prev s.links.head) (hnext.trans hself) hprev

/-- What a new head of the list is. -/
theorem links_setProcessList (h : s.manager.isSome = true) (p : Option ℕ) :
    (s.setProcessList p).links = { s.links with head := p } :=
  congrArg (DList.mk s.links.next s.links.prev) (processList_setProcessList h p)

/-- Using a handle leaves the links. -/
theorem links_touch (s : System) (ns : List ℕ) : (s.touch ns).links = s.links := rfl

/-- Adding a handle pushes it. -/
theorem addToList_links (hmanager : s.manager.isSome = true) (hprev : (s.process n).prev = none) :
    (s.addToList n).links = s.links.push n := by
  have hself : update s.links.prev n none = s.links.prev := by
    rw [← hprev]
    exact update_eq_self ..
  have hhead : (s.setNext n s.processList).processList = s.links.head := rfl
  unfold addToList DList.push
  dsimp only
  rw [hhead, hself]
  cases hlist : s.links.head with
  | none =>
    dsimp only
    rw [links_setProcessList (by exact hmanager), links_setNext]
    exact congrArg (fun p => DList.mk (update s.links.next n p) s.links.prev (some n)) hlist
  | some m =>
    dsimp only
    rw [links_setProcessList (by exact hmanager), links_setPrev, links_touch, links_setNext]
    exact congrArg (fun p => DList.mk (update s.links.next n p)
      (update s.links.prev m (some n)) (some n)) hlist

/-- Removing a handle takes it out. -/
theorem removeFromList_links (hmanager : s.manager.isSome = true) (n : ℕ) :
    (s.removeFromList n).links = s.links.remove n := by
  have hprev : s.links.prev n = (s.process n).prev := rfl
  have hnext : s.links.next n = (s.process n).next := rfl
  unfold removeFromList DList.remove
  dsimp only
  rw [hprev, hnext]
  cases (s.process n).prev with
  | none =>
    cases (s.process n).next with
    | none => exact links_setProcessList hmanager none
    | some m =>
      dsimp only
      rw [links_setPrev, links_touch, links_setProcessList hmanager]
  | some p =>
    cases (s.process n).next with
    | none => exact links_setNext ..
    | some m =>
      dsimp only
      rw [links_setPrev, links_touch, links_setNext, links_touch]

end System

namespace Relinked

variable {s t u : System} {n : ℕ}

theorem refl (s : System) : Relinked s s :=
  ⟨fun n => .refl (s.process n), rfl, rfl, rfl, rfl, s.map_processList, rfl, rfl, rfl⟩

theorem trans (h : Relinked s t) (h' : Relinked t u) : Relinked s u where
  process n := (h'.process n).trans (h.process n)
  freed := h'.freed.trans h.freed
  child := h'.child.trans h.child
  childPid := h'.childPid.trans h.childPid
  spawned := h'.spawned.trans h.spawned
  manager := by
    rw [h'.manager, h.manager, Option.map_map]
    rfl
  pc := h'.pc.trans h.pc
  calls := h'.calls.trans h.calls
  misuse := h'.misuse.trans h.misuse

/-- A handle may be written where its data stay. -/
theorem setProcess {p : LoopyProcess} (hp : SameData p (s.process n)) :
    Relinked s (s.setProcess n p) := by
  refine ⟨fun m => ?_, rfl, rfl, rfl, rfl, s.map_processList, rfl, rfl, rfl⟩
  show SameData (update s.process n p m) (s.process m)
  by_cases hm : m = n
  · subst hm
    rw [update_self]
    exact hp
  · rw [update_of_ne hm]
    exact .refl _

/-- A write of `next` changes only the list. -/
theorem setNext (s : System) (n : ℕ) (p : Option ℕ) : Relinked s (s.setNext n p) :=
  setProcess ⟨rfl, rfl, rfl, rfl, rfl, rfl, rfl⟩

/-- So does one of `prev`. -/
theorem setPrev (s : System) (n : ℕ) (p : Option ℕ) : Relinked s (s.setPrev n p) :=
  setProcess ⟨rfl, rfl, rfl, rfl, rfl, rfl, rfl⟩

/-- So does one of the head. -/
theorem setProcessList (s : System) (p : Option ℕ) : Relinked s (s.setProcessList p) := by
  refine ⟨fun n => .refl (s.process n), rfl, rfl, rfl, rfl, ?_, rfl, rfl, rfl⟩
  unfold System.setProcessList System.processList
  cases s.manager <;> rfl

/-- So does the use of handles that are not freed. -/
theorem touch {ns : List ℕ} (h : ∀ m ∈ ns, s.freed m = false) : Relinked s (s.touch ns) := by
  rw [System.touch_of_not_freed h]
  exact refl s

/-- A handle is put in front of the list. -/
theorem addToList (hhead : ∀ m, s.processList = some m → s.freed m = false) (n : ℕ) :
    Relinked s (s.addToList n) := by
  have hfirst : (s.setNext n s.processList).processList = s.processList := rfl
  unfold System.addToList
  dsimp only
  rw [hfirst]
  cases hlist : s.processList with
  | none => exact (setNext ..).trans (setProcessList ..)
  | some m =>
    refine (setNext s n (some m)).trans ((touch fun k hk => ?_).trans
      ((setPrev _ m (some n)).trans (setProcessList ..)))
    rw [List.mem_singleton.mp hk]
    exact hhead m hlist

/-- A handle is taken out, and only its neighbours are written. -/
theorem removeFromList (hprev : ∀ p, (s.process n).prev = some p → s.freed p = false)
    (hnext : ∀ m, (s.process n).next = some m → s.freed m = false) :
    Relinked s (s.removeFromList n) := by
  have hpast : ∀ p, (s.process n).prev = some p →
      Relinked s ((s.touch [p]).setNext p (s.process n).next) := by
    intro p hp
    refine (touch fun k hk => ?_).trans (setNext ..)
    rw [List.mem_singleton.mp hk]
    exact hprev p hp
  have hback : ∀ t : System, Relinked s t → ∀ m, (s.process n).next = some m →
      Relinked s ((t.touch [m]).setPrev m (s.process n).prev) := by
    intro t hfirst m hm
    refine hfirst.trans ((touch fun k hk => ?_).trans (setPrev ..))
    rw [List.mem_singleton.mp hk, hfirst.freed]
    exact hnext m hm
  unfold System.removeFromList
  dsimp only
  cases hp : (s.process n).prev with
  | none =>
    rw [hp] at hback
    cases hm : (s.process n).next with
    | none => exact setProcessList ..
    | some m => exact hback _ (setProcessList ..) m hm
  | some p =>
    have hfirst := hpast p hp
    rw [hp] at hback
    cases hm : (s.process n).next with
    | none =>
      rw [hm] at hfirst
      exact hfirst
    | some m =>
      rw [hm] at hfirst
      exact hback _ hfirst m hm

end Relinked

/-! ## Reporting -/

/-- The same handle, apart from what the exit of its child sets. -/
structure SameHandle (p q : LoopyProcess) : Prop where
  loop : p.loop = q.loop
  pid : p.pid = q.pid
  exitCb : p.exitCb = q.exitCb
  userData : p.userData = q.userData
  next : p.next = q.next
  prev : p.prev = q.prev

/-- An exit was reported to the handle that was found. -/
structure Checked (s : System) (found : Option ℕ) (g : ℕ) (status : WaitStatus) (t : System) :
    Prop where
  process : ∀ m, SameHandle (t.process m) (s.process m)
  exited : ∀ m, (t.process m).exited = (decide (found = some m) || (s.process m).exited)
  freed : t.freed = s.freed
  child : t.child = s.child
  childPid : t.childPid = s.childPid
  spawned : t.spawned = s.spawned
  manager : t.manager = s.manager
  misuse : t.misuse = s.misuse
  pc : t.pc = s.pc ∨ t.pc = .callback g
  calls : t.calls = s.calls ++ found.elim [] fun m => s.report m status

namespace System

variable {s : System} {n m : ℕ}

/-- The exit is reported to the handle that was found and to no other. -/
theorem filter_reports (s : System) (found : Option ℕ) (status : WaitStatus) (m : ℕ) :
    (found.elim [] fun k => s.report k status).filter (fun c => c.process = m) =
      if found = some m then s.report m status else [] := by
  cases found with
  | none => rfl
  | some k =>
    unfold report
    by_cases hk : k = m
    · subst hk
      rw [if_pos rfl, Option.elim_some]
      split <;> simp
    · rw [if_neg fun h => hk (Option.some.inj h), Option.elim_some]
      split <;> simp [hk]

/-- What the loop does with one child that has exited. -/
theorem checkChild_spec {pid : ℕ} (hsearched : ∀ m ∈ s.searched pid, s.freed m = false) (g : ℕ)
    (status : WaitStatus) : Checked s (s.findPid pid) g status (s.checkChild g pid status) := by
  unfold checkChild
  dsimp only
  rw [touch_of_not_freed hsearched]
  cases s.findPid pid with
  | none => exact
    { process := fun m => ⟨rfl, rfl, rfl, rfl, rfl, rfl⟩
      exited := fun m => rfl
      freed := rfl
      child := rfl
      childPid := rfl
      spawned := rfl
      manager := rfl
      misuse := rfl
      pc := Or.inl rfl
      calls := (List.append_nil _).symm }
  | some n =>
    dsimp only
    let p : LoopyProcess :=
      { s.process n with
        exited := true
        exitStatus := status.exitStatus
        termSignal := status.termSignal }
    have hprocess : ∀ m, SameHandle (update s.process n p m) (s.process m) := by
      intro m
      by_cases hm : m = n
      · subst hm
        rw [update_self]
        exact ⟨rfl, rfl, rfl, rfl, rfl, rfl⟩
      · rw [update_of_ne hm]
        exact ⟨rfl, rfl, rfl, rfl, rfl, rfl⟩
    have hexited : ∀ m, (update s.process n p m).exited =
        (decide (some n = some m) || (s.process m).exited) := by
      intro m
      by_cases hm : m = n
      · subst hm
        rw [update_self, decide_eq_true rfl, Bool.true_or]
      · rw [update_of_ne hm, decide_eq_false, Bool.false_or]
        intro h
        exact hm (Option.some.inj h).symm
    by_cases hcb : (s.process n).exitCb ≠ 0
    · rw [if_pos hcb]
      exact
        { process := hprocess
          exited := hexited
          freed := rfl
          child := rfl
          childPid := rfl
          spawned := rfl
          manager := rfl
          misuse := rfl
          pc := Or.inr rfl
          calls := congrArg (s.calls ++ ·) (if_pos hcb).symm }
    · rw [if_neg hcb]
      exact
        { process := hprocess
          exited := hexited
          freed := rfl
          child := rfl
          childPid := rfl
          spawned := rfl
          manager := rfl
          misuse := rfl
          pc := Or.inl rfl
          calls := by
            rw [Option.elim_some, report, if_neg hcb, List.append_nil]
            rfl }

end System

/-! ## Spawning -/

namespace System

variable {s t u : System} {n : ℕ}

/-- A step that leaves the children and the handles' callbacks leaves what is due. -/
theorem dueCalls_congr (hchild : t.child n = s.child n)
    (hcb : (t.process n).exitCb = (s.process n).exitCb)
    (hdata : (t.process n).userData = (s.process n).userData) : t.dueCalls n = s.dueCalls n := by
  unfold dueCalls report
  rw [hchild, hcb, hdata]

/-- Nothing is due for a child that still runs. -/
theorem dueCalls_of_not_gone (h : (s.child n).gone = false) : s.dueCalls n = [] := by
  unfold dueCalls
  cases hchild : s.child n with
  | running => rfl
  | zombie status => rfl
  | reaped status held =>
    rw [hchild] at h
    cases h

/-- A manager for the loop, and nothing else. -/
theorem processCreateManager_spec {loop : ℕ} (h : s.processCreateManager loop = some t) :
    t = { s with manager := t.manager, managers := t.managers } ∧
      (∃ mgr, t.manager = some mgr ∧ mgr.loop = loop) ∧ t.processList = s.processList ∧
      (s.manager = none ∨ t = s) := by
  unfold processCreateManager processGetManager at h
  cases hmgr : s.manager with
  | none =>
    rw [hmgr] at h
    cases h
    refine ⟨rfl, ⟨_, rfl, rfl⟩, ?_, Or.inl rfl⟩
    unfold processList
    rw [hmgr]
    rfl
  | some mgr =>
    rw [hmgr, Option.filter_some] at h
    by_cases hloop : mgr.loop = loop
    · rw [if_pos (decide_eq_true hloop)] at h
      cases h
      exact ⟨rfl, ⟨mgr, hmgr, hloop⟩, rfl, Or.inr rfl⟩
    · rw [if_neg (by simpa using hloop)] at h
      cases h

/-- The handles after a new one. -/
theorem handles_cons (hspawned : t.spawned = s.spawned + 1)
    (hfreed : t.freed = update s.freed s.spawned false) :
    t.handles = s.spawned :: s.handles := by
  have hsame : ∀ k ∈ List.range s.spawned, (!t.freed k) = !s.freed k := by
    intro k hk
    rw [hfreed, update_of_ne (Nat.ne_of_lt (List.mem_range.mp hk))]
  unfold handles
  rw [hspawned, List.range_succ, List.filter_append, List.filter_congr hsame, List.reverse_append]
  rw [List.filter_cons_of_pos (by rw [hfreed, update_self]; rfl), List.filter_nil]
  rfl

/-- The handles after one was freed. -/
theorem handles_erase (hspawned : t.spawned = s.spawned)
    (hfreed : t.freed = update s.freed n true) : t.handles = s.handles.erase n := by
  rw [List.Nodup.erase_eq_filter (s.handles_sorted.imp fun h => Nat.ne_of_gt h)]
  unfold handles
  rw [hspawned, List.filter_reverse, List.filter_filter]
  refine congrArg List.reverse (List.filter_congr fun k _ => ?_)
  rw [hfreed]
  by_cases hk : k = n
  · subst hk
    rw [update_self, bne_self_eq_false]
    rfl
  · rw [update_of_ne hk, bne_iff_ne.mpr hk, Bool.true_and]

end System

namespace ProcessInv

variable {s t : System} {n : ℕ}

/-- The head of the list is a handle. -/
theorem mem_of_head (h : ProcessInv s) (hn : s.processList = some n) : n ∈ s.handles :=
  List.mem_of_head? (h.links.head_eq.symm.trans hn)

/-- A handle has its manager. -/
theorem exists_manager (h : ProcessInv s) (hn : n ∈ s.handles) : ∃ mgr, s.manager = some mgr := by
  refine Option.isSome_iff_exists.mp ?_
  rw [h.managed]
  cases hl : s.handles with
  | nil =>
    rw [hl] at hn
    cases hn
  | cons m l => rfl

variable {pid loop m : ℕ} {process : LoopyProcess}

/-- A pid is given out again only when its child is gone. -/
theorem pid_free (hpid : s.pidTaken pid = false) (hn : n < s.spawned) (heq : s.childPid n = pid) :
    (s.child n).gone = true := by
  unfold System.pidTaken at hpid
  have hno := List.any_eq_false.mp hpid n (List.mem_range.mpr hn)
  rw [heq, decide_eq_true rfl, Bool.and_true, Bool.not_eq_true, Bool.not_eq_false'] at hno
  exact hno

/-- What a spawn leaves. -/
structure Spawned (s t : System) (process : LoopyProcess) : Prop where
  handles : t.handles = s.spawned :: s.handles
  links : t.links.Holds t.handles
  self : SameData (t.process s.spawned) process
  other : ∀ m, m ≠ s.spawned → SameData (t.process m) (s.process m)
  spawned : t.spawned = s.spawned + 1
  freed : t.freed = update s.freed s.spawned false
  child : t.child = update s.child s.spawned .running
  childPid : t.childPid = update s.childPid s.spawned process.pid
  manager : ∃ mgr, t.manager = some mgr ∧ mgr.loop = process.loop ∧
    ∀ old, s.manager = some old → old.loop = mgr.loop ∧ old.id = mgr.id
  pc : t.pc = s.pc
  calls : t.calls = s.calls
  misuse : t.misuse = s.misuse

/-- A new handle and its child, which is not in the list of its manager yet. -/
structure Forked (s t : System) (new : LoopyProcess) : Prop where
  process : t.process = update s.process s.spawned new
  spawned : t.spawned = s.spawned + 1
  freed : t.freed = update s.freed s.spawned false
  child : t.child = update s.child s.spawned .running
  childPid : t.childPid = update s.childPid s.spawned new.pid
  processList : t.processList = s.processList
  pc : t.pc = s.pc
  calls : t.calls = s.calls
  misuse : t.misuse = s.misuse

/-- The fork after the manager was looked up or created. -/
theorem forked {s₀ : System} (h : s.processCreateManager loop = some s₀) (process : LoopyProcess) :
    Forked s (s₀.fork process) process := by
  obtain ⟨hs₀, -, hlist, -⟩ := System.processCreateManager_spec h
  have hlist₀ : (s₀.fork process).processList = s.processList := hlist
  generalize s₀.manager = manager at hs₀
  generalize s₀.managers = managers at hs₀
  subst hs₀
  exact ⟨rfl, rfl, rfl, rfl, rfl, hlist₀, rfl, rfl, rfl⟩

/-- The fork leaves the other handles. -/
theorem Forked.other (h : Forked s t process) (hm : m ≠ s.spawned) : t.process m = s.process m := by
  rw [h.process]
  exact update_of_ne hm ..

/-- The list is as before, and the handles in it. -/
theorem Forked.links (ht : Forked s t process) (h : ProcessInv s) : t.links.Holds s.handles := by
  have hother : ∀ m ∈ s.handles, t.process m = s.process m := fun m hm =>
    ht.other (Nat.ne_of_lt (System.mem_handles.mp hm).1)
  refine h.links.congr (fun m hm => ?_) (fun m hm => ?_) ht.processList
  · exact congrArg LoopyProcess.next (hother m hm)
  · exact congrArg LoopyProcess.prev (hother m hm)

/-- The new handle is put into the list. -/
theorem Forked.relinked (ht : Forked s t process) (h : ProcessInv s) :
    Relinked t (t.addToList s.spawned) := by
  refine .addToList (fun m hm => ?_) s.spawned
  rw [ht.processList] at hm
  obtain ⟨hlt, hfreed⟩ := System.mem_handles.mp (h.mem_of_head hm)
  rw [ht.freed, update_of_ne (Nat.ne_of_lt hlt)]
  exact hfreed

/-- What `loopyProcessSpawn` has done when it succeeds. -/
theorem spawned (h : ProcessInv s) {exitCb userData : ℕ}
    (hstep : s.loopyProcessSpawn loop exitCb userData pid = some t) :
    Spawned s t ⟨loop, pid, exitCb, userData, false, 0, 0, none, none⟩ := by
  obtain ⟨s₀, hcreate, hrest⟩ := Option.bind_eq_some_iff.mp hstep
  obtain ⟨hs₀, ⟨mgr, hmgr, hloop⟩, -, hold⟩ := System.processCreateManager_spec hcreate
  have hspawned : s₀.spawned = s.spawned := by rw [hs₀]
  rw [hspawned] at hrest
  obtain rfl := Option.some.inj hrest
  have hforked := forked hcreate ⟨loop, pid, exitCb, userData, false, 0, 0, none, none⟩
  have hmanager₁ : (s₀.fork ⟨loop, pid, exitCb, userData, false, 0, 0, none, none⟩).manager =
    some mgr := hmgr
  generalize s₀.fork ⟨loop, pid, exitCb, userData, false, 0, 0, none, none⟩ = s₁
    at hforked hmanager₁
  have hself : s₁.process s.spawned = ⟨loop, pid, exitCb, userData, false, 0, 0, none, none⟩ := by
    rw [hforked.process]
    exact update_self ..
  have hrelinked := hforked.relinked h
  have hhandles : (s₁.addToList s.spawned).handles = s.spawned :: s.handles :=
    System.handles_cons (hrelinked.spawned.trans hforked.spawned)
      (hrelinked.freed.trans hforked.freed)
  refine
    { handles := hhandles
      links := ?_
      self := ?_
      other := fun m hm => ?_
      spawned := hrelinked.spawned.trans hforked.spawned
      freed := hrelinked.freed.trans hforked.freed
      child := hrelinked.child.trans hforked.child
      childPid := hrelinked.childPid.trans hforked.childPid
      manager := ?_
      pc := hrelinked.pc.trans hforked.pc
      calls := hrelinked.calls.trans hforked.calls
      misuse := hrelinked.misuse.trans hforked.misuse }
  · have hnew : s.spawned ∉ s.handles := fun hn => Nat.lt_irrefl _ (System.mem_handles.mp hn).1
    rw [hhandles, System.addToList_links (by rw [hmanager₁]; rfl) (by rw [hself])]
    exact (hforked.links h).push hnew
  · rw [← hself]
    exact hrelinked.process s.spawned
  · rw [← hforked.other hm]
    exact hrelinked.process m
  · have hmanager := hrelinked.manager
    rw [hmanager₁] at hmanager
    refine ⟨_, hmanager, hloop, fun old hmgr' => ?_⟩
    rcases hold with hnone | hsame
    · rw [hnone] at hmgr'
      cases hmgr'
    · rw [← hsame, hmgr] at hmgr'
      cases hmgr'
      exact ⟨rfl, rfl⟩

/-- **Spawning** adds a handle whose child runs. -/
theorem spawn (h : ProcessInv s) {exitCb userData : ℕ} (hpid : s.pidTaken pid = false)
    (hstep : s.loopyProcessSpawn loop exitCb userData pid = some t) : ProcessInv t := by
  have hs := h.spawned hstep
  have hne : ∀ m ∈ s.handles, m ≠ s.spawned := fun m hm =>
    Nat.ne_of_lt (System.mem_handles.mp hm).1
  obtain ⟨mgr, hmgr, hloop, hold⟩ := hs.manager
  refine
    { links := hs.links
      managed := ?_
      loop := ?_
      pid := ?_
      reused := ?_
      fresh := ?_
      dispatch := ?_
      law := ⟨?_, ?_, hs.misuse.trans h.law.misuse⟩ }
  · rw [hmgr, hs.handles]
    rfl
  · intro m hm mgr' hmgr'
    obtain rfl := Option.some.inj (hmgr.symm.trans hmgr')
    rw [hs.handles] at hm
    rcases List.mem_cons.mp hm with rfl | hm
    · exact hs.self.loop.trans hloop.symm
    · obtain ⟨old, hmgr'⟩ := h.exists_manager hm
      exact (hs.other m (hne m hm)).loop.trans ((h.loop m hm old hmgr').trans (hold old hmgr').1)
  · intro m hm
    rw [hs.handles] at hm
    rcases List.mem_cons.mp hm with rfl | hm
    · rw [hs.childPid, update_self]
      exact hs.self.pid
    · rw [hs.childPid, update_of_ne (hne m hm), ← h.pid m hm]
      exact (hs.other m (hne m hm)).pid
  · intro m n hmn hn heq
    rw [hs.spawned] at hn
    have hm : m ≠ s.spawned := by omega
    rw [hs.childPid, update_of_ne hm] at heq
    rw [hs.child, update_of_ne hm]
    rcases Nat.lt_succ_iff_lt_or_eq.mp hn with hn | rfl
    · rw [update_of_ne (Nat.ne_of_lt hn)] at heq
      exact h.reused m n hmn hn heq
    · rw [update_self] at heq
      exact pid_free hpid hmn heq
  · intro m hm
    rw [hs.spawned] at hm
    rw [hs.child, update_of_ne (by omega)]
    exact h.fresh m (by omega)
  · intro g hg
    rw [hs.pc] at hg
    have hid := h.dispatch g hg
    obtain ⟨old, hmgr', hg'⟩ := Option.map_eq_some_iff.mp hid
    rw [System.managerId, hmgr, ← hg', (hold old hmgr').2]
    rfl
  · intro m
    rw [hs.calls, h.law.calls]
    by_cases hm : m = s.spawned
    · subst hm
      rw [System.dueCalls_of_not_gone (s := s) (by rw [h.fresh _ (Nat.le_refl _)]; rfl)]
      rw [System.dueCalls_of_not_gone (by rw [hs.child, update_self]; rfl)]
    · refine (System.dueCalls_congr ?_ ?_ ?_).symm
      · rw [hs.child, update_of_ne hm]
      · exact (hs.other m hm).exitCb
      · exact (hs.other m hm).userData
  · intro m hm hfreed
    by_cases hm' : m = s.spawned
    · subst hm'
      rw [hs.child, update_self]
      exact hs.self.exited
    · rw [hs.spawned] at hm
      rw [hs.freed, update_of_ne hm'] at hfreed
      rw [hs.child, update_of_ne hm', ← h.law.exited m (by omega) hfreed]
      exact (hs.other m hm').exited

/-! ## Freeing -/

/-- The neighbours of a handle exist. -/
theorem neighbours (h : ProcessInv s) (hn : n ∈ s.handles) :
    (∀ p, (s.process n).prev = some p → p ∈ s.handles.erase n) ∧
      ∀ m, (s.process n).next = some m → m ∈ s.handles.erase n := by
  obtain ⟨l₁, l₂, hl⟩ := List.append_of_mem hn
  have hlinks := h.links
  have hnodup := h.links.nodup
  rw [hl] at hlinks hnodup
  obtain ⟨hprev, hnext⟩ := hlinks.links
  have hn₁ : n ∉ l₁ := by
    intro hmem
    exact (List.nodup_append.mp hnodup).2.2 n hmem n List.mem_cons_self rfl
  rw [hl, List.erase_append_right _ hn₁, List.erase_cons_head]
  refine ⟨fun p hp => List.mem_append_left _ ?_, fun m hm => List.mem_append_right _ ?_⟩
  · exact List.mem_of_getLast? (hprev.symm.trans hp)
  · exact List.mem_of_head? (hnext.symm.trans hm)

/-- A handle is gone from the list. -/
theorem drop (h : ProcessInv s) (hprocess : ∀ m, SameData (t.process m) (s.process m))
    (hfreed : t.freed = update s.freed n true) (hchild : t.child = s.child)
    (hpids : t.childPid = s.childPid) (hspawned : t.spawned = s.spawned)
    (hcalls : t.calls = s.calls) (hmisuse : t.misuse = s.misuse)
    (hlinks : t.links.Holds (s.handles.erase n))
    (hmanaged : t.manager.isSome = !(s.handles.erase n).isEmpty)
    (hloop : ∀ mgr, t.manager = some mgr → ∃ old, s.manager = some old ∧ old.loop = mgr.loop)
    (hdispatch : ∀ g, t.pc.manager = some g → t.managerId = some g) : ProcessInv t := by
  have hhandles := System.handles_erase hspawned hfreed
  have hsub : ∀ m ∈ t.handles, m ∈ s.handles := by
    intro m hm
    rw [hhandles] at hm
    exact List.mem_of_mem_erase hm
  refine
    { links := hhandles ▸ hlinks
      managed := hhandles ▸ hmanaged
      loop := fun m hm mgr hmgr => ?_
      pid := fun m hm => ?_
      reused := ?_
      fresh := ?_
      dispatch := hdispatch
      law := ⟨fun m => ?_, fun m hm hlive => ?_, hmisuse.trans h.law.misuse⟩ }
  · obtain ⟨old, hold, heq⟩ := hloop mgr hmgr
    exact (hprocess m).loop.trans ((h.loop m (hsub m hm) old hold).trans heq)
  · rw [hpids]
    exact (hprocess m).pid.trans (h.pid m (hsub m hm))
  · rw [hpids, hspawned, hchild]
    exact h.reused
  · rw [hspawned, hchild]
    exact h.fresh
  · rw [hcalls, h.law.calls]
    exact (System.dueCalls_congr (congrFun hchild m) (hprocess m).exitCb (hprocess m).userData).symm
  · have hmem := hsub m (System.mem_handles.mpr ⟨hm, hlive⟩)
    obtain ⟨hm, hlive⟩ := System.mem_handles.mp hmem
    rw [hchild, ← h.law.exited m hm hlive]
    exact (hprocess m).exited

/-- **Freeing** a handle that is not the only one, or outside of a dispatch. -/
theorem free (h : ProcessInv s) (hn : n ∈ s.handles) (hok : Admitted s (.free n)) :
    ProcessInv (s.loopyProcessFree n) := by
  obtain ⟨hprev, hnext⟩ := h.neighbours hn
  have hsub : ∀ m ∈ s.handles.erase n, m ∈ s.handles := fun m hm => List.mem_of_mem_erase hm
  obtain ⟨mgr, hmgr⟩ := h.exists_manager hn
  have hget : s.processGetManager (s.process n).loop = some mgr := by
    unfold System.processGetManager
    rw [hmgr, Option.filter_some, if_pos (decide_eq_true (h.loop n hn mgr hmgr).symm)]
  have hrelinked : Relinked s (s.removeFromList n) := by
    refine .removeFromList (fun p hp => ?_) fun m hm => ?_
    · exact (System.mem_handles.mp (hsub p (hprev p hp))).2
    · exact (System.mem_handles.mp (hsub m (hnext m hm))).2
  have hlinks : (s.removeFromList n).links.Holds (s.handles.erase n) := by
    rw [System.removeFromList_links (by rw [hmgr]; rfl)]
    exact h.links.remove hn
  unfold System.loopyProcessFree
  rw [hget]
  dsimp only
  generalize s.removeFromList n = s₁ at hrelinked hlinks
  have hempty : s₁.processList = none ↔ s.handles.erase n = [] := hlinks.chain.eq_none_iff
  have hmanager : s₁.manager = some { mgr with processList := s₁.processList } := by
    rw [hrelinked.manager, hmgr]
    rfl
  have hfreed : update s₁.freed n true = update s.freed n true := by
    rw [hrelinked.freed]
  by_cases hlast : s₁.processList = none
  · -- the manager is destroyed, outside of a dispatch
    have hnil := hempty.mp hlast
    have hpc : s₁.pc = .user := by
      rw [hrelinked.pc]
      rcases hok with huser | hlink | hlink
      · exact huser
      · obtain ⟨m, hm⟩ := Option.isSome_iff_exists.mp hlink
        have hmem := hnext m hm
        rw [hnil] at hmem
        cases hmem
      · obtain ⟨p, hp⟩ := Option.isSome_iff_exists.mp hlink
        have hmem := hprev p hp
        rw [hnil] at hmem
        cases hmem
    rw [if_pos hlast]
    refine h.drop hrelinked.process hfreed hrelinked.child hrelinked.childPid hrelinked.spawned
      hrelinked.calls hrelinked.misuse ?_ ?_ (fun mgr' hmgr' => ?_) fun g hg => ?_
    · rw [hnil]
      exact ⟨rfl, trivial⟩
    · rw [hnil]
      rfl
    · cases hmgr'
    · have hnone : s₁.pc.manager = none := congrArg Pc.manager hpc
      exact absurd (hnone.symm.trans hg) (Option.some_ne_none g).symm
  · rw [if_neg hlast]
    refine h.drop hrelinked.process hfreed hrelinked.child hrelinked.childPid hrelinked.spawned
      hrelinked.calls hrelinked.misuse hlinks ?_ (fun mgr' hmgr' => ?_) fun g hg => ?_
    · have hne : s.handles.erase n ≠ [] := fun hnil => hlast (hempty.mpr hnil)
      rw [List.isEmpty_eq_false_iff.mpr hne]
      exact congrArg Option.isSome hmanager
    · obtain rfl := Option.some.inj (hmanager.symm.trans hmgr')
      exact ⟨mgr, hmgr, rfl⟩
    · have hid := h.dispatch g (by rw [← hrelinked.pc]; exact hg)
      rw [System.managerId, hmgr] at hid
      exact (congrArg (Option.map LoopyProcessManager.id) hmanager).trans hid

/-! ## The kernel and the dispatch -/

/-- The dispatch goes on, and signals come and go. -/
theorem move (h : ProcessInv s) {pc : Pc} (hpc : ∀ g, pc.manager = some g → s.managerId = some g)
    (sigchld : Bool) : ProcessInv { s with pc := pc, sigchld := sigchld } :=
  { links := h.links
    managed := h.managed
    loop := h.loop
    pid := h.pid
    reused := h.reused
    fresh := h.fresh
    dispatch := hpc
    law := ⟨h.law.calls, h.law.exited, h.law.misuse⟩ }

/-- **A child terminates.** -/
theorem exit (h : ProcessInv s) (hn : n < s.spawned) (hrunning : s.child n = .running)
    (status : WaitStatus) :
    ProcessInv { s with child := update s.child n (.zombie status) } := by
  have hgone : ∀ m, (update s.child n (.zombie status) m).gone = (s.child m).gone := by
    intro m
    by_cases hm : m = n
    · subst hm
      rw [update_self, hrunning]
      rfl
    · rw [update_of_ne hm]
  refine
    { links := h.links
      managed := h.managed
      loop := h.loop
      pid := h.pid
      reused := fun m k hmk hk heq => (hgone m).trans (h.reused m k hmk hk heq)
      fresh := fun m hm => ?_
      dispatch := h.dispatch
      law := ⟨fun m => ?_, fun m hm hlive => (h.law.exited m hm hlive).trans (hgone m).symm,
        h.law.misuse⟩ }
  · have hm' : s.spawned ≤ m := hm
    show update s.child n (.zombie status) m = .running
    rw [update_of_ne (by omega)]
    exact h.fresh m hm'
  · rw [h.law.calls]
    by_cases hm : m = n
    · subst hm
      rw [System.dueCalls_of_not_gone (s := s) (by rw [hrunning]; rfl)]
      refine (System.dueCalls_of_not_gone ?_).symm
      rw [hgone m, hrunning]
      rfl
    · exact (System.dueCalls_congr (s := s)
        (t := { s with child := update s.child n (.zombie status) })
        (update_of_ne hm ..) rfl rfl).symm

/-! ## Reaping -/

/-- The handles that the search reads exist. -/
theorem searched_not_freed (h : ProcessInv s) (pid : ℕ) :
    ∀ m ∈ s.searched pid, s.freed m = false := by
  intro m hm
  have hmem : m ∈ s.listed := by
    rcases List.mem_append.mp hm with hm | hm
    · exact (List.takeWhile_sublist _).subset hm
    · exact List.mem_of_find?_eq_some (Option.mem_toList.mp hm)
  rw [System.listed_eq h.links] at hmem
  exact (System.mem_handles.mp hmem).2

/-- The search finds the handle of a child that has not been reaped: no newer handle has its pid. -/
theorem findPid_own (h : ProcessInv s) (hn : n ∈ s.handles) (hchild : (s.child n).gone = false) :
    s.findPid (s.childPid n) = some n := by
  obtain ⟨l₁, l₂, hl⟩ := List.append_of_mem hn
  have hsorted := s.handles_sorted
  rw [hl] at hsorted
  unfold System.findPid
  rw [System.listed_eq h.links, List.find?_eq_some_iff_append]
  refine ⟨decide_eq_true (h.pid n hn), l₁, l₂, hl, fun m hm => ?_⟩
  have hmem : m ∈ s.handles := by
    rw [hl]
    exact List.mem_append_left _ hm
  have hlt : n < m := (List.pairwise_append.mp hsorted).2.2 m hm n List.mem_cons_self
  rw [Bool.not_eq_true', decide_eq_false_iff_not, h.pid m hmem]
  intro heq
  rw [h.reused n m hlt (System.mem_handles.mp hmem).1 heq.symm] at hchild
  cases hchild

/-- A handle with the pid of another one's unreaped child has exited. -/
theorem findPid_other (h : ProcessInv s) (hn : n < s.spawned) (hmem : m ∈ s.handles)
    (hfind : s.findPid (s.childPid n) = some m) (hne : m ≠ n) (hchild : (s.child n).gone = false) :
    s.childPid m = s.childPid n ∧ (s.child m).gone = true := by
  have hpid : s.childPid m = s.childPid n := by
    unfold System.findPid at hfind
    have hfound := List.find?_some (p := fun k => decide ((s.process k).pid = s.childPid n)) hfind
    rwa [decide_eq_true_eq, h.pid m hmem] at hfound
  refine ⟨hpid, ?_⟩
  rcases Nat.lt_or_gt_of_ne hne with hlt | hlt
  · exact h.reused m n hlt hn hpid
  · rw [h.reused n m hlt (System.mem_handles.mp hmem).1 hpid.symm] at hchild
    cases hchild

/-- The search finds the newest handle. -/
theorem findPid_newest (h : ProcessInv s) {k : ℕ} (hfind : s.findPid pid = some m)
    (hk : k ∈ s.listed) (hkpid : (s.process k).pid = pid) : k ≤ m := by
  obtain ⟨-, l₁, l₂, hl, hbefore⟩ := List.find?_eq_some_iff_append.mp hfind
  have hsorted := s.handles_sorted
  rw [← System.listed_eq h.links, hl] at hsorted
  rw [hl] at hk
  rcases List.mem_append.mp hk with hk | hk
  · have hne := hbefore k hk
    rw [decide_eq_true hkpid] at hne
    cases hne
  · rcases List.mem_cons.mp hk with rfl | hk
    · exact Nat.le_refl _
    · exact Nat.le_of_lt ((List.pairwise_cons.mp (List.pairwise_append.mp hsorted).2.1).1 k hk)

/-- The handle that is found for a reaped child is its own. If that is freed, it is one whose own
child is gone and that has no callback. -/
theorem findPid_cases (h : ProcessInv s) (hn : n < s.spawned) (hchild : (s.child n).gone = false)
    (hok : Admitted s (.reap n)) (hfind : s.findPid (s.childPid n) = some m) :
    m = n ∧ s.freed n = false ∨
      m ≠ n ∧ s.freed n = true ∧ (s.child m).gone = true ∧ (s.process m).exitCb = 0 := by
  cases hfreed : s.freed n with
  | false =>
    have hown := h.findPid_own (System.mem_handles.mpr ⟨hn, hfreed⟩) hchild
    rw [hfind] at hown
    exact Or.inl ⟨Option.some.inj hown, rfl⟩
  | true =>
    have hmem : m ∈ s.handles := by
      rw [← System.listed_eq h.links]
      exact List.mem_of_find?_eq_some hfind
    have hne : m ≠ n := by
      rintro rfl
      rw [(System.mem_handles.mp hmem).2] at hfreed
      cases hfreed
    obtain ⟨hpid, hgone⟩ := h.findPid_other hn hmem hfind hne hchild
    refine Or.inr ⟨hne, rfl, hgone, hok hfreed m ?_ ((h.pid m hmem).trans hpid) fun k hk hkpid => ?_⟩
    · rw [System.listed_eq h.links]
      exact hmem
    · exact h.findPid_newest hfind hk hkpid

/-- What is reported for a reaped child is what becomes due. -/
theorem calls_reap (h : ProcessInv s) {status : WaitStatus} (hn : n < s.spawned)
    (hchild : (s.child n).gone = false) (hok : Admitted s (.reap n)) (m : ℕ) :
    s.dueCalls m ++ (if s.findPid (s.childPid n) = some m then s.report m status else []) =
      (s.reap n status).dueCalls m := by
  by_cases hm : m = n
  · subst hm
    rw [System.dueCalls_of_not_gone hchild, List.nil_append]
    have hdue : (s.reap m status).dueCalls m = if s.freed m then [] else s.report m status := by
      have hself : (s.reap m status).child m = .reaped status (!s.freed m) :=
        update_self ..
      unfold System.dueCalls
      rw [hself]
      cases s.freed m <;> rfl
    rw [hdue]
    cases hfreed : s.freed m with
    | false =>
      rw [h.findPid_own (System.mem_handles.mpr ⟨hn, hfreed⟩) hchild, if_pos rfl]
      rfl
    | true =>
      rw [if_neg, if_pos rfl]
      intro hfind
      rcases h.findPid_cases hn hchild hok hfind with ⟨-, hlive⟩ | ⟨hne, -⟩
      · rw [hfreed] at hlive
        cases hlive
      · exact hne rfl
  · have hdue : (s.reap n status).dueCalls m = s.dueCalls m := by
      refine System.dueCalls_congr ?_ rfl rfl
      exact update_of_ne hm ..
    rw [hdue]
    by_cases hfind : s.findPid (s.childPid n) = some m
    · rcases h.findPid_cases hn hchild hok hfind with ⟨heq, -⟩ | ⟨-, -, -, hcb⟩
      · exact absurd heq hm
      · unfold System.report
        rw [if_pos hfind, if_neg (not_not_intro hcb), List.append_nil]
    · rw [if_neg hfind, List.append_nil]

/-- **Reaping** reports the exit to the child's own handle. -/
theorem reap (h : ProcessInv s) {g : ℕ} {status : WaitStatus} (hn : n < s.spawned)
    (hchild : (s.child n).gone = false) (hid : s.managerId = some g) (hok : Admitted s (.reap n)) :
    ProcessInv ((s.reap n status).checkChild g (s.childPid n) status) := by
  have hc : Checked (s.reap n status) (s.findPid (s.childPid n)) g status
      ((s.reap n status).checkChild g (s.childPid n) status) :=
    System.checkChild_spec (s := s.reap n status) (h.searched_not_freed (s.childPid n)) g status
  generalize (s.reap n status).checkChild g (s.childPid n) status = t at hc
  have hchild' : t.child = update s.child n (.reaped status (!s.freed n)) := hc.child
  have hhandles : t.handles = s.handles := by
    unfold System.handles
    rw [hc.spawned, hc.freed]
    rfl
  refine
    { links := ?_
      managed := ?_
      loop := fun m hm mgr hmgr => ?_
      pid := fun m hm => ?_
      reused := fun m k hmk hk heq => ?_
      fresh := fun m hm => ?_
      dispatch := fun g' hg' => ?_
      law := ⟨fun m => ?_, fun m hm hlive => ?_, hc.misuse.trans h.law.misuse⟩ }
  · rw [hhandles]
    refine h.links.congr (fun m _ => (hc.process m).next) (fun m _ => (hc.process m).prev) ?_
    exact congrArg (fun mgr : Option LoopyProcessManager => mgr.bind (·.processList)) hc.manager
  · rw [hhandles, hc.manager]
    exact h.managed
  · rw [hhandles] at hm
    rw [hc.manager] at hmgr
    exact (hc.process m).loop.trans (h.loop m hm mgr hmgr)
  · rw [hhandles] at hm
    rw [hc.childPid]
    exact (hc.process m).pid.trans (h.pid m hm)
  · rw [hc.spawned] at hk
    rw [hc.childPid] at heq
    have hgone := h.reused m k hmk hk heq
    rw [hchild']
    by_cases hm : m = n
    · rw [hm, update_self]
      rfl
    · rw [update_of_ne hm]
      exact hgone
  · rw [hc.spawned] at hm
    have hm' : s.spawned ≤ m := hm
    rw [hchild', update_of_ne (by omega)]
    exact h.fresh m hm'
  · rw [System.managerId, hc.manager]
    rcases hc.pc with hpc | hpc
    · rw [hpc] at hg'
      exact h.dispatch g' hg'
    · rw [hpc] at hg'
      cases hg'
      exact hid
  · have hold : s.calls.filter (fun c => c.process = m) = s.dueCalls m := h.law.calls m
    have hdue : t.dueCalls m = (s.reap n status).dueCalls m :=
      System.dueCalls_congr (congrFun hc.child m) (hc.process m).exitCb (hc.process m).userData
    rw [hc.calls, List.filter_append, System.filter_reports, hdue, ← h.calls_reap hn hchild hok m]
    exact congrArg (· ++ _) hold
  · have hlive' : s.freed m = false := by
      rw [← hlive, hc.freed]
      rfl
    have hm' : m < s.spawned := by
      rw [hc.spawned] at hm
      exact hm
    have hexited : (t.process m).exited =
        (decide (s.findPid (s.childPid n) = some m) || (s.process m).exited) := hc.exited m
    refine hexited.trans ?_
    rw [hchild']
    by_cases hmn : m = n
    · subst hmn
      rw [h.findPid_own (System.mem_handles.mpr ⟨hn, hlive'⟩) hchild, update_self]
      simp only [decide_true, Bool.true_or]
      rfl
    · rw [update_of_ne hmn]
      by_cases hfind : s.findPid (s.childPid n) = some m
      · rcases h.findPid_cases hn hchild hok hfind with ⟨heq, -⟩ | ⟨-, -, hgone, -⟩
        · exact absurd heq hmn
        · rw [decide_eq_true hfind, Bool.true_or, hgone]
      · rw [decide_eq_false hfind, Bool.false_or]
        exact h.law.exited m hm' hlive'

/-! ## Runs -/

/-- **One step.** -/
theorem step (h : ProcessInv s) {a : Action} (hok : Admitted s a) (hstep : s.step a = some t) :
    ProcessInv t := by
  cases a with
  | spawn loop exitCb userData pid =>
    unfold System.step at hstep
    dsimp only at hstep
    split at hstep
    case isTrue hc => exact h.spawn hc.2.2 hstep
    case isFalse => cases hstep
  | free n =>
    unfold System.step at hstep
    dsimp only at hstep
    split at hstep
    case isTrue hc =>
      cases hstep
      exact h.free (System.mem_handles.mpr hc.2) hok
    case isFalse => cases hstep
  | exit n status =>
    unfold System.step at hstep
    dsimp only at hstep
    split at hstep
    case isTrue hc =>
      cases hstep
      exact (h.exit hc.1 hc.2 status).move h.dispatch s.manager.isSome
    case isFalse => cases hstep
  | stopped =>
    cases hstep
    exact h.move h.dispatch s.manager.isSome
  | dispatch =>
    unfold System.step at hstep
    dsimp only at hstep
    split at hstep
    case h_1 g _ hid =>
      cases hstep
      refine h.move (fun g' hg' => ?_) s.sigchld
      cases hg'
      exact hid
    case h_2 => cases hstep
  | read =>
    unfold System.step at hstep
    dsimp only at hstep
    split at hstep
    case h_1 g hpc =>
      have hid : s.managerId = some g := h.dispatch g (by rw [hpc]; rfl)
      rw [if_neg (not_not_intro hid)] at hstep
      split at hstep
      · cases hstep
        refine h.move (fun g' hg' => ?_) false
        cases hg'
        exact hid
      · cases hstep
        refine h.move (fun g' hg' => ?_) s.sigchld
        cases hg'
    case h_2 => cases hstep
  | reap n =>
    unfold System.step at hstep
    dsimp only at hstep
    split at hstep
    case h_1 g status hpc hchild =>
      have hid : s.managerId = some g := h.dispatch g (by rw [hpc]; rfl)
      split at hstep
      case isTrue hn =>
        rw [if_neg (not_not_intro hid)] at hstep
        cases hstep
        exact h.reap hn (by rw [hchild]; rfl) hid hok
      case isFalse => cases hstep
    case h_2 => cases hstep
  | noChild =>
    unfold System.step at hstep
    dsimp only at hstep
    split at hstep
    case h_1 g hpc =>
      split at hstep
      · cases hstep
        refine h.move (fun g' hg' => ?_) s.sigchld
        cases hg'
        exact h.dispatch g (by rw [hpc]; rfl)
      · cases hstep
    case h_2 => cases hstep
  | ret =>
    unfold System.step at hstep
    dsimp only at hstep
    split at hstep
    case h_1 g hpc =>
      cases hstep
      refine h.move (fun g' hg' => ?_) s.sigchld
      cases hg'
      exact h.dispatch g (by rw [hpc]; rfl)
    case h_2 => cases hstep

end ProcessInv

/-- **Every exit is reported once**: in a run in which no exit callback frees the only handle, and
no child whose handle was freed is reaped while an exited handle still has its pid, the exit
callback of every handle that exists when its child is reaped is invoked once, with the status of
that child; a handle has exited exactly if its child was reaped; and no freed handle, destroyed
manager or closed descriptor is used. -/
theorem exits_reported {as : List Action} {s : System}
    (h : Run System.step Admitted .start as s) : ExitLaw s :=
  (h.invariant (P := ProcessInv) (fun _ _ _ hs hok hstep => hs.step hok hstep) .start).law

/-- Two children exit, and one `SIGCHLD` is delivered. -/
def bothExit : List Action :=
  [.spawn 1 7 70 5, .spawn 1 8 80 6, .exit 0 (.exited 3), .exit 1 (.signaled 9), .dispatch, .read,
    .reap 0, .ret, .reap 1]

/-- The callback of the second handle frees it, and spawns. -/
def freeSelf : List Action := [.free 1, .spawn 1 7 70 6, .ret, .noChild, .read]

theorem exits_reported_bothExit :
    ∃ s, Run System.step Admitted .start (bothExit ++ freeSelf) s ∧
      s.calls = [⟨0, 7, 3, 0, 70⟩, ⟨1, 8, 0, 9, 80⟩] ∧ s.listed = [2, 0] ∧ ExitLaw s := by
  have hexec : (exec System.step Admitted .start (bothExit ++ freeSelf)).map
      (fun s => (s.calls, s.listed)) = some ([⟨0, 7, 3, 0, 70⟩, ⟨1, 8, 0, 9, 80⟩], [2, 0]) := by
    decide +kernel
  obtain ⟨s, hrun, hval⟩ := Run.of_exec_map hexec
  obtain ⟨hcalls, hlisted⟩ := Prod.mk.inj hval
  exact ⟨s, hrun, hcalls, hlisted, exits_reported hrun⟩

/-- The exit callback of the only handle frees it. -/
def freeLast : List Action :=
  [.spawn 1 7 70 5, .exit 0 (.exited 3), .dispatch, .read, .reap 0, .free 0, .ret, .noChild, .read]

/-- The pid of an exited handle goes to a child whose handle is freed before it exits. -/
def reusePid : List Action :=
  [.spawn 1 7 70 5, .exit 0 (.exited 3), .dispatch, .read, .reap 0, .ret, .noChild, .read,
    .spawn 1 8 80 5, .free 1, .exit 1 (.signaled 9), .dispatch, .read, .reap 1]

theorem exits_not_reported :
    ¬ (∀ as s, Run System.step (fun _ _ => True) .start as s → s.misuse = []) ∧
      ¬ ∀ as s, Run System.step (fun _ _ => True) .start as s →
        ∀ n, (s.calls.filter fun c => c.process = n).length ≤ 1 := by
  constructor
  · intro hall
    have hexec : (exec System.step (fun _ _ => True) .start freeLast).map System.misuse =
        some [.closedDescriptor] := by
      decide +kernel
    obtain ⟨s, hs, hval⟩ := Run.of_exec_map hexec
    rw [hall _ s hs] at hval
    cases hval
  · intro hall
    have hexec : (exec System.step (fun _ _ => True) .start reusePid).map System.calls =
        some [⟨0, 7, 3, 0, 70⟩, ⟨0, 7, 0, 9, 70⟩] := by
      decide +kernel
    obtain ⟨s, hs, hval⟩ := Run.of_exec_map hexec
    have hlen := hall _ s hs 0
    rw [hval] at hlen
    exact absurd hlen (by decide)

end Loopy.Process
