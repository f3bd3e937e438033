import Mathlib.Data.Fintype.Basic
import Loopy.Lib.Run

/-!
# `loopyFlock.c`: lock files

Processes that call `loopyFlockNewLockfile` and `loopyFlockFreeLockfile` for one path, one system
call at a time. The path is bound to at most one inode; inodes are numbered in the order of their
creation, and no number is used twice. `flock` locks an inode for one open file; a call that
waits for it may be interrupted. A process that wants the lock twice counts as two.

The inode that a process has opened may have lost its name by the time it is locked:
`lockfile_excludes` is the exclusion when it has not.
-/

namespace Loopy.Flock

open Loopy.Lib
open Function (update update_of_ne update_self)

/-! ## The machine -/

/-- `loopyFlockMode`. -/
inductive LoopyFlockMode
  | blocking
  | nonblocking
deriving DecidableEq, Repr

/-- Where a process is. -/
inductive Pc
  | idle
  /-- `loopyFlockNewLockfile` has opened the file. -/
  | opened (inode : ℕ) (mode : LoopyFlockMode)
  /-- `loopyFlockNew` has failed; before `close`. -/
  | failed
  /-- `loopyFlockNewLockfile` has returned a lock; `path` says whether it could copy its path. -/
  | held (inode : ℕ) (path : Bool)
  /-- `loopyFlockFreeLockfile` is about to unlink its path. -/
  | unlinking (inode : ℕ)
  /-- `loopyFlockFree` is about to unlock. -/
  | unlocking (inode : ℕ)
  /-- `loopyFlockFree` is about to close the file. -/
  | closing
deriving DecidableEq, Repr

/-- The inode that is locked at this place. -/
def Pc.locked : Pc → Option ℕ
  | .held inode _ | .unlinking inode | .unlocking inode => some inode
  | .idle | .opened .. | .failed | .closing => none

/-- The inode to which the path is bound as long as a process is at this place. -/
def Pc.named : Pc → Option ℕ
  | .held inode _ | .unlinking inode => some inode
  | .idle | .opened .. | .failed | .unlocking _ | .closing => none

/-- The process is between `loopyFlockNewLockfile` and `loopyFlockFreeLockfile`. -/
def Pc.holds : Pc → Bool
  | .held .. => true
  | _ => false

/-- The file system, as far as one path is concerned, and the processes. -/
structure System (P : Type) where
  path : Option ℕ
  inodes : ℕ
  lock : ℕ → Option P
  process : P → Pc

/-- There is no lock file. -/
def System.fresh (P : Type) : System P :=
  { path := none, inodes := 0, lock := fun _ => none, process := fun _ => .idle }

/-- What becomes of `loopyFlockNew`. -/
inductive FlockResult
  /-- The lock is granted; `copied` says whether the path can be copied. -/
  | granted (copied : Bool)
  | wouldBlock
  /-- `flock` fails or is interrupted, or there is no memory. -/
  | error
deriving DecidableEq, Repr

/-- The system calls of a process. -/
inductive Action (P : Type)
  | openPath (p : P) (mode : LoopyFlockMode)
  | flock (p : P) (r : FlockResult)
  | freeLockfile (p : P)
  | unlink (p : P)
  | unlock (p : P)
  | close (p : P)
deriving DecidableEq, Repr

variable {P : Type} [DecidableEq P]

/-- The process `p` moves to `pc`. -/
def System.move (s : System P) (p : P) (pc : Pc) : System P :=
  { s with process := update s.process p pc }

/-- `open(path, O_RDWR | O_CREAT)`: the inode of the path, or a new one. -/
def System.openPath (s : System P) : ℕ × System P :=
  match s.path with
  | some inode => (inode, s)
  | none => (s.inodes, { s with path := some s.inodes, inodes := s.inodes + 1 })

/-- One system call. -/
def step (s : System P) : Action P → Option (System P)
  | .openPath p mode =>
    if s.process p = .idle then
      let (inode, s) := s.openPath
      some (s.move p (.opened inode mode))
    else none
  | .flock p r =>
    match s.process p, r with
    | .opened inode _, .granted copied =>
      if s.lock inode = none then
        some { s.move p (.held inode copied) with lock := update s.lock inode (some p) }
      else none
    | .opened inode mode, .wouldBlock =>
      if mode = .nonblocking ∧ s.lock inode ≠ none then some (s.move p .failed) else none
    | .opened _ _, .error => some (s.move p .failed)
    | _, _ => none
  | .freeLockfile p =>
    match s.process p with
    | .held inode path => some (s.move p (if path then .unlinking inode else .unlocking inode))
    | _ => none
  | .unlink p =>
    match s.process p with
    | .unlinking inode => some { s.move p (.unlocking inode) with path := none }
    | _ => none
  | .unlock p =>
    match s.process p with
    | .unlocking inode =>
      some { s.move p .closing with lock := update s.lock inode none }
    | _ => none
  | .close p =>
    match s.process p with
    | .failed | .closing => some (s.move p .idle)
    | _ => none

/-! ## The exclusion -/

/-- At most one process has the lock file. -/
def Exclusive (s : System P) : Prop :=
  ∀ p q, (s.process p).holds = true → (s.process q).holds = true → p = q

/-- The inode that a process locks still has the name under which it was opened. -/
def StillNamed (s : System P) : Action P → Prop
  | .flock p (.granted _) => ∀ inode mode, s.process p = .opened inode mode → s.path = some inode
  | _ => True

instance (s : System P) : ∀ a, Decidable (StillNamed s a)
  | .flock p (.granted _) =>
    match h : s.process p with
    | .opened inode mode =>
      decidable_of_iff (s.path = some inode)
        ⟨fun hpath _ _ heq => by
          rw [h] at heq
          cases heq
          exact hpath, fun hall => hall inode mode h⟩
    | .idle | .failed | .held .. | .unlinking _ | .unlocking _ | .closing =>
      isTrue fun _ _ heq => by
        rw [h] at heq
        cases heq
  | .flock _ .wouldBlock | .flock _ .error | .openPath .. | .freeLockfile _ | .unlink _ | .unlock _
  | .close _ => isTrue trivial

/-- A process at a place has the lock of its inode, and until it unlinks the path the inode has
its name. -/
structure LockInv (s : System P) : Prop where
  locked : ∀ p inode, (s.process p).locked = some inode → s.lock inode = some p
  named : ∀ p inode, (s.process p).named = some inode → s.path = some inode

theorem Pc.locked_of_named {pc : Pc} {inode : ℕ} (h : pc.named = some inode) :
    pc.locked = some inode := by
  cases pc <;> first | exact h | cases h

variable {s s' : System P} {p : P} {pc : Pc}

omit [DecidableEq P] in
/-- The inode that has the name is locked by one process. -/
theorem LockInv.named_unique (h : LockInv s) {p q : P} {i j : ℕ}
    (hp : (s.process p).named = some i) (hq : (s.process q).named = some j) : p = q := by
  have hpath := (h.named p i hp).symm.trans (h.named q j hq)
  obtain rfl : i = j := Option.some.inj hpath
  have hlock := (h.locked p i (Pc.locked_of_named hp)).symm.trans
    (h.locked q i (Pc.locked_of_named hq))
  exact Option.some.inj hlock

omit [DecidableEq P] in
theorem LockInv.exclusive (h : LockInv s) : Exclusive s := by
  have hnamed : ∀ p, (s.process p).holds = true → ∃ inode, (s.process p).named = some inode := by
    intro p hp
    cases hpc : s.process p with
    | held inode path => exact ⟨inode, rfl⟩
    | idle | opened | failed | unlinking | unlocking | closing =>
      rw [hpc] at hp
      cases hp
  intro p q hp hq
  obtain ⟨i, hi⟩ := hnamed p hp
  obtain ⟨j, hj⟩ := hnamed q hq
  exact h.named_unique hi hj

/-- A move that takes no lock and no name. -/
theorem LockInv.moves (h : LockInv s)
    (hlocked : ∀ inode, pc.locked = some inode → (s.process p).locked = some inode)
    (hnamed : ∀ inode, pc.named = some inode → (s.process p).named = some inode) :
    LockInv (s.move p pc) := by
  refine ⟨?_, ?_⟩
  · unfold System.move
    rw [Function.forall_update_iff s.process fun q pc =>
      ∀ inode, pc.locked = some inode → s.lock inode = some q]
    exact ⟨fun inode hi => h.locked p inode (hlocked inode hi), fun q _ => h.locked q⟩
  · unfold System.move
    rw [Function.forall_update_iff s.process fun _ pc =>
      ∀ inode, pc.named = some inode → s.path = some inode]
    exact ⟨fun inode hi => h.named p inode (hnamed inode hi), fun q _ => h.named q⟩

omit [DecidableEq P] in
/-- A new inode gets a name only if no process relies on the name. -/
theorem LockInv.openPath (h : LockInv s) : LockInv s.openPath.2 := by
  unfold System.openPath
  split
  · exact h
  · next hpath =>
    refine ⟨h.locked, fun q inode hq => ?_⟩
    rw [h.named q inode hq] at hpath
    cases hpath

/-- A process locks an inode that nobody has locked. -/
theorem LockInv.grants (h : LockInv s) {inode : ℕ} (hfree : s.lock inode = none)
    (hpath : s.path = some inode) (copied : Bool) :
    LockInv { s.move p (.held inode copied) with
      lock := update s.lock inode (some p) } := by
  refine ⟨?_, ?_⟩
  · show ∀ q i, (update s.process p (.held inode copied) q).locked = some i →
      update s.lock inode (some p) i = some q
    rw [Function.forall_update_iff s.process fun q pc => ∀ i, pc.locked = some i →
      update s.lock inode (some p) i = some q]
    constructor
    · intro i hi
      obtain rfl : inode = i := Option.some.inj hi
      exact update_self ..
    · intro q _ i hi
      have hlock := h.locked q i hi
      have hne : i ≠ inode := by
        rintro rfl
        rw [hfree] at hlock
        cases hlock
      rw [update_of_ne hne]
      exact hlock
  · show ∀ q i, (update s.process p (.held inode copied) q).named = some i →
      s.path = some i
    rw [Function.forall_update_iff s.process fun _ pc => ∀ i, pc.named = some i → s.path = some i]
    refine ⟨fun i hi => ?_, fun q _ => h.named q⟩
    rw [hpath]
    exact hi

/-- The process that unlinks the path is the one whose inode has the name. -/
theorem LockInv.unlinks (h : LockInv s) {inode : ℕ} (hp : s.process p = .unlinking inode) :
    LockInv { s.move p (.unlocking inode) with path := none } := by
  have hnamed : (s.process p).named = some inode := by rw [hp]; rfl
  refine ⟨?_, ?_⟩
  · show ∀ q i, (update s.process p (.unlocking inode) q).locked = some i →
      s.lock i = some q
    rw [Function.forall_update_iff s.process fun q pc => ∀ i, pc.locked = some i →
      s.lock i = some q]
    refine ⟨fun i hi => h.locked p i ?_, fun q _ => h.locked q⟩
    rw [hp]
    exact hi
  · show ∀ q i, (update s.process p (.unlocking inode) q).named = some i → none = some i
    rw [Function.forall_update_iff s.process fun _ pc => ∀ i, pc.named = some i → none = some i]
    refine ⟨nofun, fun q hq i hi => ?_⟩
    exact absurd (h.named_unique hi hnamed) hq

/-- A process unlocks its inode. -/
theorem LockInv.unlocks (h : LockInv s) {inode : ℕ} (hp : s.process p = .unlocking inode) :
    LockInv { s.move p .closing with lock := update s.lock inode none } := by
  have hown : s.lock inode = some p := h.locked p inode (by rw [hp]; rfl)
  refine ⟨?_, ?_⟩
  · show ∀ q i, (update s.process p .closing q).locked = some i →
      update s.lock inode none i = some q
    rw [Function.forall_update_iff s.process fun q pc => ∀ i, pc.locked = some i →
      update s.lock inode none i = some q]
    refine ⟨nofun, fun q hq i hi => ?_⟩
    have hlock := h.locked q i hi
    have hne : i ≠ inode := by
      rintro rfl
      exact hq (Option.some.inj (hlock.symm.trans hown))
    rw [update_of_ne hne]
    exact hlock
  · show ∀ q i, (update s.process p .closing q).named = some i → s.path = some i
    rw [Function.forall_update_iff s.process fun _ pc => ∀ i, pc.named = some i → s.path = some i]
    exact ⟨nofun, fun q _ => h.named q⟩

theorem LockInv.step {a : Action P} (h : LockInv s) (hok : StillNamed s a)
    (hstep : step s a = some s') : LockInv s' := by
  cases a with
  | openPath p mode =>
    obtain ⟨_, rfl⟩ := of_guard hstep
    exact h.openPath.moves nofun nofun
  | flock p r =>
    unfold Flock.step at hstep
    dsimp only at hstep
    split at hstep
    · next inode mode copied hp =>
      obtain ⟨hfree, rfl⟩ := of_guard hstep
      exact h.grants hfree (hok inode mode hp) copied
    · obtain ⟨_, rfl⟩ := of_guard hstep
      exact h.moves nofun nofun
    · cases hstep
      exact h.moves nofun nofun
    · cases hstep
  | freeLockfile p =>
    rw [Flock.step] at hstep
    split at hstep
    · next inode path hp =>
      cases hstep
      cases path <;> refine h.moves (fun i hi => ?_) (fun i hi => ?_) <;> rw [hp] <;>
        first | exact hi | cases hi
    · cases hstep
  | unlink p =>
    rw [Flock.step] at hstep
    split at hstep
    · next inode hp =>
      cases hstep
      exact h.unlinks hp
    · cases hstep
  | unlock p =>
    rw [Flock.step] at hstep
    split at hstep
    · next inode hp =>
      cases hstep
      exact h.unlocks hp
    · cases hstep
  | close p =>
    rw [Flock.step] at hstep
    split at hstep
    · cases hstep
      exact h.moves nofun nofun
    · cases hstep
      exact h.moves nofun nofun
    · cases hstep

omit [DecidableEq P] in
theorem LockInv.fresh : LockInv (.fresh P) := ⟨nofun, nofun⟩

/-- **The lock file excludes.** In every run in which the inode that a process locks still has its
name, at most one process has the lock file. -/
theorem lockfile_excludes (as : List (Action P)) (s : System P)
    (hrun : Run step StillNamed (.fresh P) as s) : Exclusive s :=
  have hinv : LockInv s := hrun.invariant (fun _ _ _ h hok hstep => h.step hok hstep) .fresh
  hinv.exclusive

/-- Process 0 has the lock file, process 1 finds it locked; when process 0 has freed it, process 2
makes a new one. -/
def lockRun : List (Action (Fin 3)) :=
  [.openPath 0 .nonblocking, .flock 0 (.granted true), .openPath 1 .nonblocking,
    .flock 1 .wouldBlock, .close 1, .freeLockfile 0, .unlink 0, .openPath 2 .blocking, .unlock 0,
    .flock 2 (.granted false)]

theorem lockfile_excludes_lockRun :
    ∃ s, Run step StillNamed (.fresh (Fin 3)) lockRun s ∧ Exclusive s ∧
      s.process 2 = .held 1 false := by
  have hexec : (exec step StillNamed (.fresh (Fin 3)) lockRun).map (fun s => s.process 2) =
      some (.held 1 false) := by decide +kernel
  obtain ⟨s, hrun, hval⟩ := Run.of_exec_map hexec
  exact ⟨s, hrun, lockfile_excludes lockRun s hrun, hval⟩

/-- Process 1 waits for the inode that process 0 unlinks and unlocks; process 2 makes a new lock
file in between. Both have it. -/
theorem two_holders :
    ¬ ∀ as (s : System (Fin 3)), Run step (fun _ _ => True) (.fresh (Fin 3)) as s →
      Exclusive s := by
  intro hall
  have hexec : (exec step (fun _ _ => True) (.fresh (Fin 3))
      [.openPath 0 .blocking, .flock 0 (.granted true), .openPath 1 .blocking, .freeLockfile 0,
        .unlink 0, .openPath 2 .blocking, .flock 2 (.granted true), .unlock 0,
        .flock 1 (.granted true)]).map
      (fun s => ((s.process 1).holds, (s.process 2).holds)) = some (true, true) := by
    decide +kernel
  obtain ⟨s, hs, hval⟩ := Run.of_exec_map hexec
  obtain ⟨h1, h2⟩ := Prod.mk.inj hval
  have heq := hall _ s hs 1 2 h1 h2
  revert heq
  decide

end Loopy.Flock
