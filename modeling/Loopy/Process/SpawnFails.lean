import Loopy.Process.Exits
import Loopy.Process.Stdio

/-!
# A spawn that fails

The error exits of `loopyProcessSpawn` free the handle with `loopyProcessFree`. The pipes are
closed as they should be, but the handle is not in the list yet: its links are null, so it is taken
for the only one. With handles in the list they are all dropped, and the manager is destroyed with
its `SIGCHLD` registration; `spawnFailed_iff` says that this is the only thing that goes wrong.
-/

namespace Loopy.Process

open Loopy.Lib
open Function (update update_idem update_of_ne update_self)

variable {F : Type*}

/-! ## The error exits -/

/-- The program with its descriptors; `closed` is what the spawn has passed to `close`. -/
structure Host (F : Type*) where
  system : System
  table : Descriptors (File F)
  opened : List ℕ
  closed : List ℕ

namespace Host

/-- `close`. -/
def close (h : Host F) (n : ℕ) : Host F :=
  { h with table := h.table.close n, closed := h.closed ++ [n] }

/-- The first loop of `loopyProcessFree`. -/
def closeRemaining (h : Host F) (pipes : StdioPipes) : Host F := pipes.fds.foldl close h

end Host

namespace System

/-- The handle that `loopyProcessSpawn` has allocated; its number is used again if the spawn fails.
The pid is −1, which is the pid of no child; 0 is none either. -/
def allocate (s : System) (loop exitCb userData : ℕ) : System :=
  { s.setProcess s.spawned ⟨loop, 0, exitCb, userData, false, 0, 0, none, none⟩ with
    freed := update s.freed s.spawned false }

/-- The error exit: the pipes are closed, and the handle is freed. -/
def spawnError (s : System) (u : Setup F) (loop exitCb userData : ℕ) : Host F :=
  let h := Host.closeRemaining ⟨s.allocate loop exitCb userData, u.table, u.opened, []⟩ u.stdioPipes
  { h with system := h.system.loopyProcessFree s.spawned }

/-- `loopyProcessSpawn`, when a `pipe` call or else `fork` fails. -/
def loopyProcessSpawnFails (s : System) (table : Descriptors F) (loop exitCb userData : ℕ)
    (stdio : ℕ → Stdio) (answer : ℕ → Option (ℕ × ℕ)) : Option (Host F) :=
  (s.processCreateManager loop).map fun s =>
    s.spawnError (setupOf (processSetupStdio table stdio answer)) loop exitCb userData

end System

/-- Nothing has changed: the handles, their list, the manager with its `SIGCHLD` registration and
the descriptors are as they were, and every pipe was closed once. -/
structure Unchanged (s : System) (table : Descriptors F) (h : Host F) : Prop where
  handles : h.system.handles = s.handles
  process : ∀ n ∈ s.handles, h.system.process n = s.process n
  links : h.system.links.Holds s.handles
  manager : h.system.managerId = s.managerId
  table : h.table.file = (table.map .named).file
  once : h.closed.Nodup
  closed : ∀ n, n ∈ h.closed ↔ n ∈ h.opened

/-- What holds of a manager and its list between calls. -/
structure Managed (s : System) : Prop where
  links : s.links.Holds s.handles
  managed : s.manager.isSome = !s.handles.isEmpty

theorem ProcessInv.toManaged {s : System} (h : ProcessInv s) : Managed s := ⟨h.links, h.managed⟩

/-! ## The pipes -/

namespace Host

variable {h : Host F} {pipes : StdioPipes} {n : ℕ}

theorem foldl_close (ns : List ℕ) (h : Host F) :
    (ns.foldl close h).system = h.system ∧ (ns.foldl close h).opened = h.opened ∧
      (ns.foldl close h).closed = h.closed ++ ns ∧
      (ns.foldl close h).table = ns.foldl Descriptors.close h.table := by
  induction ns generalizing h with
  | nil => exact ⟨rfl, rfl, (List.append_nil _).symm, rfl⟩
  | cons m ns ih =>
    obtain ⟨hsystem, hopened, hclosed, htable⟩ := ih (h.close m)
    exact ⟨hsystem, hopened, hclosed.trans (List.append_assoc ..), htable⟩

end Host

/-- Every number of the pipes is there once. -/
theorem Granted.nodup_fds {table : Descriptors F} {pipes : StdioPipes} (h : Granted table pipes) :
    pipes.fds.Nodup := by
  unfold StdioPipes.fds
  rw [List.nodup_flatMap]
  constructor
  · intro i _
    refine List.Nodup.filterMap (fun b c n hb hc => ?_) (by decide)
    exact (h.distinct i i b c n hb hc).2
  · have hpairs : [0, 1, 2].Pairwise fun i j : ℕ => i ≠ j := by decide
    refine hpairs.imp fun {i j} hij n hi hj => hij ?_
    obtain ⟨b, -, hb⟩ := List.mem_filterMap.mp hi
    obtain ⟨c, -, hc⟩ := List.mem_filterMap.mp hj
    exact (h.distinct i j b c n hb hc).1

/-- Whatever the handles are, the descriptors are as before. -/
theorem spawnError_closes {table : Descriptors F} {stdio : ℕ → Stdio}
    {answer : ℕ → Option (ℕ × ℕ)} {u : Setup F}
    (hu : u = setupOf (processSetupStdio table stdio answer)) (h : Granted table u.stdioPipes)
    (s : System) (loop exitCb userData : ℕ) :
    (s.spawnError u loop exitCb userData).table.file = (table.map .named).file ∧
      (s.spawnError u loop exitCb userData).closed.Nodup ∧
      ∀ n, n ∈ (s.spawnError u loop exitCb userData).closed ↔
        n ∈ (s.spawnError u loop exitCb userData).opened := by
  subst hu
  have hsetUp := processSetupStdio_setUp h
  have hlt : ∀ i b n, (setupOf (processSetupStdio table stdio answer)).stdioPipes.fd i b = some n →
      i < 3 := fun _ _ _ hn => processSetupStdio_fd_lt hn
  generalize setupOf (processSetupStdio table stdio answer) = u at h hsetUp hlt
  have hfds : ∀ n, n ∈ u.stdioPipes.fds ↔ ∃ i b, u.stdioPipes.fd i b = some n := by
    intro n
    rw [StdioPipes.mem_fds]
    constructor
    · rintro ⟨i, -, b, hn⟩
      exact ⟨i, b, hn⟩
    · rintro ⟨i, b, hn⟩
      exact ⟨i, hlt i b n hn, b, hn⟩
  obtain ⟨-, hopened, hclosed, htable⟩ := Host.foldl_close u.stdioPipes.fds
    ⟨s.allocate loop exitCb userData, u.table, u.opened, []⟩
  refine ⟨funext fun n => ?_, ?_, fun n => ?_⟩
  · refine (congrArg (fun t : Descriptors (File F) => t.file n) htable).trans ?_
    rw [Descriptors.file_foldl_close]
    by_cases hn : n ∈ u.stdioPipes.fds
    · obtain ⟨i, b, hib⟩ := (hfds n).mp hn
      rw [if_pos hn, Descriptors.file_map, h.free i b n hib, Option.map_none]
    · rw [if_neg hn, Descriptors.file_map]
      exact hsetUp.other n fun i b hib => hn ((hfds n).mpr ⟨i, b, hib⟩)
  · show (u.stdioPipes.fds.foldl Host.close _).closed.Nodup
    rw [hclosed, List.nil_append]
    exact h.nodup_fds
  · show n ∈ (u.stdioPipes.fds.foldl Host.close _).closed ↔
      n ∈ (u.stdioPipes.fds.foldl Host.close _).opened
    rw [hclosed, hopened, List.nil_append, hfds, hsetUp.opened]

/-! ## The handles -/

namespace System

variable {s t : System} {loop exitCb userData : ℕ}

theorem spawnError_system (s : System) (u : Setup F) (loop exitCb userData : ℕ) :
    (s.spawnError u loop exitCb userData).system =
      (s.allocate loop exitCb userData).loopyProcessFree s.spawned := by
  obtain ⟨hsystem, -⟩ := Host.foldl_close u.stdioPipes.fds
    ⟨s.allocate loop exitCb userData, u.table, u.opened, []⟩
  exact congrArg (fun t : System => t.loopyProcessFree s.spawned) hsystem

/-- The handle is taken for the only one: the manager is destroyed. -/
theorem loopyProcessFree_allocate (h : s.processGetManager loop ≠ none) (exitCb userData : ℕ) :
    ((s.allocate loop exitCb userData).loopyProcessFree s.spawned).manager = none ∧
      ((s.allocate loop exitCb userData).loopyProcessFree s.spawned).spawned = s.spawned ∧
      ((s.allocate loop exitCb userData).loopyProcessFree s.spawned).freed =
        update s.freed s.spawned true := by
  have hself : (s.allocate loop exitCb userData).process s.spawned =
      ⟨loop, 0, exitCb, userData, false, 0, 0, none, none⟩ := update_self ..
  have hmanager : (s.allocate loop exitCb userData).processGetManager loop =
      s.processGetManager loop := rfl
  obtain ⟨mgr, hmgr⟩ := Option.ne_none_iff_exists'.mp h
  have hsome : s.manager = some mgr := (Option.filter_eq_some_iff.mp hmgr).1
  have hlist : ((s.allocate loop exitCb userData).setProcessList none).processList = none :=
    processList_setProcessList (by
      show s.manager.isSome = true
      rw [hsome]
      rfl) none
  unfold loopyProcessFree
  simp only [hself, hmanager, hmgr]
  unfold removeFromList
  simp only [hself, hlist, if_true]
  exact ⟨rfl, rfl, update_idem ..⟩

end System

/-- **A spawn that fails changes nothing if and only if there is no handle**, whichever of the
`pipe` calls or `fork` it is that fails. -/
theorem spawnFailed_iff {s : System} {table : Descriptors F} {loop exitCb userData : ℕ}
    {stdio : ℕ → Stdio} {answer : ℕ → Option (ℕ × ℕ)} {h : Host F} (hs : Managed s)
    (hgrant : Granted table (setupOf (processSetupStdio table stdio answer)).stdioPipes)
    (hfails : s.loopyProcessSpawnFails table loop exitCb userData stdio answer = some h) :
    Unchanged s table h ↔ s.handles = [] := by
  obtain ⟨t, hcreate, rfl⟩ := Option.map_eq_some_iff.mp hfails
  obtain ⟨hsame, ⟨mgr, hmgr, hloop⟩, -⟩ := System.processCreateManager_spec hcreate
  have hmanager : t.processGetManager loop ≠ none := by
    unfold System.processGetManager
    rw [hmgr, Option.filter_some, if_pos (decide_eq_true hloop)]
    exact Option.some_ne_none mgr
  have hspawned : t.spawned = s.spawned := by rw [hsame]
  have hfreed : t.freed = s.freed := by rw [hsame]
  have hsystem := t.spawnError_system (setupOf (processSetupStdio table stdio answer)) loop exitCb
    userData
  obtain ⟨hnone, hnumber, hgone⟩ :=
    System.loopyProcessFree_allocate hmanager exitCb userData
  rw [← hsystem] at hnone hnumber hgone
  constructor
  · -- the manager does not survive, so there was none
    intro h
    have hid := h.manager
    unfold System.managerId at hid
    rw [hnone, Option.map_none] at hid
    have hmgr := hs.managed
    rw [Option.map_eq_none_iff.mp hid.symm, Option.isSome_none] at hmgr
    cases hempty : s.handles.isEmpty with
    | true => exact List.isEmpty_iff.mp hempty
    | false =>
      rw [hempty] at hmgr
      cases hmgr
  · intro hempty
    have hmgr := hs.managed
    rw [hempty, List.isEmpty_nil, Bool.not_true, Option.isSome_eq_false_iff,
      Option.isNone_iff_eq_none] at hmgr
    obtain ⟨htable, honce, hclosed⟩ := spawnError_closes rfl hgrant t loop exitCb userData
    refine ⟨?_, ?_, ⟨?_, ?_⟩, ?_, htable, honce, hclosed⟩
    · unfold System.handles
      rw [hnumber, hgone, hspawned, hfreed]
      congr 1
      refine List.filter_congr fun n hn => ?_
      have hne : n ≠ s.spawned := by
        have := List.mem_range.mp hn
        omega
      rw [update_of_ne hne]
    · intro n hn
      rw [hempty] at hn
      cases hn
    · rw [hempty]
      show System.processList _ = none
      unfold System.processList
      rw [hnone]
      rfl
    · rw [hempty]
      trivial
    · unfold System.managerId
      rw [hnone, hmgr]

/-- The pipe for `stdout` cannot be created. -/
def secondPipeFails : ℕ → Option (ℕ × ℕ) := fun i => if i = 0 then some (4, 5) else none

theorem spawnFailed_start :
    ∃ h, System.start.loopyProcessSpawnFails fourOpen 1 7 70 (fun _ => .createPipe)
      secondPipeFails = some h ∧ h.closed = [4, 5] ∧ Unchanged .start fourOpen h := by
  refine ⟨_, rfl, rfl, (spawnFailed_iff ProcessInv.start.toManaged ?_ rfl).mpr rfl⟩
  exact .of_setup (by decide) (by decide)

theorem spawnFailed_drops :
    ¬ ∀ (as : List Action) (s : System) (loop exitCb userData : ℕ) (stdio : ℕ → Stdio)
        (answer : ℕ → Option (ℕ × ℕ)) (h : Host ℕ), Run System.step Admitted .start as s →
      Granted fourOpen (setupOf (processSetupStdio fourOpen stdio answer)).stdioPipes →
      s.loopyProcessSpawnFails fourOpen loop exitCb userData stdio answer = some h →
      Unchanged s fourOpen h := by
  intro hall
  -- one handle, and `fork` fails
  have hexec : (exec System.step Admitted .start [.spawn 1 7 70 5]).map (fun s => (s.managerId,
      (s.loopyProcessSpawnFails fourOpen 1 8 80 (fun _ => .inherit) fun _ => none).map
        fun h => h.system.managerId)) = some (some 0, some none) := by
    decide +kernel
  obtain ⟨s, hrun, hval⟩ := Run.of_exec_map hexec
  obtain ⟨hid, hfails⟩ := Prod.mk.inj hval
  obtain ⟨h, hfails, hgone⟩ := Option.map_eq_some_iff.mp hfails
  have hmanager := (hall _ s 1 8 80 _ _ h hrun (.of_setup (by decide) (by decide)) hfails).manager
  rw [hid, hgone] at hmanager
  cases hmanager

end Loopy.Process
