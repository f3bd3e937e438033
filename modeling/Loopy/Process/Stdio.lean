import Loopy.Lib.Descriptors

/-!
# `processSetupStdio`

The pipes of a spawn. The kernel answers every `pipe` call with two numbers or with an error; the
numbers are any that are free (`Granted`). `O_NONBLOCK` on the ends of the parent and the error
string, which is freed with the handle, are left out.
-/

namespace Loopy.Process

open Loopy.Lib
open Function (update update_of_ne update_self)

variable {F : Type*}

/-- `loopyStdioContainer`; only `LOOPY_STDIO_INHERIT_FD` reads `fd`. -/
inductive Stdio
  | ignore
  | createPipe
  | inheritFd (fd : ℕ)
  | inherit
deriving DecidableEq, Repr

/-- What a number refers to after the fork: a file that was there at the call or was opened by
name, or an end of the pipe that was created for `stdio[i]`. -/
inductive File (F : Type*)
  | named (f : F)
  | pipe (i : ℕ) (writeEnd : Bool)
deriving DecidableEq, Repr

/-- `stdioPipes`: the read end and the write end, or `none` for two times −1. -/
abbrev StdioPipes := ℕ → Option (ℕ × ℕ)

namespace StdioPipes

/-- `stdioPipes[i][0]` or `stdioPipes[i][1]`. -/
def fd (pipes : StdioPipes) (i : ℕ) (writeEnd : Bool) : Option ℕ :=
  (pipes i).map fun fds => if writeEnd then fds.2 else fds.1

/-- The end that the child uses: it reads its `stdin`. -/
def childFd (pipes : StdioPipes) (i : ℕ) : Option ℕ := pipes.fd i (i ≠ 0)

/-- The end of the parent. -/
def parentFd (pipes : StdioPipes) (i : ℕ) : Option ℕ := pipes.fd i (i = 0)

/-- The numbers of the ends. -/
def fds (pipes : StdioPipes) : List ℕ :=
  [0, 1, 2].flatMap fun i => [false, true].filterMap (pipes.fd i)

/-- The ends of the parent. -/
def parentFds (pipes : StdioPipes) : List ℕ := [0, 1, 2].filterMap pipes.parentFd

/-- The ends of the child. -/
def childFds (pipes : StdioPipes) : List ℕ := [0, 1, 2].filterMap pipes.childFd

end StdioPipes

/-- The pipes that have been created, the descriptors, and the numbers that `pipe` has returned. -/
structure Setup (F : Type*) where
  stdioPipes : StdioPipes
  table : Descriptors (File F)
  opened : List ℕ

/-- The body of the loop of `processSetupStdio`, if `pipe` answers `answer i`. -/
def setupPipe (stdio : ℕ → Stdio) (answer : ℕ → Option (ℕ × ℕ)) (u : Setup F) (i : ℕ) :
    Except (Setup F) (Setup F) :=
  if stdio i = .createPipe then
    match answer i with
    | none => .error u
    | some (r, w) =>
      .ok
        { stdioPipes := update u.stdioPipes i (some (r, w))
          table := (u.table.set r (.pipe i false)).set w (.pipe i true)
          opened := u.opened ++ [r, w] }
  else .ok u

/-- `processSetupStdio`; an error leaves the pipes that were created before it. -/
def processSetupStdio (table : Descriptors F) (stdio : ℕ → Stdio) (answer : ℕ → Option (ℕ × ℕ)) :
    Except (Setup F) (Setup F) :=
  [0, 1, 2].foldlM (setupPipe stdio answer) ⟨fun _ => none, table.map .named, []⟩

/-- The kernel gives out numbers that are free, and every number once. -/
structure Granted (table : Descriptors F) (pipes : StdioPipes) : Prop where
  free : ∀ i w n, pipes.fd i w = some n → table.file n = none
  distinct : ∀ i j v w n, pipes.fd i v = some n → pipes.fd j w = some n → i = j ∧ v = w

/-- The setup, or what a failure leaves of it. -/
def setupOf : Except (Setup F) (Setup F) → Setup F
  | .error u => u
  | .ok u => u

/-! ## What is set up -/

/-- The pipes are in the table, and the other numbers are as they were at the call. -/
structure SetUp (table : Descriptors F) (u : Setup F) : Prop where
  pipe : ∀ i w n, u.stdioPipes.fd i w = some n → u.table.file n = some (.pipe i w)
  other : ∀ n, (∀ i w, u.stdioPipes.fd i w ≠ some n) →
    u.table.file n = (table.file n).map .named
  opened : ∀ n, n ∈ u.opened ↔ ∃ i w, u.stdioPipes.fd i w = some n

variable {table : Descriptors F} {stdio : ℕ → Stdio} {answer : ℕ → Option (ℕ × ℕ)}
  {u v : Setup F} {pipes : StdioPipes} {i j n r w : ℕ}

theorem fd_update_self (b : Bool) :
    StdioPipes.fd (update pipes i (some (r, w))) i b = some (if b then w else r) := by
  unfold StdioPipes.fd
  rw [update_self]
  rfl

theorem fd_update_of_ne (h : j ≠ i) (e : Option (ℕ × ℕ)) (b : Bool) :
    StdioPipes.fd (update pipes i e) j b = pipes.fd j b := by
  unfold StdioPipes.fd
  rw [update_of_ne h]

/-- The numbers of a new pipe. -/
theorem fd_update_iff (b : Bool) :
    StdioPipes.fd (update pipes i (some (r, w))) j b = some n ↔
      (j = i ∧ (if b then w else r) = n) ∨ (j ≠ i ∧ pipes.fd j b = some n) := by
  by_cases hj : j = i
  · subst hj
    rw [fd_update_self, Option.some_inj]
    simp
  · rw [fd_update_of_ne hj]
    simp [hj]

/-- One turn fails, creates no pipe, or creates one. -/
theorem setupPipe_cases (stdio : ℕ → Stdio) (answer : ℕ → Option (ℕ × ℕ)) (u : Setup F) (i : ℕ) :
    (stdio i = .createPipe ∧ setupPipe stdio answer u i = .error u) ∨
      (stdio i ≠ .createPipe ∧ setupPipe stdio answer u i = .ok u) ∨
      ∃ r w, stdio i = .createPipe ∧ setupPipe stdio answer u i =
        .ok ⟨update u.stdioPipes i (some (r, w)),
          (u.table.set r (.pipe i false)).set w (.pipe i true), u.opened ++ [r, w]⟩ := by
  unfold setupPipe
  by_cases hpipe : stdio i = .createPipe
  · rw [if_pos hpipe]
    cases answer i with
    | none => exact .inl ⟨hpipe, rfl⟩
    | some fds => exact .inr (.inr ⟨fds.1, fds.2, hpipe, rfl⟩)
  · rw [if_neg hpipe]
    exact .inr (.inl ⟨hpipe, rfl⟩)

/-- A new pipe is set up. -/
theorem SetUp.create (h : SetUp table u) (hnew : u.stdioPipes i = none)
    (hgrant : Granted table (update u.stdioPipes i (some (r, w)))) :
    SetUp table ⟨update u.stdioPipes i (some (r, w)),
      (u.table.set r (.pipe i false)).set w (.pipe i true), u.opened ++ [r, w]⟩ := by
  have hne : r ≠ w := by
    rintro rfl
    have hends := hgrant.distinct i i false true r (fd_update_self _) (fd_update_self _)
    cases hends.2
  have hfresh : ∀ j b n, u.stdioPipes.fd j b = some n → j ≠ i ∧ n ≠ r ∧ n ≠ w := by
    intro j b n hn
    have hj : j ≠ i := by
      rintro rfl
      unfold StdioPipes.fd at hn
      rw [hnew] at hn
      cases hn
    have hn' := (fd_update_of_ne hj (some (r, w)) b).trans hn
    refine ⟨hj, ?_, ?_⟩
    · rintro rfl
      exact hj (hgrant.distinct j i b false n hn' (fd_update_self _)).1
    · rintro rfl
      exact hj (hgrant.distinct j i b true n hn' (fd_update_self _)).1
  constructor
  · intro j b n hn
    dsimp only at hn ⊢
    rw [Descriptors.file_set, Descriptors.file_set]
    rcases (fd_update_iff b).mp hn with ⟨rfl, rfl⟩ | ⟨hj, hn⟩
    · cases b with
      | false => rw [if_neg Bool.false_ne_true, update_of_ne hne, update_self]
      | true => rw [if_pos rfl, update_self]
    · obtain ⟨-, hr, hw⟩ := hfresh j b n hn
      rw [update_of_ne hw, update_of_ne hr]
      exact h.pipe j b n hn
  · intro n hn
    dsimp only at hn ⊢
    have hr : n ≠ r := by
      rintro rfl
      exact hn i false (fd_update_self _)
    have hw : n ≠ w := by
      rintro rfl
      exact hn i true (fd_update_self _)
    rw [Descriptors.file_set, Descriptors.file_set, update_of_ne hw,
      update_of_ne hr]
    refine h.other n fun j b hj => hn j b ?_
    rw [fd_update_of_ne (hfresh j b n hj).1]
    exact hj
  · intro n
    dsimp only
    rw [List.mem_append, h.opened n, List.mem_pair]
    constructor
    · rintro (⟨j, b, hj⟩ | rfl | rfl)
      · exact ⟨j, b, (fd_update_iff b).mpr (.inr ⟨(hfresh j b n hj).1, hj⟩)⟩
      · exact ⟨i, false, fd_update_self _⟩
      · exact ⟨i, true, fd_update_self _⟩
    · rintro ⟨j, b, hj⟩
      rcases (fd_update_iff b).mp hj with ⟨-, hn⟩ | ⟨-, hj⟩
      · cases b with
        | false => exact .inr (.inl hn.symm)
        | true => exact .inr (.inr hn.symm)
      · exact .inl ⟨j, b, hj⟩

/-- What the loop of `processSetupStdio` does from `i` on. -/
structure SetupLoop (table : Descriptors F) (stdio : ℕ → Stdio) (is : List ℕ) (u : Setup F)
    (res : Except (Setup F) (Setup F)) : Prop where
  kept : ∀ j e, u.stdioPipes j = some e → (setupOf res).stdioPipes j = some e
  created : ∀ j, (setupOf res).stdioPipes j ≠ none →
    u.stdioPipes j ≠ none ∨ j ∈ is ∧ stdio j = .createPipe
  setUp : SetUp table u → Granted table (setupOf res).stdioPipes → SetUp table (setupOf res)
  done : ∀ v, res = .ok v → ∀ j ∈ is, stdio j = .createPipe → v.stdioPipes j ≠ none

theorem Granted.of_subset {pipes' : StdioPipes} (h : Granted table pipes')
    (hsub : ∀ j e, pipes j = some e → pipes' j = some e) : Granted table pipes := by
  have hfd : ∀ j b n, pipes.fd j b = some n → pipes'.fd j b = some n := by
    intro j b n hn
    obtain ⟨e, he, hn⟩ := Option.map_eq_some_iff.mp hn
    exact Option.map_eq_some_iff.mpr ⟨e, hsub j e he, hn⟩
  exact ⟨fun i b n hn => h.free i b n (hfd i b n hn), fun i j a b n hi hj =>
    h.distinct i j a b n (hfd i a n hi) (hfd j b n hj)⟩

theorem setupLoop (table : Descriptors F) {is : List ℕ} (hnodup : is.Nodup)
    (hnew : ∀ i ∈ is, u.stdioPipes i = none) :
    SetupLoop table stdio is u (is.foldlM (setupPipe stdio answer) u) := by
  induction is generalizing u with
  | nil =>
    refine ⟨fun _ _ he => he, fun _ hj => .inl hj, fun h _ => h, ?_⟩
    intro _ _ j hj
    cases hj
  | cons i is ih =>
    obtain ⟨hi, hnodup⟩ := List.nodup_cons.mp hnodup
    have hrest : ∀ j ∈ is, u.stdioPipes j = none := fun j hj => hnew j (List.mem_cons_of_mem i hj)
    rw [List.foldlM_cons]
    rcases setupPipe_cases stdio answer u i with ⟨-, hstep⟩ | ⟨hskip, hstep⟩ | ⟨r, w, hpipe, hstep⟩
    · rw [hstep]
      refine ⟨fun _ _ he => he, fun _ hj => .inl hj, fun h _ => h, ?_⟩
      intro v hv
      cases hv
    · rw [hstep]
      have h := ih hnodup hrest
      refine ⟨h.kept, fun j hj => (h.created j hj).imp_right ?_, h.setUp, ?_⟩
      · rintro ⟨hmem, hpipe⟩
        exact ⟨List.mem_cons_of_mem i hmem, hpipe⟩
      · intro v hv j hj hpipe
        rcases List.mem_cons.mp hj with rfl | hj
        · exact absurd hpipe hskip
        · exact h.done v hv j hj hpipe
    · rw [hstep]
      have hupdate : ∀ j ∈ is, update u.stdioPipes i (some (r, w)) j = none := by
        intro j hj
        rw [update_of_ne (ne_of_mem_of_not_mem hj hi)]
        exact hrest j hj
      have h := ih (u := ⟨update u.stdioPipes i (some (r, w)),
        (u.table.set r (.pipe i false)).set w (.pipe i true), u.opened ++ [r, w]⟩) hnodup hupdate
      refine ⟨fun j e he => h.kept j e ?_, fun j hj => ?_, fun hu hgrant => ?_, ?_⟩
      · have hj : j ≠ i := by
          rintro rfl
          rw [hnew j List.mem_cons_self] at he
          cases he
        dsimp only
        rw [update_of_ne hj]
        exact he
      · by_cases hj' : j = i
        · subst hj'
          exact .inr ⟨List.mem_cons_self, hpipe⟩
        · rcases h.created j hj with hold | ⟨hmem, hpipe⟩
          · dsimp only at hold
            rw [update_of_ne hj'] at hold
            exact .inl hold
          · exact .inr ⟨List.mem_cons_of_mem i hmem, hpipe⟩
      · exact h.setUp (hu.create (hnew i List.mem_cons_self) (hgrant.of_subset h.kept)) hgrant
      · intro v hv j hj hpipe
        rcases List.mem_cons.mp hj with rfl | hj
        · have hself := h.kept j (r, w) (update_self ..)
          rw [show List.foldlM (setupPipe stdio answer) _ is = Except.ok v from hv] at hself
          intro hnone
          rw [show v.stdioPipes j = some (r, w) from hself] at hnone
          cases hnone
        · exact h.done v hv j hj hpipe

theorem processSetupStdio_loop (table : Descriptors F) (stdio : ℕ → Stdio)
    (answer : ℕ → Option (ℕ × ℕ)) :
    SetupLoop table stdio [0, 1, 2] ⟨fun _ => none, table.map .named, []⟩
      (processSetupStdio table stdio answer) :=
  setupLoop table (by decide) fun _ _ => rfl

/-- Whether or not a pipe fails, the pipes that were created are set up. -/
theorem processSetupStdio_setUp
    (h : Granted table (setupOf (processSetupStdio table stdio answer)).stdioPipes) :
    SetUp table (setupOf (processSetupStdio table stdio answer)) := by
  refine (processSetupStdio_loop table stdio answer).setUp ⟨?_, fun n _ => rfl, fun n => ?_⟩ h
  · intro i b n hn
    cases hn
  · constructor
    · intro hn
      cases hn
    · rintro ⟨i, b, hn⟩
      cases hn

theorem processSetupStdio_lt (hi : (setupOf (processSetupStdio table stdio answer)).stdioPipes i ≠
    none) : i < 3 ∧ stdio i = .createPipe := by
  rcases (processSetupStdio_loop table stdio answer).created i hi with hno | ⟨hmem, hpipe⟩
  · exact absurd rfl hno
  · simp only [List.mem_cons, List.not_mem_nil, or_false] at hmem
    exact ⟨by omega, hpipe⟩

theorem processSetupStdio_fd_lt {b : Bool}
    (hn : (setupOf (processSetupStdio table stdio answer)).stdioPipes.fd i b = some n) : i < 3 := by
  obtain ⟨e, he, -⟩ := Option.map_eq_some_iff.mp hn
  have hi : (setupOf (processSetupStdio table stdio answer)).stdioPipes i ≠ none := by
    rw [he]
    exact Option.some_ne_none e
  exact (processSetupStdio_lt hi).1

/-- If nothing fails, there is a pipe for every `LOOPY_STDIO_CREATE_PIPE`. -/
theorem processSetupStdio_ok (hok : processSetupStdio table stdio answer = .ok u) :
    u.stdioPipes i ≠ none ↔ i < 3 ∧ stdio i = .createPipe := by
  constructor
  · intro hi
    have hsetup : setupOf (processSetupStdio table stdio answer) = u := congrArg setupOf hok
    rw [← hsetup] at hi
    exact processSetupStdio_lt hi
  · rintro ⟨hi, hpipe⟩
    refine (processSetupStdio_loop table stdio answer).done u hok i ?_ hpipe
    simp only [List.mem_cons, List.not_mem_nil, or_false]
    omega

/-- The numbers of three pipes are free and distinct. -/
theorem Granted.of_setup
    (hfree : ∀ i < 3, ∀ b, ∀ n ∈ (setupOf (processSetupStdio table stdio answer)).stdioPipes.fd i b,
      table.file n = none)
    (hdistinct : ∀ i < 3, ∀ j < 3, ∀ b c,
      ∀ n ∈ (setupOf (processSetupStdio table stdio answer)).stdioPipes.fd i b,
        (setupOf (processSetupStdio table stdio answer)).stdioPipes.fd j c = some n →
          (i, b) = (j, c)) :
    Granted table (setupOf (processSetupStdio table stdio answer)).stdioPipes := by
  constructor
  · intro i b n hn
    exact hfree i (processSetupStdio_fd_lt hn) b n hn
  · intro i j b c n hi hj
    exact Prod.mk.inj (hdistinct i (processSetupStdio_fd_lt hi) j (processSetupStdio_fd_lt hj) b c
      n hi hj)

/-- The numbers of the ends. -/
theorem StdioPipes.mem_fds : n ∈ pipes.fds ↔ ∃ i < 3, ∃ b, pipes.fd i b = some n := by
  unfold StdioPipes.fds
  simp only [List.mem_flatMap, List.mem_filterMap, List.mem_cons, List.not_mem_nil, or_false]
  constructor
  · rintro ⟨i, hi, b, -, hn⟩
    exact ⟨i, by omega, b, hn⟩
  · rintro ⟨i, hi, b, hn⟩
    exact ⟨i, by omega, b, by cases b <;> simp, hn⟩

/-- The descriptors 0 to 3 are open. -/
def fourOpen : Descriptors ℕ where
  file n := if n < 4 then some n else none
  size := 4
  free n hn := if_neg (by omega)

end Loopy.Process
