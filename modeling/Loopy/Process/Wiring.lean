import Loopy.Process.Stdio

/-!
# What the child gets as `stdin`, `stdout` and `stderr`

The child redirects its three descriptors one after the other and then closes the ends of the
pipes. A redirection reads a number that an earlier one may have written, `open` may return the
number that is redirected, and an end of the parent may have one of the three numbers when it is
closed. `wired_iff` tells exactly which of these coincidences go wrong.
-/

namespace Loopy.Process

open Loopy.Lib
open Function (update update_comm update_eq_self update_idem update_of_ne update_self)

variable {F : Type*}

/-! ## The child -/

/-- The body of the loop of the child: `devnull` is what `open("/dev/null", ..)` opens, for writing
or not. -/
def wire (devnull : Bool → F) (stdio : ℕ → Stdio) (pipes : StdioPipes) (t : Descriptors (File F))
    (i : ℕ) : Descriptors (File F) :=
  match stdio i with
  | .ignore =>
    let n := t.lowest
    ((t.set n (.named (devnull (i ≠ 0)))).dup2 n i).close n
  | .createPipe =>
    match pipes.childFd i with
    | some n => t.dup2 n i
    | none => t
  | .inheritFd fd => t.dup2 fd i
  | .inherit => t

/-- `processCloseUnusedPipes` in the child. -/
def closeParentFds (pipes : StdioPipes) (t : Descriptors (File F)) : Descriptors (File F) :=
  pipes.parentFds.foldl .close t

/-- The ends of the child are closed, unless they are one of the three descriptors. -/
def closeChildFds (pipes : StdioPipes) (t : Descriptors (File F)) : Descriptors (File F) :=
  (pipes.childFds.filter (2 < ·)).foldl .close t

/-- The descriptors of the child before `execve`. -/
def childTable (devnull : Bool → F) (stdio : ℕ → Stdio) (u : Setup F) : Descriptors (File F) :=
  closeChildFds u.stdioPipes <| closeParentFds u.stdioPipes <|
    [0, 1, 2].foldl (wire devnull stdio u.stdioPipes) u.table

/-! ## The specification -/

/-- The file that is requested for descriptor `i`, as the parent saw it at the call. -/
def requested (devnull : Bool → F) (table : Descriptors F) (stdio : ℕ → Stdio) (i : ℕ) :
    Option (File F) :=
  match stdio i with
  | .ignore => some (.named (devnull (i ≠ 0)))
  | .createPipe => some (.pipe i (i ≠ 0))
  | .inheritFd fd => (table.file fd).map .named
  | .inherit => (table.file i).map .named

/-- The three descriptors are what was requested, and no other one is an end of the parent. -/
structure Wired (devnull : Bool → F) (table : Descriptors F) (stdio : ℕ → Stdio)
    (t : Descriptors (File F)) : Prop where
  requested : ∀ i < 3, t.file i = requested devnull table stdio i
  closed : ∀ n, 2 < n → ∀ i, t.file n ≠ some (.pipe i (i = 0))

/-- The condition on descriptor `i`. -/
def WiringOk (devnull : Bool → F) (table : Descriptors F) (stdio : ℕ → Stdio) (pipes : StdioPipes)
    (i : ℕ) : Prop :=
  match stdio i with
  | .ignore =>
    -- `open` does not return `i`, since `i` is in use or a lower number is free
    i ∉ pipes.parentFds ∧ (table.file i ≠ none ∨ i ∈ pipes.fds ∨
      ∃ n < i, stdio n = .inherit ∧ table.file n = none ∧ n ∉ pipes.fds)
  | .createPipe =>
    -- the end of the child has not been overwritten
    i ∉ pipes.parentFds ∧ ∀ n ∈ pipes.childFd i, i ≤ n
  | .inheritFd fd =>
    -- the source has not been overwritten, or with the file that it had
    i ∉ pipes.parentFds ∧ (fd < i → requested devnull table stdio fd = (table.file fd).map .named)
  | .inherit => i ∉ pipes.childFds

/-! ## One redirection -/

section

variable {devnull : Bool → F} {table : Descriptors F} {stdio : ℕ → Stdio}
  {answer : ℕ → Option (ℕ × ℕ)} {pipes : StdioPipes} {t : Descriptors (File F)} {i n : ℕ}

/-- What is written to descriptor `i`. -/
def written (devnull : Bool → F) (stdio : ℕ → Stdio) (pipes : StdioPipes) (t : Descriptors (File F))
    (i : ℕ) : Option (File F) :=
  match stdio i with
  | .ignore => if t.lowest = i then none else some (.named (devnull (i ≠ 0)))
  | .createPipe => ((pipes.childFd i).bind t.file).or (t.file i)
  | .inheritFd fd => (t.file fd).or (t.file i)
  | .inherit => t.file i

theorem file_wire (devnull : Bool → F) (stdio : ℕ → Stdio) (pipes : StdioPipes)
    (t : Descriptors (File F)) (i : ℕ) :
    (wire devnull stdio pipes t i).file =
      update t.file i (written devnull stdio pipes t i) := by
  unfold wire written
  cases stdio i with
  | ignore =>
    have hfree := t.file_lowest
    dsimp only
    rw [Descriptors.file_close, Descriptors.file_dup2, Descriptors.file_set, update_self,
      Option.some_or]
    by_cases hi : t.lowest = i
    · rw [if_pos hi, hi, update_idem, update_idem]
    · rw [if_neg hi, update_comm (Ne.symm hi), update_idem, ← hfree,
        update_eq_self]
  | createPipe =>
    cases pipes.childFd i with
    | none => exact (update_eq_self ..).symm
    | some n => exact t.file_dup2 n i
  | inheritFd fd => exact t.file_dup2 fd i
  | inherit => exact (update_eq_self ..).symm

/-- The descriptors when the redirections below `i` are done. -/
def stage (devnull : Bool → F) (stdio : ℕ → Stdio) (u : Setup F) : ℕ → Descriptors (File F)
  | 0 => u.table
  | i + 1 => wire devnull stdio u.stdioPipes (stage devnull stdio u i) i

variable {u : Setup F}

theorem stage_of_le (h : i ≤ n) : (stage devnull stdio u i).file n = u.table.file n := by
  induction i with
  | zero => rfl
  | succ i ih =>
    unfold stage
    rw [file_wire, update_of_ne (by omega)]
    exact ih (by omega)

theorem stage_of_lt (h : n < i) :
    (stage devnull stdio u i).file n =
      written devnull stdio u.stdioPipes (stage devnull stdio u n) n := by
  induction i with
  | zero => omega
  | succ i ih =>
    have hstep : stage devnull stdio u (i + 1) =
      wire devnull stdio u.stdioPipes (stage devnull stdio u i) i := rfl
    rw [hstep, file_wire]
    by_cases hi : n = i
    · rw [hi, update_self]
    · rw [update_of_ne hi]
      exact ih (by omega)

/-- The descriptors of the child: an end of the parent is closed, whatever it is by then. -/
theorem childTable_file (hn : n < 3) :
    (childTable devnull stdio u).file n =
      if n ∈ u.stdioPipes.parentFds then none
      else written devnull stdio u.stdioPipes (stage devnull stdio u n) n := by
  have hstage : [0, 1, 2].foldl (wire devnull stdio u.stdioPipes) u.table =
    stage devnull stdio u 3 := rfl
  have hlow : n ∉ u.stdioPipes.childFds.filter (2 < ·) := by
    intro hmem
    have := of_decide_eq_true (List.mem_filter.mp hmem).2
    omega
  unfold childTable closeChildFds closeParentFds
  rw [Descriptors.file_foldl_close, Descriptors.file_foldl_close, if_neg hlow, hstage,
    stage_of_lt hn]

end

/-! ## The coincidences -/

section

variable {devnull : Bool → F} {table : Descriptors F} {stdio : ℕ → Stdio}
  {pipes : StdioPipes} {u : Setup F} {i n fd : ℕ}

/-- What is given for one of the three descriptors. -/
theorem mem_filterMap_three {f : ℕ → Option ℕ} :
    n ∈ [0, 1, 2].filterMap f ↔ ∃ i < 3, f i = some n := by
  simp only [List.mem_filterMap, List.mem_cons, List.not_mem_nil, or_false]
  constructor
  · rintro ⟨i, hi, hn⟩
    exact ⟨i, by omega, hn⟩
  · rintro ⟨i, hi, hn⟩
    exact ⟨i, by omega, hn⟩

theorem mem_parentFds : n ∈ pipes.parentFds ↔ ∃ i < 3, pipes.parentFd i = some n :=
  mem_filterMap_three

theorem mem_childFds : n ∈ pipes.childFds ↔ ∃ i < 3, pipes.childFd i = some n :=
  mem_filterMap_three

/-- An end is of the parent or of the child. -/
theorem mem_fds_iff : n ∈ pipes.fds ↔ n ∈ pipes.parentFds ∨ n ∈ pipes.childFds := by
  rw [StdioPipes.mem_fds, mem_parentFds, mem_childFds]
  unfold StdioPipes.parentFd StdioPipes.childFd
  constructor
  · rintro ⟨i, hi, b, hn⟩
    by_cases hb : b = decide (i = 0)
    · exact .inl ⟨i, hi, by rw [← hb]; exact hn⟩
    · have hb' : b = decide (i ≠ 0) := by
        rw [decide_not]
        exact Bool.eq_not_of_ne hb
      exact .inr ⟨i, hi, by rw [← hb']; exact hn⟩
  · rintro (⟨i, hi, hn⟩ | ⟨i, hi, hn⟩)
    · exact ⟨i, hi, _, hn⟩
    · exact ⟨i, hi, _, hn⟩

/-- An end of a pipe is not requested for another descriptor. -/
theorem requested_ne_pipe {b : Bool} (hn : n ≠ i) :
    requested devnull table stdio n ≠ some (.pipe i b) := by
  unfold requested
  cases stdio n with
  | ignore => simp
  | createPipe => simp [hn]
  | inheritFd fd => simp
  | inherit => simp

/-- What the child starts from: the pipes are set up, and the sources are open. -/
structure Forked (table : Descriptors F) (stdio : ℕ → Stdio) (u : Setup F) : Prop where
  granted : Granted table u.stdioPipes
  setUp : SetUp table u
  created : ∀ i, u.stdioPipes i ≠ none ↔ i < 3 ∧ stdio i = .createPipe
  source : ∀ i < 3, ∀ fd, stdio i = .inheritFd fd → table.file fd ≠ none

namespace Forked

variable (h : Forked table stdio u)

include h

/-- The end of the child of a pipe. -/
theorem childFd (hi : i < 3) (hpipe : stdio i = .createPipe) :
    ∃ n, u.stdioPipes.childFd i = some n := by
  obtain ⟨e, he⟩ := Option.ne_none_iff_exists'.mp ((h.created i).mpr ⟨hi, hpipe⟩)
  unfold StdioPipes.childFd StdioPipes.fd
  rw [he]
  exact ⟨_, rfl⟩

/-- The ends were free at the call. -/
theorem free (hn : n ∈ u.stdioPipes.fds) : table.file n = none := by
  obtain ⟨i, -, b, hib⟩ := StdioPipes.mem_fds.mp hn
  exact h.granted.free i b n hib

/-- An end refers to its pipe. -/
theorem file_of_mem (hn : n ∈ u.stdioPipes.fds) :
    ∃ i b, u.table.file n = some (.pipe i b) := by
  obtain ⟨i, -, b, hib⟩ := StdioPipes.mem_fds.mp hn
  exact ⟨i, b, h.setUp.pipe i b n hib⟩

/-- The other numbers are as they were at the call. -/
theorem file_of_not_mem (hn : n ∉ u.stdioPipes.fds) :
    u.table.file n = (table.file n).map .named := by
  refine h.setUp.other n fun i b hib => hn (StdioPipes.mem_fds.mpr ⟨i, ?_, b, hib⟩)
  obtain ⟨e, he, -⟩ := Option.map_eq_some_iff.mp hib
  refine ((h.created i).mp ?_).1
  rw [he]
  exact Option.some_ne_none e

/-- Only what was closed at the call is requested to be closed. -/
theorem requested_eq_none (hi : i < 3) :
    requested devnull table stdio i = none ↔ stdio i = .inherit ∧ table.file i = none := by
  unfold requested
  cases hflags : stdio i with
  | ignore => simp
  | createPipe => simp
  | inheritFd fd => simp [h.source i hi fd hflags]
  | inherit => simp

/-- An inherited descriptor that is an end of the parent was closed, and is closed again. -/
theorem wired_inherit (hflags : stdio i = .inherit) (hi : i < 3) :
    (childTable devnull stdio u).file i = requested devnull table stdio i ↔
      i ∉ u.stdioPipes.childFds := by
  have hwritten : written devnull stdio u.stdioPipes (stage devnull stdio u i) i =
      u.table.file i := by
    unfold written
    rw [hflags]
    exact stage_of_le (Nat.le_refl i)
  have hrequested : requested devnull table stdio i = (table.file i).map .named := by
    unfold requested
    rw [hflags]
  rw [childTable_file hi, hwritten, hrequested]
  by_cases hparent : i ∈ u.stdioPipes.parentFds
  · have hfds := mem_fds_iff.mpr (.inl hparent)
    rw [if_pos hparent, h.free hfds]
    refine iff_of_true rfl fun hchild => ?_
    obtain ⟨j, -, hj⟩ := mem_parentFds.mp hparent
    obtain ⟨k, -, hk⟩ := mem_childFds.mp hchild
    obtain ⟨rfl, hends⟩ := h.granted.distinct j k _ _ i hj hk
    simp at hends
  · rw [if_neg hparent]
    by_cases hchild : i ∈ u.stdioPipes.childFds
    · have hfds := mem_fds_iff.mpr (.inr hchild)
      obtain ⟨j, b, hpipe⟩ := h.file_of_mem hfds
      rw [hpipe, h.free hfds]
      exact iff_of_false (Option.some_ne_none _) (not_not.mpr hchild)
    · refine iff_of_true (h.file_of_not_mem fun hfds => ?_) hchild
      exact (mem_fds_iff.mp hfds).elim hparent hchild

theorem wired_createPipe (hflags : stdio i = .createPipe) (hi : i < 3)
    (hbefore : ∀ n < i, (childTable devnull stdio u).file n = requested devnull table stdio n) :
    (childTable devnull stdio u).file i = requested devnull table stdio i ↔
      i ∉ u.stdioPipes.parentFds ∧ ∀ n ∈ u.stdioPipes.childFd i, i ≤ n := by
  obtain ⟨c, hc⟩ := h.childFd hi hflags
  have hwritten : written devnull stdio u.stdioPipes (stage devnull stdio u i) i =
      ((stage devnull stdio u i).file c).or (u.table.file i) := by
    unfold written
    rw [hflags, hc, stage_of_le (Nat.le_refl i)]
    rfl
  have hrequested : requested devnull table stdio i = some (.pipe i (i ≠ 0)) := by
    unfold requested
    rw [hflags]
  rw [childTable_file hi, hwritten, hrequested, hc]
  by_cases hparent : i ∈ u.stdioPipes.parentFds
  · rw [if_pos hparent]
    exact iff_of_false (fun heq => by cases heq) fun hok => hok.1 hparent
  · rw [if_neg hparent]
    have hpipe : u.table.file c = some (.pipe i (i ≠ 0)) := h.setUp.pipe i _ c hc
    by_cases hle : i ≤ c
    · refine iff_of_true ?_ ⟨hparent, ?_⟩
      · rw [stage_of_le hle, hpipe, Option.some_or]
      · intro n hn
        obtain rfl := Option.some.inj hn
        exact hle
    · refine iff_of_false ?_ fun hok => hle (hok.2 c rfl)
      -- the end was overwritten with what is requested for its number
      have hlt : c < i := by omega
      have hchild : c ∈ u.stdioPipes.childFds := mem_childFds.mpr ⟨i, hi, hc⟩
      have hnot : c ∉ u.stdioPipes.parentFds := by
        intro hmem
        obtain ⟨j, -, hj⟩ := mem_parentFds.mp hmem
        obtain ⟨rfl, hends⟩ := h.granted.distinct j i _ _ c hj hc
        simp at hends
      have hright := hbefore c hlt
      rw [childTable_file (by omega), if_neg hnot] at hright
      rw [stage_of_lt hlt, hright]
      cases hreq : requested devnull table stdio c with
      | none =>
        have hinherit := (h.requested_eq_none (by omega)).mp hreq
        exact absurd hchild ((h.wired_inherit hinherit.1 (by omega)).mp (hbefore c hlt))
      | some f =>
        rw [Option.some_or, ← hreq]
        exact requested_ne_pipe (by omega)

theorem wired_inheritFd (hflags : stdio i = .inheritFd fd) (hi : i < 3)
    (hbefore : ∀ n < i, (childTable devnull stdio u).file n = requested devnull table stdio n) :
    (childTable devnull stdio u).file i = requested devnull table stdio i ↔
      i ∉ u.stdioPipes.parentFds ∧
        (fd < i → requested devnull table stdio fd = (table.file fd).map .named) := by
  have hopen := h.source i hi fd hflags
  have hfree : fd ∉ u.stdioPipes.fds := fun hmem => hopen (h.free hmem)
  have hwritten : written devnull stdio u.stdioPipes (stage devnull stdio u i) i =
      ((stage devnull stdio u i).file fd).or (u.table.file i) := by
    unfold written
    rw [hflags, stage_of_le (Nat.le_refl i)]
  have hrequested : requested devnull table stdio i = (table.file fd).map .named := by
    unfold requested
    rw [hflags]
  obtain ⟨f, hf⟩ := Option.ne_none_iff_exists'.mp hopen
  rw [childTable_file hi, hwritten, hrequested, hf, Option.map_some]
  by_cases hparent : i ∈ u.stdioPipes.parentFds
  · rw [if_pos hparent]
    exact iff_of_false (fun heq => by cases heq) fun hok => hok.1 hparent
  · rw [if_neg hparent]
    by_cases hlt : fd < i
    · have hright := hbefore fd hlt
      rw [childTable_file (by omega), if_neg fun hmem => hfree (mem_fds_iff.mpr (.inl hmem))] at hright
      rw [stage_of_lt hlt, hright]
      cases hreq : requested devnull table stdio fd with
      | none => exact absurd ((h.requested_eq_none (by omega)).mp hreq).2 hopen
      | some g =>
        rw [Option.some_or]
        exact ⟨fun heq => ⟨hparent, fun _ => heq⟩, fun hok => hok.2 hlt⟩
    · refine iff_of_true ?_ ⟨hparent, fun hlt' => absurd hlt' hlt⟩
      rw [stage_of_le (by omega), h.file_of_not_mem hfree, hf, Option.map_some, Option.some_or]

/-- A lower descriptor that is right is free only if it was, and is no end. -/
theorem written_eq_none (hi : i < 3)
    (hright : (childTable devnull stdio u).file i = requested devnull table stdio i) :
    written devnull stdio u.stdioPipes (stage devnull stdio u i) i = none ↔
      stdio i = .inherit ∧ table.file i = none ∧ i ∉ u.stdioPipes.fds := by
  have hinherit : stdio i = .inherit →
      written devnull stdio u.stdioPipes (stage devnull stdio u i) i = u.table.file i := by
    intro hflags
    unfold written
    rw [hflags]
    exact stage_of_le (Nat.le_refl i)
  have hend : stdio i = .inherit → i ∈ u.stdioPipes.fds →
      written devnull stdio u.stdioPipes (stage devnull stdio u i) i ≠ none := by
    intro hflags hmem
    obtain ⟨j, b, hpipe⟩ := h.file_of_mem hmem
    rw [hinherit hflags, hpipe]
    exact Option.some_ne_none _
  rw [childTable_file hi] at hright
  constructor
  · intro hnone
    rw [hnone, ite_self] at hright
    obtain ⟨hflags, hclosed⟩ := (h.requested_eq_none hi).mp hright.symm
    exact ⟨hflags, hclosed, fun hmem => hend hflags hmem hnone⟩
  · rintro ⟨hflags, hclosed, hmem⟩
    rw [hinherit hflags, h.file_of_not_mem hmem, hclosed, Option.map_none]

theorem wired_ignore (hflags : stdio i = .ignore) (hi : i < 3)
    (hbefore : ∀ n < i, (childTable devnull stdio u).file n = requested devnull table stdio n) :
    (childTable devnull stdio u).file i = requested devnull table stdio i ↔
      i ∉ u.stdioPipes.parentFds ∧ (table.file i ≠ none ∨ i ∈ u.stdioPipes.fds ∨
        ∃ n < i, stdio n = .inherit ∧ table.file n = none ∧ n ∉ u.stdioPipes.fds) := by
  have hwritten : written devnull stdio u.stdioPipes (stage devnull stdio u i) i =
      if (stage devnull stdio u i).lowest = i then none else some (.named (devnull (i ≠ 0))) := by
    unfold written
    rw [hflags]
  have hrequested : requested devnull table stdio i = some (.named (devnull (i ≠ 0))) := by
    unfold requested
    rw [hflags]
  -- `open` returns `i` if `i` is free and every lower number is in use
  have hlowest : (stage devnull stdio u i).lowest = i ↔
      ¬ (table.file i ≠ none ∨ i ∈ u.stdioPipes.fds ∨
        ∃ n < i, stdio n = .inherit ∧ table.file n = none ∧ n ∉ u.stdioPipes.fds) := by
    rw [Descriptors.lowest_eq_iff, stage_of_le (Nat.le_refl i)]
    constructor
    · rintro ⟨hfree, hused⟩ (hopen | hmem | ⟨n, hn, hnone⟩)
      · have hmem : i ∉ u.stdioPipes.fds := fun hmem => hopen (h.free hmem)
        rw [h.file_of_not_mem hmem] at hfree
        exact hopen (Option.map_eq_none_iff.mp hfree)
      · obtain ⟨j, b, hpipe⟩ := h.file_of_mem hmem
        rw [hpipe] at hfree
        cases hfree
      · refine hused n hn ?_
        rw [stage_of_lt hn]
        exact (h.written_eq_none (by omega) (hbefore n hn)).mpr hnone
    · intro hnot
      have hfree : table.file i = none := not_not.mp fun hopen => hnot (.inl hopen)
      have hmem : i ∉ u.stdioPipes.fds := fun hmem => hnot (.inr (.inl hmem))
      refine ⟨?_, fun n hn hnone => ?_⟩
      · rw [h.file_of_not_mem hmem, hfree, Option.map_none]
      · rw [stage_of_lt hn] at hnone
        have hlower := (h.written_eq_none (by omega) (hbefore n hn)).mp hnone
        exact hnot (.inr (.inr ⟨n, hn, hlower⟩))
  rw [childTable_file hi, hwritten, hrequested]
  by_cases hparent : i ∈ u.stdioPipes.parentFds
  · rw [if_pos hparent]
    exact iff_of_false (fun heq => by cases heq) fun hok => hok.1 hparent
  · rw [if_neg hparent]
    by_cases hself : (stage devnull stdio u i).lowest = i
    · rw [if_pos hself]
      exact iff_of_false (fun heq => by cases heq) fun hok => hlowest.mp hself hok.2
    · rw [if_neg hself]
      exact iff_of_true rfl ⟨hparent, not_not.mp (mt hlowest.mpr hself)⟩

/-- If the lower descriptors are right, this one is exactly under its condition. -/
theorem wired_at (hi : i < 3)
    (hbefore : ∀ n < i, (childTable devnull stdio u).file n = requested devnull table stdio n) :
    (childTable devnull stdio u).file i = requested devnull table stdio i ↔
      WiringOk devnull table stdio u.stdioPipes i := by
  unfold WiringOk
  cases hflags : stdio i with
  | ignore => exact h.wired_ignore hflags hi hbefore
  | createPipe => exact h.wired_createPipe hflags hi hbefore
  | inheritFd fd => exact h.wired_inheritFd hflags hi hbefore
  | inherit => exact h.wired_inherit hflags hi

/-- The ends of the parent are closed. -/
theorem parent_closed (hn : 2 < n) (i : ℕ) :
    (childTable devnull stdio u).file n ≠ some (.pipe i (i = 0)) := by
  have hstage : [0, 1, 2].foldl (wire devnull stdio u.stdioPipes) u.table =
    stage devnull stdio u 3 := rfl
  unfold childTable closeChildFds closeParentFds
  rw [Descriptors.file_foldl_close, Descriptors.file_foldl_close, hstage, stage_of_le (by omega)]
  by_cases hchild : n ∈ u.stdioPipes.childFds.filter (2 < ·)
  · rw [if_pos hchild]
    exact (Option.some_ne_none _).symm
  rw [if_neg hchild]
  by_cases hparent : n ∈ u.stdioPipes.parentFds
  · rw [if_pos hparent]
    exact (Option.some_ne_none _).symm
  rw [if_neg hparent, h.file_of_not_mem]
  · intro heq
    obtain ⟨f, -, hf⟩ := Option.map_eq_some_iff.mp heq
    cases hf
  · intro hmem
    refine (mem_fds_iff.mp hmem).elim hparent fun hmem' => hchild ?_
    exact List.mem_filter.mpr ⟨hmem', decide_eq_true hn⟩

end Forked

end

/-- **The child gets what was requested if and only if no coincidence of numbers interferes**: no
end of the parent and no inherited end is among the three descriptors, and nothing that a
redirection reads has been overwritten with another file by the redirections before it. -/
theorem wired_iff {devnull : Bool → F} {table : Descriptors F} {stdio : ℕ → Stdio}
    {answer : ℕ → Option (ℕ × ℕ)} {u : Setup F}
    (hok : processSetupStdio table stdio answer = .ok u) (hgrant : Granted table u.stdioPipes)
    (hsource : ∀ i < 3, ∀ fd, stdio i = .inheritFd fd → table.file fd ≠ none) :
    Wired devnull table stdio (childTable devnull stdio u) ↔
      ∀ i < 3, WiringOk devnull table stdio u.stdioPipes i := by
  have hsetup : setupOf (processSetupStdio table stdio answer) = u := congrArg setupOf hok
  have hsetUp : SetUp table u := by
    rw [← hsetup]
    refine processSetupStdio_setUp ?_
    rw [hsetup]
    exact hgrant
  have h : Forked table stdio u := ⟨hgrant, hsetUp, fun _ => processSetupStdio_ok hok, hsource⟩
  constructor
  · intro hwired i hi
    exact (h.wired_at hi fun n hn => hwired.requested n (by omega)).mp (hwired.requested i hi)
  · intro hall
    refine ⟨fun i => ?_, fun n hn i => h.parent_closed hn i⟩
    induction i using Nat.strongRecOn with
    | ind i ih =>
      intro hi
      exact (h.wired_at hi fun n hn => ih n hn (by omega)).mpr (hall i hi)

/-- A pipe for `stdin`, `stdout` to descriptor 3, and `stderr` inherited. -/
def pipeAndFile : ℕ → Stdio
  | 0 => .createPipe
  | 1 => .inheritFd 3
  | _ => .inherit

theorem wired_pipeAndFile :
    ∃ u, processSetupStdio fourOpen pipeAndFile (fun _ => some (4, 5)) = .ok u ∧
      Wired (fun _ => 9) fourOpen pipeAndFile (childTable (fun _ => 9) pipeAndFile u) := by
  have hok : processSetupStdio fourOpen pipeAndFile (fun _ => some (4, 5)) = .ok _ := rfl
  have hgrant : Granted fourOpen
      (setupOf (processSetupStdio fourOpen pipeAndFile fun _ => some (4, 5))).stdioPipes :=
    .of_setup (by decide) (by decide)
  refine ⟨_, hok, (wired_iff hok hgrant fun i hi fd hfd => ?_).mpr fun i hi => ?_⟩
  · obtain rfl | rfl | rfl : i = 0 ∨ i = 1 ∨ i = 2 := by omega
    · cases hfd
    · cases hfd
      decide
    · cases hfd
  · obtain rfl | rfl | rfl : i = 0 ∨ i = 1 ∨ i = 2 := by omega
    · exact ⟨by decide, by decide⟩
    · exact ⟨by decide, fun hlt => by omega⟩
    · exact List.not_mem_cons_of_ne_of_not_mem (by decide) (by decide)

/-- `stdout` and `stderr` are exchanged. -/
def exchange : ℕ → Stdio
  | 1 => .inheritFd 2
  | 2 => .inheritFd 1
  | _ => .inherit

/-- Both go to the file of `stderr`. -/
theorem not_wired_exchange :
    ¬ ∀ (table : Descriptors ℕ) (stdio : ℕ → Stdio) (answer : ℕ → Option (ℕ × ℕ)) (u : Setup ℕ),
      processSetupStdio table stdio answer = .ok u → Granted table u.stdioPipes →
      (∀ i < 3, ∀ fd, stdio i = .inheritFd fd → table.file fd ≠ none) →
      Wired (fun _ => 9) table stdio (childTable (fun _ => 9) stdio u) := by
  intro hall
  have hgrant : Granted fourOpen
      (setupOf (processSetupStdio fourOpen exchange fun _ => none)).stdioPipes :=
    .of_setup (by decide) (by decide)
  have hwired := hall fourOpen exchange (fun _ => none) _ rfl hgrant fun i hi fd hfd => by
    obtain rfl | rfl | rfl : i = 0 ∨ i = 1 ∨ i = 2 := by omega
    · cases hfd
    · cases hfd
      decide
    · cases hfd
      decide
  have herr := hwired.requested 2 (by omega)
  revert herr
  decide

end Loopy.Process
