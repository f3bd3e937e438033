import Mathlib.Data.List.Nodup
import Mathlib.Data.List.Perm.Subperm
import Mathlib.Data.List.Range
import Loopy.Lib.Places

/-!
# Jobs and their custody

The abstract side of a pool: jobs are numbered in the order in which they are accepted, wait in
a queue, are held by a worker, wait for a loop that has taken them over, and are delivered. Every
job is in exactly one place, and no list holds it twice (`Custody.Wf`); the moves of a pool
(`Custody.Step`) keep that.
-/

namespace Loopy.Lib

open Function (update update_of_ne)

/-- The jobs of a pool with the workers `W` and the loops `L`. -/
structure Custody (W L : Type*) where
  accepted : ℕ
  pending : List ℕ
  held : W → Option ℕ
  completed : List ℕ
  popped : L → Option ℕ
  delivered : List ℕ

namespace Custody

variable {W L : Type*} {c c' : Custody W L} {w : W} {l : L} {n : ℕ}

/-- The places of a job. -/
inductive Place (W L : Type*)
  | unborn
  | pending
  | held (w : W)
  | completed
  | popped (l : L)
  | delivered

/-- The job `n` is in the place. -/
def At (c : Custody W L) : Place W L → ℕ → Prop
  | .unborn, n => c.accepted ≤ n
  | .pending, n => n ∈ c.pending
  | .held w, n => c.held w = some n
  | .completed, n => n ∈ c.completed
  | .popped l, n => c.popped l = some n
  | .delivered, n => n ∈ c.delivered

/-- Every job is in one place, once. -/
structure Wf (c : Custody W L) : Prop where
  settled : Settled c.At
  pending : c.pending.Nodup
  completed : c.completed.Nodup
  delivered : c.delivered.Nodup

/-- No job has been accepted. -/
def empty (W L : Type*) : Custody W L :=
  { accepted := 0, pending := [], held := fun _ => none, completed := [], popped := fun _ => none,
    delivered := [] }

theorem Wf.empty : Wf (Custody.empty W L) := by
  refine ⟨fun n => ⟨.unborn, Nat.zero_le n, fun p hp => ?_⟩, .nil, .nil, .nil⟩
  cases p with
  | unborn => rfl
  | pending | held | completed | popped | delivered => cases hp

variable [DecidableEq W] [DecidableEq L]

/-- The moves of a pool. -/
inductive Step (c : Custody W L) : Custody W L → Prop
  | stay : Step c c
  | accept :
    Step c { c with accepted := c.accepted + 1, pending := c.pending ++ [c.accepted] }
  | take (w : W) (n : ℕ) (rest : List ℕ) (hw : c.held w = none) (hpending : c.pending = n :: rest) :
    Step c { c with pending := rest, held := update c.held w (some n) }
  | complete (w : W) (n : ℕ) (hw : c.held w = some n) :
    Step c { c with
      held := update c.held w none
      completed := c.completed ++ [n] }
  | pop (l : L) (n : ℕ) (rest : List ℕ) (hl : c.popped l = none)
    (hcompleted : c.completed = n :: rest) :
    Step c { c with completed := rest, popped := update c.popped l (some n) }
  | deliver (l : L) (n : ℕ) (hl : c.popped l = some n) :
    Step c { c with
      popped := update c.popped l none
      delivered := c.delivered ++ [n] }

variable {p : Place W L} {jobs rest : List ℕ}

omit [DecidableEq W] [DecidableEq L] in
/-- A job in a place of its own is in no other one. -/
theorem Wf.not_at {q : Place W L} (h : c.Wf) (hp : c.At p n) (hne : p ≠ q) : ¬ c.At q n :=
  fun hq => hne (h.settled.unique hp hq)

omit [DecidableEq W] [DecidableEq L] in
/-- What is left of a list when its first job is taken. -/
theorem mem_rest_iff {m : ℕ} (hnodup : jobs.Nodup) (hjobs : jobs = n :: rest) :
    m ∈ rest ↔ m ∈ jobs ∧ m ≠ n := by
  rw [hjobs, List.nodup_cons] at hnodup
  rw [hjobs, List.mem_cons]
  constructor
  · intro hm
    exact ⟨.inr hm, fun heq => hnodup.1 (heq ▸ hm)⟩
  · rintro ⟨rfl | hm, hne⟩
    · exact absurd rfl hne
    · exact hm

omit [DecidableEq W] [DecidableEq L] in
/-- A job is accepted. -/
theorem move_accept (c : Custody W L) :
    Move c.At (At { c with accepted := c.accepted + 1, pending := c.pending ++ [c.accepted] })
      .unborn .pending c.accepted := by
  refine ⟨Nat.le_refl _, nofun, fun m => ?_, fun m => ?_, fun q m hq hq' => ?_⟩
  · show c.accepted + 1 ≤ m ↔ c.accepted ≤ m ∧ m ≠ c.accepted
    omega
  · show m ∈ c.pending ++ [c.accepted] ↔ m ∈ c.pending ∨ m = c.accepted
    rw [List.mem_append, List.mem_singleton]
  · cases q with
    | unborn => exact absurd rfl hq
    | pending => exact absurd rfl hq'
    | held | completed | popped | delivered => exact Iff.rfl

omit [DecidableEq L] in
/-- A worker takes the first pending job. -/
theorem Wf.move_take (h : c.Wf) (hw : c.held w = none) (hpending : c.pending = n :: rest) :
    Move c.At (At { c with pending := rest, held := update c.held w (some n) })
      .pending (.held w) n := by
  have hold : c.At .pending n := by
    show n ∈ c.pending
    rw [hpending]
    exact List.mem_cons_self
  refine ⟨hold, nofun, fun m => ?_, fun m => ?_, fun q m hq hq' => ?_⟩
  · exact mem_rest_iff h.pending hpending
  · show update c.held w (some n) w = some m ↔ c.held w = some m ∨ m = n
    rw [update_some_iff hw]
    simp
  · cases q with
    | pending => exact absurd rfl hq
    | held v =>
      have hv : v ≠ w := fun heq => hq' (by rw [heq])
      show update c.held w (some n) v = some m ↔ c.held v = some m
      rw [update_of_ne hv]
    | unborn | completed | popped | delivered => exact Iff.rfl

omit [DecidableEq L] in
/-- A worker completes its job. -/
theorem move_complete (hw : c.held w = some n) :
    Move c.At
      (At { c with held := update c.held w none, completed := c.completed ++ [n] })
      (.held w) .completed n := by
  refine ⟨hw, nofun, fun m => ?_, fun m => ?_, fun q m hq hq' => ?_⟩
  · show update c.held w none w = some m ↔ c.held w = some m ∧ m ≠ n
    rw [update_none_iff hw]
    simp
  · show m ∈ c.completed ++ [n] ↔ m ∈ c.completed ∨ m = n
    rw [List.mem_append, List.mem_singleton]
  · cases q with
    | completed => exact absurd rfl hq'
    | held v =>
      have hv : v ≠ w := fun heq => hq (by rw [heq])
      show update c.held w none v = some m ↔ c.held v = some m
      rw [update_of_ne hv]
    | unborn | pending | popped | delivered => exact Iff.rfl

omit [DecidableEq W] in
/-- The first completed job is popped. -/
theorem Wf.move_pop (h : c.Wf) (hl : c.popped l = none) (hcompleted : c.completed = n :: rest) :
    Move c.At (At { c with completed := rest, popped := update c.popped l (some n) })
      .completed (.popped l) n := by
  have hold : c.At .completed n := by
    show n ∈ c.completed
    rw [hcompleted]
    exact List.mem_cons_self
  refine ⟨hold, nofun, fun m => ?_, fun m => ?_, fun q m hq hq' => ?_⟩
  · exact mem_rest_iff h.completed hcompleted
  · show update c.popped l (some n) l = some m ↔ c.popped l = some m ∨ m = n
    rw [update_some_iff hl]
    simp
  · cases q with
    | completed => exact absurd rfl hq
    | popped k =>
      have hk : k ≠ l := fun heq => hq' (by rw [heq])
      show update c.popped l (some n) k = some m ↔ c.popped k = some m
      rw [update_of_ne hk]
    | unborn | pending | held | delivered => exact Iff.rfl

omit [DecidableEq W] in
/-- A popped job is delivered. -/
theorem move_deliver (hl : c.popped l = some n) :
    Move c.At
      (At { c with popped := update c.popped l none, delivered := c.delivered ++ [n] })
      (.popped l) .delivered n := by
  refine ⟨hl, nofun, fun m => ?_, fun m => ?_, fun q m hq hq' => ?_⟩
  · show update c.popped l none l = some m ↔ c.popped l = some m ∧ m ≠ n
    rw [update_none_iff hl]
    simp
  · show m ∈ c.delivered ++ [n] ↔ m ∈ c.delivered ∨ m = n
    rw [List.mem_append, List.mem_singleton]
  · cases q with
    | delivered => exact absurd rfl hq'
    | popped k =>
      have hk : k ≠ l := fun heq => hq (by rw [heq])
      show update c.popped l none k = some m ↔ c.popped k = some m
      rw [update_of_ne hk]
    | unborn | pending | held | completed => exact Iff.rfl

/-- A list with one more job, which comes from another place. -/
theorem nodup_concat (hnodup : jobs.Nodup) (hfresh : n ∉ jobs) : (jobs ++ [n]).Nodup :=
  List.nodup_append'.mpr ⟨hnodup, List.nodup_singleton _, List.disjoint_singleton.mpr hfresh⟩

/-- Every move keeps the jobs in one place each. -/
theorem Wf.step (h : c.Wf) (hstep : Step c c') : c'.Wf := by
  cases hstep with
  | stay => exact h
  | accept =>
    have hunborn : c.At .unborn c.accepted := Nat.le_refl _
    have hfresh : c.accepted ∉ c.pending := h.not_at (q := .pending) hunborn nofun
    exact ⟨c.move_accept.settled h.settled, nodup_concat h.pending hfresh, h.completed, h.delivered⟩
  | take w n rest hw hpending =>
    have hnodup := h.pending
    rw [hpending, List.nodup_cons] at hnodup
    exact ⟨(h.move_take hw hpending).settled h.settled, hnodup.2, h.completed, h.delivered⟩
  | complete w n hw =>
    have hfresh : n ∉ c.completed := h.not_at (p := .held w) (q := .completed) hw nofun
    exact ⟨(move_complete hw).settled h.settled, h.pending, nodup_concat h.completed hfresh,
      h.delivered⟩
  | pop l n rest hl hcompleted =>
    have hnodup := h.completed
    rw [hcompleted, List.nodup_cons] at hnodup
    exact ⟨(h.move_pop hl hcompleted).settled h.settled, h.pending, hnodup.2, h.delivered⟩
  | deliver l n hl =>
    have hfresh : n ∉ c.delivered := h.not_at (p := .popped l) (q := .delivered) hl nofun
    exact ⟨(move_deliver hl).settled h.settled, h.pending, h.completed,
      nodup_concat h.delivered hfresh⟩

omit [DecidableEq W] [DecidableEq L]

/-- A job that is somewhere has been accepted. -/
theorem Wf.lt_accepted (h : c.Wf) (hp : c.At p n) (hne : p ≠ .unborn) : n < c.accepted := by
  by_contra hle
  have hunborn : c.At .unborn n := Nat.le_of_not_lt hle
  exact hne (h.settled.unique hp hunborn)

/-- Where a job is, seen from outside: a popped job counts as delivered. -/
inductive Location (W : Type*)
  | pending
  | held (w : W)
  | completed
  | delivered

/-- The job `n` is in the location. -/
def LocatedAt (c : Custody W L) (n : ℕ) : Location W → Prop
  | .pending => n ∈ c.pending
  | .held w => c.held w = some n
  | .completed => n ∈ c.completed
  | .delivered => n ∈ c.delivered ∨ ∃ l, c.popped l = some n

/-- The location of a place. -/
def Place.location : Place W L → Option (Location W)
  | .unborn => none
  | .pending => some .pending
  | .held w => some (.held w)
  | .completed => some .completed
  | .popped _ | .delivered => some .delivered

theorem locatedAt_iff {location : Location W} :
    c.LocatedAt n location ↔ ∃ p, c.At p n ∧ p.location = some location := by
  constructor
  · intro h
    cases location with
    | pending => exact ⟨.pending, h, rfl⟩
    | held w => exact ⟨.held w, h, rfl⟩
    | completed => exact ⟨.completed, h, rfl⟩
    | delivered =>
      obtain hdelivered | ⟨l, hl⟩ := h
      · exact ⟨.delivered, hdelivered, rfl⟩
      · exact ⟨.popped l, hl, rfl⟩
  · rintro ⟨p, hp, hlocation⟩
    cases p with
    | unborn => cases hlocation
    | pending | held w | completed =>
      cases hlocation
      exact hp
    | popped l =>
      cases hlocation
      exact .inr ⟨l, hp⟩
    | delivered =>
      cases hlocation
      exact .inl hp

/-- An accepted job is in exactly one location. -/
theorem Wf.located (h : c.Wf) (hn : n < c.accepted) : ∃! location, c.LocatedAt n location := by
  obtain ⟨p, hp, hunique⟩ := h.settled n
  have hborn : p ≠ .unborn := by
    rintro rfl
    exact absurd hn (Nat.not_lt.mpr hp)
  obtain ⟨location, hlocation⟩ : ∃ location, p.location = some location := by
    cases p with
    | unborn => exact absurd rfl hborn
    | pending | held | completed | popped | delivered => exact ⟨_, rfl⟩
  refine ⟨location, locatedAt_iff.mpr ⟨p, hp, hlocation⟩, fun location' hlocated => ?_⟩
  obtain ⟨q, hq, hlocation'⟩ := locatedAt_iff.mp hlocated
  rw [hunique q hq, hlocation] at hlocation'
  exact (Option.some.inj hlocation').symm

/-- What waits has not been delivered. -/
theorem Wf.pending_delivered_le (h : c.Wf) :
    c.pending.length + c.delivered.length ≤ c.accepted := by
  have hdisjoint : c.pending.Disjoint c.delivered := fun n hpending hdelivered =>
    h.not_at (p := .pending) (q := .delivered) hpending nofun hdelivered
  have hnodup : (c.pending ++ c.delivered).Nodup :=
    List.nodup_append'.mpr ⟨h.pending, h.delivered, hdisjoint⟩
  have hsub : (c.pending ++ c.delivered).Subperm (List.range c.accepted) := by
    refine List.Nodup.subperm hnodup fun n hn => List.mem_range.mpr ?_
    obtain hn | hn := List.mem_append.mp hn
    · exact h.lt_accepted (p := .pending) hn nofun
    · exact h.lt_accepted (p := .delivered) hn nofun
  have hle := List.Subperm.length_le hsub
  rwa [List.length_append, List.length_range] at hle

end Custody

end Loopy.Lib
