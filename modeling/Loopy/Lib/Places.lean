import Mathlib.Tactic.Common

/-!
# Things in places

Where a thing is, where a thread is, and what changes when one of them moves.
-/

namespace Loopy.Lib

open Function (update update_of_ne update_self)

/-! ## Moves

`At p n` says that the thing `n` is in the place `p`. `Settled At` says that every thing is in
exactly one place. A `Move` takes one thing from one place to another and leaves the rest, so
it keeps `Settled` and, for the things it does not touch, whatever holds of them there.
-/

section Moves

variable {P N : Type*} {At At' : P → N → Prop} {a b p q : P} {n m : N}

/-- Everything is in exactly one place. -/
def Settled (At : P → N → Prop) : Prop := ∀ n, ∃! p, At p n

theorem Settled.unique (h : Settled At) (hp : At p n) (hq : At q n) : p = q :=
  (h n).unique hp hq

/-- The thing `n` moves from `a` to `b`. -/
structure Move (At At' : P → N → Prop) (a b : P) (n : N) : Prop where
  old : At a n
  ne : a ≠ b
  leave : ∀ m, At' a m ↔ At a m ∧ m ≠ n
  enter : ∀ m, At' b m ↔ At b m ∨ m = n
  frame : ∀ q m, q ≠ a → q ≠ b → (At' q m ↔ At q m)

namespace Move

/-- What moved is in the new place only. -/
theorem moved (h : Settled At) (hm : Move At At' a b n) : At' q n ↔ q = b := by
  constructor
  · intro hq
    by_contra hqb
    by_cases hqa : q = a
    · rw [hqa] at hq
      exact ((hm.leave n).mp hq).2 rfl
    · exact hqa (h.unique ((hm.frame q n hqa hqb).mp hq) hm.old)
  · rintro rfl
    exact (hm.enter n).mpr (Or.inr rfl)

/-- Everything else is where it was. -/
theorem others (hm : Move At At' a b n) (hne : m ≠ n) : At' q m ↔ At q m := by
  by_cases hqa : q = a
  · rw [hqa, hm.leave]
    exact and_iff_left hne
  · by_cases hqb : q = b
    · rw [hqb, hm.enter]
      exact or_iff_left hne
    · exact hm.frame q m hqa hqb

theorem settled (h : Settled At) (hm : Move At At' a b n) : Settled At' := by
  intro m
  by_cases hne : m = n
  · subst hne
    exact ⟨b, (hm.moved h).mpr rfl, fun q hq => (hm.moved h).mp hq⟩
  · obtain ⟨p, hp, hunique⟩ := h m
    exact ⟨p, (hm.others hne).mpr hp, fun q hq => hunique q ((hm.others hne).mp hq)⟩

end Move

end Moves

/-! ## Threads at a program point

A map `pc : T → P` gives the place of every thread. `NoneAt pc p` and `OneAt pc p t` say that
no thread, or exactly the thread `t`, is at `p`; the lemmas follow one thread that moves.
-/

section Threads

variable {T P : Type*} {pc : T → P} {p q : P} {t u : T}

/-- No thread is at `p`. -/
def NoneAt (pc : T → P) (p : P) : Prop := ∀ t, pc t ≠ p

/-- Exactly the thread `t` is at `p`. -/
def OneAt (pc : T → P) (p : P) (t : T) : Prop := ∀ u, pc u = p ↔ u = t

theorem OneAt.self (h : OneAt pc p t) : pc t = p := (h t).mpr rfl

theorem OneAt.unique (h : OneAt pc p t) (hu : pc u = p) : u = t := (h u).mp hu

variable [DecidableEq T]

/-- A thread that moves between other places leaves those at `p`. -/
theorem update_at_iff (ht : pc t ≠ p) (hq : q ≠ p) : update pc t q u = p ↔ pc u = p := by
  by_cases hu : u = t
  · subst hu
    rw [update_self]
    exact ⟨fun h => absurd h hq, fun h => absurd h ht⟩
  · rw [update_of_ne hu]

theorem NoneAt.move (h : NoneAt pc p) (hq : q ≠ p) : NoneAt (update pc t q) p :=
  fun u hu => h u ((update_at_iff (h t) hq).mp hu)

theorem OneAt.move (h : OneAt pc p t) (hu : pc u ≠ p) (hq : q ≠ p) :
    OneAt (update pc u q) p t :=
  fun v => (update_at_iff hu hq).trans (h v)

/-- A thread enters a place where no thread was. -/
theorem NoneAt.enter (h : NoneAt pc p) : OneAt (update pc t p) p t := by
  intro u
  by_cases hu : u = t
  · simp [hu]
  · rw [update_of_ne hu]
    exact ⟨fun hp => absurd hp (h u), fun he => absurd he hu⟩

/-- The only thread at a place leaves it. -/
theorem OneAt.leave (h : OneAt pc p t) (hq : q ≠ p) : NoneAt (update pc t q) p := by
  intro u hu
  by_cases hut : u = t
  · rw [hut, update_self] at hu
    exact hq hu
  · rw [update_of_ne hut] at hu
    exact hut (h.unique hu)

/-! ### Threads that hold something

`hold x` is the place of a thread that holds `x`. -/

section Holding

variable {X : Type*} {hold : X → P} {x y : X}

/-- A thread that held nothing takes `x`. -/
theorem update_take_iff (hinj : Function.Injective hold) (ht : ∀ z, pc t ≠ hold z) :
    update pc t (hold x) u = hold y ↔ pc u = hold y ∨ (u = t ∧ y = x) := by
  by_cases hu : u = t
  · subst hu
    rw [update_self, hinj.eq_iff]
    constructor
    · intro hxy
      exact .inr ⟨rfl, hxy.symm⟩
    · rintro (hy | ⟨-, rfl⟩)
      · exact absurd hy (ht y)
      · rfl
  · rw [update_of_ne hu]
    exact ⟨.inl, fun h => h.resolve_right fun hand => hu hand.1⟩

/-- A thread that held `x` lets go of it. -/
theorem update_drop_iff (hinj : Function.Injective hold) (ht : pc t = hold x)
    (hq : ∀ z, q ≠ hold z) :
    update pc t q u = hold y ↔ pc u = hold y ∧ ¬ (u = t ∧ y = x) := by
  by_cases hu : u = t
  · subst hu
    rw [update_self, ht, hinj.eq_iff]
    constructor
    · intro hy
      exact absurd hy (hq y)
    · rintro ⟨hxy, hnot⟩
      exact absurd ⟨rfl, hxy.symm⟩ hnot
  · rw [update_of_ne hu]
    exact ⟨fun h => ⟨h, fun hand => hu hand.1⟩, And.left⟩

/-- A thread that holds no number takes one. -/
theorem update_some_iff {pc : T → Option ℕ} {n m : ℕ} (ht : pc t = none) :
    update pc t (some n) u = some m ↔ pc u = some m ∨ u = t ∧ m = n := by
  have hinj : Function.Injective (some : ℕ → Option ℕ) := fun _ _ => Option.some.inj
  refine update_take_iff hinj fun z => ?_
  rw [ht]
  exact nofun

/-- A thread hands its number on. -/
theorem update_none_iff {pc : T → Option ℕ} {n m : ℕ} (ht : pc t = some n) :
    update pc t none u = some m ↔ pc u = some m ∧ ¬ (u = t ∧ m = n) :=
  have hinj : Function.Injective (some : ℕ → Option ℕ) := fun _ _ => Option.some.inj
  update_drop_iff hinj ht fun _ => nofun

end Holding

end Threads

end Loopy.Lib
