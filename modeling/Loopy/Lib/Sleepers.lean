import Mathlib.Data.Fintype.Card

/-!
# Condition variables

Finitely many threads, some of them asleep in a wait on one condition variable. A signal wakes one
of them if there is one, a broadcast all of them. `Covered asleep ready n` is the bookkeeping of
work that is handed out by signals: as long as somebody sleeps, each of the `n` things to be done
has a ready thread of its own. A signal for each new thing keeps it, and so does a ready thread that
takes one; a thread that goes to sleep when there is nothing to do keeps it too.
-/

namespace Loopy.Lib

open Function (update update_of_ne update_self)

/-- Nobody falls asleep. -/
theorem awake_of_fewer {T : Type*} {asleep asleep' : T → Bool} (h : ∀ t, asleep' t → asleep t)
    {t : T} (ht : asleep t = false) : asleep' t = false := by
  by_contra hne
  have := h t (by simpa using hne)
  rw [ht] at this
  cases this

theorem update_false_of {T : Type*} [DecidableEq T] {asleep : T → Bool} {t u : T}
    (h : update asleep t false u) : u ≠ t ∧ asleep u := by
  by_cases hu : u = t
  · subst hu
    rw [update_self] at h
    cases h
  · rw [update_of_ne hu] at h
    exact ⟨hu, h⟩

/-- If one thread is woken, fewer sleep. -/
theorem asleep_of_update {T : Type*} [DecidableEq T] {asleep : T → Bool} {t : T} (u : T)
    (h : update asleep t false u) : asleep u := (update_false_of h).2

variable {T : Type*} [Fintype T]

/-- `pthread_cond_signal`: `woken` is the thread that it wakes, `none` if nobody sleeps. -/
def signal [DecidableEq T] (asleep : T → Bool) (woken : Option T) : Option (T → Bool) :=
  match woken with
  | some t => if asleep t then some (update asleep t false) else none
  | none => if ∀ t, asleep t = false then some asleep else none

/-- As long as a thread sleeps, each of the `n` things has a ready thread of its own. -/
def Covered (asleep : T → Bool) (ready : T → Prop) [DecidablePred ready] (n : ℕ) : Prop :=
  (∃ t, asleep t) → n ≤ (Finset.univ.filter ready).card

section Covered

variable {asleep asleep' : T → Bool} {ready ready' : T → Prop} [DecidablePred ready]
  [DecidablePred ready'] {n n' : ℕ} {t : T}

/-- There is nothing to be done. -/
theorem Covered.zero : Covered asleep ready 0 := fun _ => Nat.zero_le _

/-- Nobody sleeps. -/
theorem Covered.awake (h : ∀ t, asleep t = false) : Covered asleep ready n := by
  rintro ⟨t, ht⟩
  rw [h t] at ht
  cases ht

/-- Fewer sleepers, fewer things, more ready threads. -/
theorem Covered.mono (h : Covered asleep ready n) (hasleep : ∀ t, asleep' t → asleep t)
    (hready : ∀ t, ready t → ready' t) (hn : n' ≤ n) : Covered asleep' ready' n' := by
  rintro ⟨t, ht⟩
  have hcard : (Finset.univ.filter ready).card ≤ (Finset.univ.filter ready').card := by
    apply Finset.card_le_card
    intro u hu
    simp only [Finset.mem_filter, Finset.mem_univ, true_and] at hu ⊢
    exact hready u hu
  have := h ⟨t, hasleep t ht⟩
  omega

/-- A ready thread takes one of the things. -/
theorem Covered.take [DecidableEq T] (h : Covered asleep ready (n + 1))
    (hasleep : ∀ t, asleep' t → asleep t) (hready : ∀ u, u ≠ t → ready u → ready' u) :
    Covered asleep' ready' n := by
  rintro ⟨u, hu⟩
  have hcard : ((Finset.univ.filter ready).erase t).card ≤ (Finset.univ.filter ready').card := by
    apply Finset.card_le_card
    intro v hv
    simp only [Finset.mem_erase, Finset.mem_filter, Finset.mem_univ, true_and] at hv ⊢
    exact hready v hv.1 hv.2
  have hpred := Finset.pred_card_le_card_erase (s := Finset.univ.filter ready) (a := t)
  have := h ⟨u, hasleep u hu⟩
  omega

/-- One thing more, and a thread that was not ready before. -/
theorem Covered.enlist (h : Covered asleep ready n) (hasleep : ∀ t, asleep' t → asleep t)
    (hready : ∀ u, ready u → ready' u) (ht : ¬ ready t) (ht' : ready' t) :
    Covered asleep' ready' (n + 1) := by
  rintro ⟨u, hu⟩
  have hcard : (Finset.univ.filter ready).card < (Finset.univ.filter ready').card := by
    apply Finset.card_lt_card
    refine ⟨fun v hv => ?_, fun hsub => ?_⟩
    · simp only [Finset.mem_filter, Finset.mem_univ, true_and] at hv ⊢
      exact hready v hv
    · have hmem := hsub (Finset.mem_filter.mpr ⟨Finset.mem_univ t, ht'⟩)
      exact ht (Finset.mem_filter.mp hmem).2
  have := h ⟨u, hasleep u hu⟩
  omega

/-- If there is something to be done, somebody is awake. -/
theorem Covered.exists_ready (h : Covered asleep ready n) (hn : 0 < n) (ht : asleep t) :
    ∃ u, ready u := by
  have hcard := h ⟨t, ht⟩
  have hpos : 0 < (Finset.univ.filter ready).card := by omega
  obtain ⟨u, hu⟩ := Finset.card_pos.mp hpos
  exact ⟨u, (Finset.mem_filter.mp hu).2⟩

end Covered

section Signal

variable [DecidableEq T] {asleep asleep' : T → Bool} {woken : Option T}

/-- A signal wakes threads only. -/
theorem asleep_of_signal (h : signal asleep woken = some asleep') (t : T) (ht : asleep' t) :
    asleep t := by
  unfold signal at h
  split at h
  · next u =>
    obtain ⟨hu, h⟩ := Option.ite_none_right_eq_some.mp h
    cases h
    by_cases htu : t = u
    · subst htu
      exact hu
    · rwa [update_of_ne htu] at ht
  · obtain ⟨_, h⟩ := Option.ite_none_right_eq_some.mp h
    cases h
    exact ht

/-- A signal for one thing more: the thread that it wakes is ready for it. -/
theorem Covered.signal {ready ready' : T → Prop} [DecidablePred ready] [DecidablePred ready']
    {n : ℕ} (h : Covered asleep ready n) (hsignal : signal asleep woken = some asleep')
    (hasleep : ∀ t, asleep t → ¬ ready t) (hready : ∀ t, ready t → ready' t)
    (hwoken : ∀ t, asleep t → asleep' t = false → ready' t) : Covered asleep' ready' (n + 1) := by
  have hfewer := asleep_of_signal hsignal
  unfold Lib.signal at hsignal
  split at hsignal
  · next u =>
    obtain ⟨hu, hsignal⟩ := Option.ite_none_right_eq_some.mp hsignal
    cases hsignal
    exact h.enlist hfewer hready (hasleep u hu) (hwoken u hu (update_self u _ _))
  · obtain ⟨hnobody, hsignal⟩ := Option.ite_none_right_eq_some.mp hsignal
    cases hsignal
    exact .awake hnobody

end Signal

end Loopy.Lib
