import Mathlib.Algebra.BigOperators.Group.List.Basic
import Mathlib.Algebra.GroupWithZero.Nat

/-!
# Machines with outputs

A deterministic machine `step : S → I → O × S` answers every input. `outputs` lists its
answers; a simulation carries the answers over, and two machines over one state space answer
alike exactly if they do at every step (`Along`).
-/

namespace Loopy.Lib

variable {S T I O : Type*}

/-- The answers to a sequence of inputs. -/
def outputs (step : S → I → O × S) : S → List I → List O
  | _, [] => []
  | s, i :: is => (step s i).1 :: outputs step (step s i).2 is

/-- `ok` holds at every step of the machine. -/
def Along (step : S → I → O × S) (ok : S → I → Prop) : S → List I → Prop
  | _, [] => True
  | s, i :: is => ok s i ∧ Along step ok (step s i).2 is

/-- The state after a sequence of inputs. -/
def after (step : S → I → O × S) : S → List I → S
  | s, [] => s
  | s, i :: is => after step (step s i).2 is

instance along_decidable (step : S → I → O × S) (ok : S → I → Prop) [∀ s i, Decidable (ok s i)] :
    ∀ (s : S) (is : List I), Decidable (Along step ok s is)
  | _, [] => isTrue trivial
  | s, i :: is =>
    have := along_decidable step ok (step s i).2 is
    inferInstanceAs (Decidable (_ ∧ _))

variable {step : S → I → O × S} {ok : S → I → Prop} {P : S → Prop} {s : S}

/-- What every admitted step preserves holds at the end. -/
theorem invariant_along (hstep : ∀ s i, P s → ok s i → P (step s i).2) (is : List I) (hs : P s)
    (hok : Along step ok s is) : P (after step s is) := by
  induction is generalizing s with
  | nil => exact hs
  | cons i is ih => exact ih (hstep s i hs hok.1) hok.2

variable {law ok' : S → I → Prop} {spec : T → I → O × T} {R : S → T → Prop} {t : T}

/-- A law that every admitted step keeps holds along an admitted run. -/
theorem law_along (hstep : ∀ s i, P s → ok s i → law s i ∧ P (step s i).2) (is : List I)
    (hs : P s) (hok : Along step ok s is) : Along step law s is := by
  induction is generalizing s with
  | nil => trivial
  | cons i is ih =>
    obtain ⟨hlaw, hnext⟩ := hstep s i hs hok.1
    exact ⟨hlaw, ih hnext hok.2⟩

theorem Along.and {is : List I} (h : Along step ok s is) (h' : Along step ok' s is) :
    Along step (fun s i => ok s i ∧ ok' s i) s is := by
  induction is generalizing s with
  | nil => trivial
  | cons i is ih => exact ⟨⟨h.1, h'.1⟩, ih h.2 h'.2⟩

/-- A counter that every step raises by what its answer says, modulo `k`. -/
theorem counter_along {count : S → ℕ} {amount : O → ℕ} {k : ℕ}
    (hP : ∀ s i, P s → ok s i → P (step s i).2)
    (hstep : ∀ s i, P s → ok s i → count (step s i).2 = (count s + amount (step s i).1) % k)
    (is : List I) (hs : P s) (hcount : count s < k) (hok : Along step ok s is) :
    count (after step s is) = (count s + ((outputs step s is).map amount).sum) % k := by
  induction is generalizing s with
  | nil => exact (Nat.mod_eq_of_lt hcount).symm
  | cons i is ih =>
    have hone := hstep s i hs hok.1
    have hlt : count (step s i).2 < k := by
      rw [hone]
      exact Nat.mod_lt _ (Nat.zero_lt_of_lt hcount)
    rw [after, ih (hP s i hs hok.1) hlt hok.2, hone, outputs, List.map_cons, List.sum_cons,
      Nat.mod_add_mod, Nat.add_assoc]

/-- A simulation gives the same answers. -/
theorem outputs_simulates
    (hsim : ∀ s t i, R s t → (step s i).1 = (spec t i).1 ∧ R (step s i).2 (spec t i).2)
    (is : List I) (h : R s t) : outputs step s is = outputs spec t is := by
  induction is generalizing s t with
  | nil => rfl
  | cons i is ih =>
    obtain ⟨hout, hnext⟩ := hsim s t i h
    rw [outputs, outputs, hout, ih hnext]

/-- A simulation whose answers are the same exactly where `law` holds: the answers to a run are the
same if and only if it holds at every step. -/
theorem simulates_iff_along
    (hsim : ∀ s t i, R s t → ok s i → ((step s i).1 = (spec t i).1 ↔ law s i) ∧
      R (step s i).2 (spec t i).2)
    (is : List I) (h : R s t) (hok : Along step ok s is) :
    (outputs step s is = outputs spec t is ↔ Along step law s is) ∧
      R (after step s is) (after spec t is) := by
  induction is generalizing s t with
  | nil => exact ⟨iff_of_true rfl trivial, h⟩
  | cons i is ih =>
    obtain ⟨hout, hnext⟩ := hsim s t i h hok.1
    obtain ⟨houts, hend⟩ := ih hnext hok.2
    refine ⟨?_, hend⟩
    rw [outputs, outputs, List.cons_eq_cons, hout, houts, Along]

/-- Machines with the same transitions answer alike if and only if they do at every step. -/
theorem outputs_eq_iff {step' : S → I → O × S} (hnext : ∀ s i, (step' s i).2 = (step s i).2)
    (s : S) (is : List I) :
    outputs step' s is = outputs step s is ↔
      Along step (fun s i => (step' s i).1 = (step s i).1) s is := by
  induction is generalizing s with
  | nil => exact iff_of_true rfl trivial
  | cons i is ih => rw [outputs, outputs, List.cons_eq_cons, hnext, ih, Along]

/-- `Along` with an equivalent condition. -/
theorem along_congr (h : ∀ s i, ok s i ↔ ok' s i) (s : S) (is : List I) :
    Along step ok s is ↔ Along step ok' s is := by
  induction is generalizing s with
  | nil => exact Iff.rfl
  | cons i is ih => rw [Along, Along, h, ih]

/-- A law holds in every state of a run if and only if every step meets the condition that keeps
it. -/
theorem always_iff_along {law : S → Prop} (hP : ∀ s i, P s → P (step s i).2)
    (hstep : ∀ s i, P s → law s → (law (step s i).2 ↔ ok s i)) (is : List I) (hs : P s)
    (hlaw : law s) : (∀ n, law (after step s (is.take n))) ↔ Along step ok s is := by
  induction is generalizing s with
  | nil =>
    refine iff_of_true (fun n => ?_) trivial
    rw [List.take_nil]
    exact hlaw
  | cons i is ih =>
    constructor
    · intro hall
      have hnext : law (step s i).2 := hall 1
      exact ⟨(hstep s i hs hlaw).mp hnext, (ih (hP s i hs) hnext).mp fun n => hall (n + 1)⟩
    · rintro ⟨hok, hrest⟩ n
      have hnext := (hstep s i hs hlaw).mpr hok
      cases n with
      | zero => exact hlaw
      | succ n => exact (ih (hP s i hs) hnext).mpr hrest n

end Loopy.Lib
