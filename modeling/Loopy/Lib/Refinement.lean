import Loopy.Lib.Run

/-!
# Refinement with hidden steps

`step` refines `spec` along the abstraction `abs` if every admitted step is either hidden, and
leaves the abstract state alone, or shows as one step of `spec`. Then every run shows as a run
(`Run.refine`).

Where steps give answers, `perform` may give the answers of `spec` (`Answers`). Then every run does
(`Run.answers_eq`), and two implementations of one specification cannot be told apart.
-/

namespace Loopy.Lib

variable {S I A J : Type*}

/-- `step` refines `spec`, in the states of the invariant `P`. -/
structure Refines (step : S → I → Option S) (ok : S → I → Prop) (spec : A → J → Option A)
    (shown : S → I → Option J) (abs : S → A) (P : S → Prop) : Prop where
  keeps : ∀ s i s', P s → ok s i → step s i = some s' → P s'
  hidden : ∀ s i s', P s → ok s i → step s i = some s' → shown s i = none → abs s' = abs s
  visible : ∀ s i s' j, P s → ok s i → step s i = some s' → shown s i = some j →
    spec (abs s) j = some (abs s')

/-- What a run shows. -/
def trace (step : S → I → Option S) (shown : S → I → Option J) : S → List I → List J
  | _, [] => []
  | s, i :: is =>
    (shown s i).toList ++ ((step s i).elim [] fun s' => trace step shown s' is)

namespace Run

variable {step : S → I → Option S} {ok : S → I → Prop} {spec : A → J → Option A}
  {shown : S → I → Option J} {abs : S → A} {P : S → Prop} {s t : S} {is : List I}

theorem trace_cons {s' : S} {i : I} (hstep : step s i = some s') :
    trace step shown s (i :: is) = (shown s i).toList ++ trace step shown s' is := by
  rw [trace, hstep]
  rfl

/-- What a run shows is a run. -/
theorem refine (h : Refines step ok spec shown abs P) (hrun : Run step ok s is t) (hs : P s) :
    Run spec (fun _ _ => True) (abs s) (trace step shown s is) (abs t) := by
  induction hrun with
  | nil s => exact .nil (abs s)
  | @cons s s' t i is hok hstep rest ih =>
    have hrest := ih (h.keeps s i s' hs hok hstep)
    rw [trace_cons hstep]
    cases hshown : shown s i with
    | none =>
      rw [h.hidden s i s' hs hok hstep hshown] at hrest
      exact hrest
    | some j => exact .cons trivial (h.visible s i s' j hs hok hstep hshown) hrest

/-- If what a step shows does not depend on the state, neither does what a run shows. -/
theorem trace_eq_filterMap {shown : I → Option J} (hrun : Run step ok s is t) :
    trace step (fun _ => shown) s is = is.filterMap shown := by
  induction hrun with
  | nil => rfl
  | @cons s s' t i is hok hstep rest ih =>
    rw [trace_cons hstep, ih, List.filterMap_cons]
    cases shown i with
    | none => rfl
    | some j => rfl

end Run

/-! ## Steps with answers -/

variable {O : Type*}

/-- Forget the answer of a step. -/
def silent (perform : S → I → Option (O × S)) (s : S) (i : I) : Option S :=
  (perform s i).map Prod.snd

/-- The answers of a run. -/
def answers (perform : S → I → Option (O × S)) : S → List I → List O
  | _, [] => []
  | s, i :: is => (perform s i).elim [] fun r => r.1 :: answers perform r.2 is

/-- `perform` gives the answers of `spec`, in the states of the invariant `P`. -/
structure Answers (perform : S → I → Option (O × S)) (ok : S → I → Prop)
    (spec : A → I → Option (O × A)) (abs : S → A) (P : S → Prop) : Prop where
  keeps : ∀ s i o s', P s → ok s i → perform s i = some (o, s') → P s'
  answer : ∀ s i o s', P s → ok s i → perform s i = some (o, s') →
    spec (abs s) i = some (o, abs s')

namespace Run

variable {perform : S → I → Option (O × S)} {ok : S → I → Prop} {spec : A → I → Option (O × A)}
  {abs : S → A} {P : S → Prop} {s t : S} {is : List I}

theorem answers_cons {i : I} {o : O} {u : S} (hstep : perform s i = some (o, u)) :
    answers perform s (i :: is) = o :: answers perform u is := by
  rw [answers, hstep]
  rfl

/-- A run gives the answers of the specification, which ends in the abstract state. -/
theorem answers_eq (h : Answers perform ok spec abs P) (hrun : Run (silent perform) ok s is t)
    (hs : P s) :
    answers perform s is = answers spec (abs s) is ∧
      Run (silent spec) (fun _ _ => True) (abs s) is (abs t) := by
  induction hrun with
  | nil s => exact ⟨rfl, .nil (abs s)⟩
  | @cons s u t i is hok hstep rest ih =>
    obtain ⟨⟨o, u'⟩, hperform, hu⟩ := Option.map_eq_some_iff.mp hstep
    obtain rfl : u' = u := hu
    obtain ⟨hanswers, hrest⟩ := ih (h.keeps s i o u' hs hok hperform)
    have hspec := h.answer s i o u' hs hok hperform
    refine ⟨?_, .cons trivial ?_ hrest⟩
    · rw [answers_cons hperform, answers_cons hspec, hanswers]
    · rw [silent, hspec]
      rfl

end Run

end Loopy.Lib
