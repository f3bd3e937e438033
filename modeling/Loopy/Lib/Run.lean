import Mathlib.Algebra.GroupWithZero.Nat
import Mathlib.Data.List.Basic

/-!
# Runs of a partial step function

A system is a partial step function `step : S → I → Option S` (`none`: the input is not
possible in that state). `Run step ok s is t` is a run from `s` to `t` under the inputs
`is` whose every step is admitted by `ok`, a condition on the state before the step and
the input. The invariant rules below are the only inductions over runs.
-/

namespace Loopy.Lib

variable {S I : Type*}

/-- A run whose steps all meet `ok`. -/
inductive Run (step : S → I → Option S) (ok : S → I → Prop) : S → List I → S → Prop
  | nil (s : S) : Run step ok s [] s
  | cons {s s' t : S} {i : I} {is : List I} (hok : ok s i) (hstep : step s i = some s')
      (rest : Run step ok s' is t) : Run step ok s (i :: is) t

/-- The executable run: `none` as soon as an input is impossible or not admitted. -/
def exec (step : S → I → Option S) (ok : S → I → Prop) [∀ s i, Decidable (ok s i)] :
    S → List I → Option S
  | s, [] => some s
  | s, i :: is => if ok s i then (step s i).bind fun s' => exec step ok s' is else none

/-- Fixed runs number their threads in `Fin 2` and `Fin 3`; with these two instances a numeral of
such a run is the same term in every module. -/
instance neZeroTwo : NeZero 2 := ⟨by decide⟩

instance neZeroThree : NeZero 3 := ⟨by decide⟩

/-- A guarded step that is possible: its guard holds, and it leads where it says. -/
theorem of_guard {p : Prop} [Decidable p] {s t : S} (h : (if p then some s else none) = some t) :
    p ∧ s = t := by
  obtain ⟨hp, h⟩ := Option.ite_none_right_eq_some.mp h
  exact ⟨hp, Option.some.inj h⟩

namespace Run

variable {step : S → I → Option S} {ok ok' : S → I → Prop} {s t u : S} {is js : List I} {i : I}

variable {P clean : S → Prop} {β : Type*}

/-- What every admitted step preserves holds at the end of every run. -/
theorem invariant (h : Run step ok s is t)
    (hstep : ∀ s i s', P s → ok s i → step s i = some s' → P s') (hs : P s) : P t := by
  induction h with
  | nil => exact hs
  | cons hok hst _ ih => exact ih (hstep _ _ _ hs hok hst)

theorem single (hok : ok s i) (hstep : step s i = some t) : Run step ok s [i] t :=
  .cons hok hstep (.nil t)

theorem append (h : Run step ok s is t) (h' : Run step ok t js u) :
    Run step ok s (is ++ js) u := by
  induction h with
  | nil => exact h'
  | cons hok hst _ ih => exact .cons hok hst (ih h')

/-- A cycle of inputs that leads from any state of `P k` to one of `P (k + 1)`, `k` times over. -/
theorem cycles {P : ℕ → S → Prop} {cycle : List I}
    (hcycle : ∀ k s, P k s → ∃ t, Run step ok s cycle t ∧ P (k + 1) t) (hs : P 0 s) (k : ℕ) :
    ∃ t, Run step ok s (List.replicate k cycle).flatten t ∧ P k t := by
  induction k with
  | zero => exact ⟨s, .nil s, hs⟩
  | succ k ih =>
    obtain ⟨t, hrun, ht⟩ := ih
    obtain ⟨u, hrun', hu⟩ := hcycle k t ht
    refine ⟨u, ?_, hu⟩
    rw [List.replicate_succ', List.flatten_append, List.flatten_singleton]
    exact hrun.append hrun'

/-- A run over an appended input list passes through a middle state. -/
theorem split (h : Run step ok s (is ++ js) u) :
    ∃ t, Run step ok s is t ∧ Run step ok t js u := by
  induction is generalizing s with
  | nil => exact ⟨s, .nil s, h⟩
  | cons i is ih =>
    cases h with
    | cons hok hst rest =>
      obtain ⟨t, h1, h2⟩ := ih rest
      exact ⟨t, .cons hok hst h1, h2⟩

/-- A weaker condition admits the same run. -/
theorem mono (h : Run step ok s is t) (hok : ∀ s i, ok s i → ok' s i) : Run step ok' s is t := by
  induction h with
  | nil => exact .nil _
  | cons h1 hst _ ih => exact .cons (hok _ _ h1) hst ih

/-- A condition that is weaker in the states that the run passes admits the same run. -/
theorem mono_of_invariant (h : Run step ok s is t)
    (hstep : ∀ s i s', P s → ok s i → step s i = some s' → P s')
    (hok : ∀ s i, P s → ok s i → ok' s i) (hs : P s) : Run step ok' s is t := by
  induction h with
  | nil => exact .nil _
  | cons h1 hst _ ih => exact .cons (hok _ _ hs h1) hst (ih (hstep _ _ _ hs h1 hst))

/-- Among the runs that `base` admits, a record that a step keeps clean exactly if it is admitted
by `ok` is clean at the end of exactly the runs whose steps all are. -/
theorem clean_iff_within {base : S → I → Prop} (h : Run step base s is t)
    (hinv : ∀ s i s', P s → base s i → step s i = some s' → P s')
    (hstep : ∀ s i s', P s → base s i → step s i = some s' → (clean s' ↔ clean s ∧ ok s i))
    (hs : P s) (hclean : clean s) : clean t ↔ Run step (fun s i => base s i ∧ ok s i) s is t := by
  induction h with
  | nil => exact ⟨fun _ => .nil _, fun _ => hclean⟩
  | @cons s s' t i is hbase hst rest ih =>
    have hstays : clean t → clean s' := by
      refine (rest.invariant (P := fun u => P u ∧ (clean u → clean s')) ?_
        ⟨hinv s i s' hs hbase hst, id⟩).2
      intro u j v hu hbase' huv
      exact ⟨hinv u j v hu.1 hbase' huv, fun hv => hu.2 ((hstep u j v hu.1 hbase' huv).mp hv).1⟩
    constructor
    · intro ht
      have hs' := hstays ht
      have hok := ((hstep s i s' hs hbase hst).mp hs').2
      exact .cons ⟨hbase, hok⟩ hst ((ih (hinv s i s' hs hbase hst) hs').mp ht)
    · intro hrun
      cases hrun with
      | cons hok hst' rest' =>
        rw [hst] at hst'
        cases hst'
        have hs' := (hstep s i s' hs hbase hst).mpr ⟨hclean, hok.2⟩
        exact (ih (hinv s i s' hs hbase hst) hs').mpr rest'

/-- A record that bad steps spoil for good is clean at the end of exactly the runs without a bad
step. -/
theorem clean_iff (h : Run step (fun _ _ => True) s is t)
    (hinv : ∀ s i s', P s → step s i = some s' → P s')
    (hstep : ∀ s i s', P s → clean s → step s i = some s' → (clean s' ↔ ok s i))
    (hspoiled : ∀ s i s', step s i = some s' → clean s' → clean s) (hs : P s) (hclean : clean s) :
    clean t ↔ Run step ok s is t := by
  have hboth : clean t ↔ Run step (fun s i => True ∧ ok s i) s is t := by
    refine h.clean_iff_within (fun s i s' hs _ => hinv s i s' hs) (fun s i s' hs _ hst => ?_) hs
      hclean
    constructor
    · intro hs'
      have hclean := hspoiled s i s' hst hs'
      exact ⟨hclean, (hstep s i s' hs hclean hst).mp hs'⟩
    · rintro ⟨hclean, hok⟩
      exact (hstep s i s' hs hclean hst).mpr hok
  exact hboth.trans ⟨fun hrun => hrun.mono fun _ _ hok => hok.2,
    fun hrun => hrun.mono fun _ _ hok => ⟨trivial, hok⟩⟩

/-- A law that a step keeps exactly if it is admitted holds in every state on the way exactly in
the runs of admitted steps. -/
theorem always_iff {law : S → Prop} (h : Run step (fun _ _ => True) s is t)
    (hinv : ∀ s i s', P s → step s i = some s' → P s')
    (hstep : ∀ s i s', P s → law s → step s i = some s' → (law s' ↔ ok s i)) (hs : P s)
    (hlaw : law s) :
    (∀ js u, js <+: is → Run step (fun _ _ => True) s js u → law u) ↔ Run step ok s is t := by
  induction h with
  | nil s =>
    refine ⟨fun _ => .nil s, fun _ js u hjs hrun => ?_⟩
    obtain rfl := List.prefix_nil.mp hjs
    cases hrun
    exact hlaw
  | @cons s s' t i is _ hst rest ih =>
    constructor
    · intro hall
      have hs' : law s' := hall [i] s' (List.prefix_append [i] is) (.single trivial hst)
      have hok := (hstep s i s' hs hlaw hst).mp hs'
      refine .cons hok hst ((ih (hinv s i s' hs hst) hs').mp fun js u hjs hrun => ?_)
      exact hall (i :: js) u (List.cons_prefix_cons.mpr ⟨rfl, hjs⟩) (.cons trivial hst hrun)
    · intro hrun js u hjs hjsrun
      cases hrun with
      | cons hok hst' rest' =>
        rw [hst] at hst'
        cases hst'
        have hs' := (hstep s i s' hs hlaw hst).mpr hok
        cases hjsrun with
        | nil => exact hlaw
        | cons _ hst'' hrest =>
          obtain ⟨rfl, hprefix⟩ := List.cons_prefix_cons.mp hjs
          rw [hst] at hst''
          cases hst''
          exact (ih (hinv s _ s' hs hst) hs').mpr rest' _ u hprefix hrest

/-- The executable run computes exactly the runs. -/
theorem iff_exec [∀ s i, Decidable (ok s i)] :
    Run step ok s is t ↔ exec step ok s is = some t := by
  constructor
  · intro h
    induction h with
    | nil => rfl
    | cons hok hst _ ih => rw [exec, if_pos hok, hst]; exact ih
  · intro h
    induction is generalizing s with
    | nil => cases h; exact .nil _
    | cons i is ih =>
      rw [exec] at h
      by_cases hok : ok s i
      · rw [if_pos hok] at h
        obtain ⟨s', hst, hrest⟩ := Option.bind_eq_some_iff.mp h
        exact .cons hok hst (ih hrest)
      · rw [if_neg hok] at h; cases h

/-- A run of which the execution shows a part of the last state. -/
theorem of_exec_map [∀ s i, Decidable (ok s i)] {f : S → β} {b : β}
    (h : (exec step ok s is).map f = some b) : ∃ t, Run step ok s is t ∧ f t = b := by
  obtain ⟨t, ht, hb⟩ := Option.map_eq_some_iff.mp h
  exact ⟨t, iff_exec.mpr ht, hb⟩

/-- A run to a state that has what the execution shows of it. -/
theorem exists_of_exec [∀ s i, Decidable (ok s i)] {f : S → β} {b : β}
    (h : (exec step ok s is).map f = some b) (hP : ∀ t, Run step ok s is t → f t = b → P t) :
    ∃ t, Run step ok s is t ∧ P t := by
  obtain ⟨t, hrun, hb⟩ := of_exec_map h
  exact ⟨t, hrun, hP t hrun hb⟩

end Run

/-! ## Runs that come to rest

The inputs of a system are those of its surroundings and its own. If a measure falls with every
step that the system makes by itself, the system comes to rest: a run of its own steps is never
longer than the measure, and can be prolonged to a state in which it can make no step (`Quiet`).
-/

section Quiet

/-- No own step is possible. -/
def Quiet (step : S → I → Option S) (own : I → Prop) (s : S) : Prop :=
  ∀ i, own i → step s i = none

namespace Run

variable {step : S → I → Option S} {own : I → Prop} {P : S → Prop} {measure : S → ℕ} {s t : S}
  {is : List I}

/-- A run of own steps is no longer than the measure allows. -/
theorem length_add_measure_le (h : Run step (fun _ i => own i) s is t)
    (hinv : ∀ s i s', P s → own i → step s i = some s' → P s')
    (hfalls : ∀ s i s', P s → own i → step s i = some s' → measure s' < measure s) (hs : P s) :
    is.length + measure t ≤ measure s := by
  induction h with
  | nil => simp
  | cons hown hst _ ih =>
    have hrest := ih (hinv _ _ _ hs hown hst)
    have hless := hfalls _ _ _ hs hown hst
    simp only [List.length_cons]
    omega

/-- From every state the system can come to rest by itself. -/
theorem exists_quiet (hinv : ∀ s i s', P s → own i → step s i = some s' → P s')
    (hfalls : ∀ s i s', P s → own i → step s i = some s' → measure s' < measure s) (hs : P s) :
    ∃ is t, Run step (fun _ i => own i) s is t ∧ Quiet step own t := by
  induction hm : measure s using Nat.strongRecOn generalizing s with
  | _ m ih =>
    by_cases hquiet : Quiet step own s
    · exact ⟨[], s, .nil s, hquiet⟩
    · unfold Quiet at hquiet
      push Not at hquiet
      obtain ⟨i, hown, hi⟩ := hquiet
      obtain ⟨s', hst⟩ := Option.ne_none_iff_exists'.mp hi
      have hless : measure s' < m := hm ▸ hfalls s i s' hs hown hst
      obtain ⟨is, t, hrun, ht⟩ := ih (measure s') hless (hinv s i s' hs hown hst) rfl
      exact ⟨i :: is, t, .cons hown hst hrun, ht⟩

end Run

end Quiet

end Loopy.Lib
