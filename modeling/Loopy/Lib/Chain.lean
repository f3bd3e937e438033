import Mathlib.Data.List.Perm.Subperm
import Mathlib.Data.List.Range

/-!
# Linked lists

The nodes of a linked list are names, and `next` gives the link of every node. `Seg next p l q`
says that the links lead from `p` through the nodes of `l` to `q`, and a `Chain` is a list that
ends with the null link. Links are written one at a time: the lemmas take the links before and
after, and ask that those of the other nodes are the same.
-/

namespace Loopy.Lib

variable {N : Type*} {next next' : N → Option N} {p q r : Option N} {l l₁ l₂ : List N} {m n : N}

/-- From `p` the links go through `l` and reach `q`. -/
def Seg (next : N → Option N) : Option N → List N → Option N → Prop
  | p, [], q => p = q
  | p, n :: l, q => p = some n ∧ Seg next (next n) l q

/-- From `p` the links go through `l` and end. -/
def Chain (next : N → Option N) (p : Option N) (l : List N) : Prop := Seg next p l none

/-- Only the links of the nodes on the way count. -/
theorem Seg.congr (h : Seg next p l q) (hsame : ∀ n ∈ l, next' n = next n) : Seg next' p l q := by
  induction l generalizing p with
  | nil => exact h
  | cons n l ih =>
    refine ⟨h.1, ?_⟩
    rw [hsame n List.mem_cons_self]
    exact ih h.2 fun m hm => hsame m (List.mem_cons_of_mem n hm)

theorem seg_append : Seg next p (l₁ ++ l₂) r ↔ ∃ q, Seg next p l₁ q ∧ Seg next q l₂ r := by
  induction l₁ generalizing p with
  | nil =>
    constructor
    · intro h
      exact ⟨p, rfl, h⟩
    · rintro ⟨q, rfl, h⟩
      exact h
  | cons n l ih =>
    constructor
    · rintro ⟨hp, h⟩
      obtain ⟨q, h1, h2⟩ := ih.mp h
      exact ⟨q, ⟨hp, h1⟩, h2⟩
    · rintro ⟨q, ⟨hp, h1⟩, h2⟩
      exact ⟨hp, ih.mpr ⟨q, h1, h2⟩⟩

namespace Chain

theorem congr (h : Chain next p l) (hsame : ∀ n ∈ l, next' n = next n) : Chain next' p l :=
  Seg.congr h hsame

theorem nil : Chain next none [] := rfl

theorem eq_none_iff (h : Chain next p l) : p = none ↔ l = [] := by
  cases l with
  | nil => exact iff_of_true h rfl
  | cons n l => simp [h.1]

/-- The first node. -/
theorem head (h : Chain next p l) : p = l.head? := by
  cases l with
  | nil => exact h
  | cons n l => exact h.1

theorem tail (h : Chain next p (n :: l)) : Chain next (next n) l := h.2

/-- A list is known from its first link. -/
theorem unique (h : Chain next p l₁) (h' : Chain next p l₂) : l₁ = l₂ := by
  induction l₁ generalizing p l₂ with
  | nil => exact (h'.eq_none_iff.mp h).symm
  | cons n l ih =>
    cases l₂ with
    | nil =>
      have hnone := h'.eq_none_iff.mpr rfl
      rw [h.1] at hnone
      cases hnone
    | cons m l' =>
      obtain rfl : n = m := Option.some.inj (h.1.symm.trans h'.1)
      rw [ih h.2 h'.2]

theorem split (h : Chain next p (l₁ ++ l₂)) : ∃ q, Seg next p l₁ q ∧ Chain next q l₂ :=
  seg_append.mp h

/-- The link of a node leads to the node behind it. -/
theorem next_eq (h : Chain next p (l₁ ++ n :: l₂)) : next n = l₂.head? := by
  obtain ⟨q, -, hq⟩ := h.split
  exact hq.tail.head

/-- A list that ends visits no node twice. -/
theorem nodup (h : Chain next p l) : l.Nodup := by
  induction l generalizing p with
  | nil => exact List.nodup_nil
  | cons n l ih =>
    refine List.nodup_cons.mpr ⟨fun hmem => ?_, ih h.2⟩
    -- the list from the second visit on is the list from the first one on
    obtain ⟨l₁, l₂, rfl⟩ := List.append_of_mem hmem
    obtain ⟨q, -, hq⟩ := split h.2
    obtain rfl : p = q := h.1.trans hq.1.symm
    have hlen := congrArg List.length (unique h hq)
    simp at hlen
    omega

/-- Nodes with numbers below a bound. -/
theorem length_le {next : ℕ → Option ℕ} {p : Option ℕ} {l : List ℕ} {bound : ℕ}
    (h : Chain next p l) (hlt : ∀ n ∈ l, n < bound) : l.length ≤ bound := by
  have hsub : l.Subperm (List.range bound) :=
    List.Nodup.subperm h.nodup fun n hn => List.mem_range.mpr (hlt n hn)
  have hle := List.Subperm.length_le hsub
  rwa [List.length_range] at hle

/-- A node in front. -/
theorem push (h : Chain next p l) (hn : next' n = p) (hsame : ∀ m ∈ l, next' m = next m) :
    Chain next' (some n) (n :: l) := by
  refine ⟨rfl, ?_⟩
  rw [hn]
  exact h.congr hsame

/-- A node after the last one. -/
theorem snoc (h : Chain next p l) (hlast : l.getLast? = some m) (hm : next' m = some n)
    (hn : next' n = none) (hsame : ∀ k ∈ l, k ≠ m → next' k = next k) :
    Chain next' p (l ++ [n]) := by
  induction l generalizing p with
  | nil => simp at hlast
  | cons k l ih =>
    refine ⟨h.1, ?_⟩
    cases l with
    | nil =>
      obtain rfl : k = m := by simpa using hlast
      exact ⟨hm, hn⟩
    | cons k' l =>
      rw [List.getLast?_cons_cons] at hlast
      have hne : k ≠ m := by
        rintro rfl
        exact (List.nodup_cons.mp h.nodup).1 (List.mem_of_getLast? hlast)
      have hk : next' k = next k := hsame k List.mem_cons_self hne
      rw [hk]
      exact ih h.2 hlast fun j hj => hsame j (List.mem_cons_of_mem k hj)

/-- A node behind another one is taken out. -/
theorem unlink (h : Chain next p (l₁ ++ m :: n :: l₂)) (hm : next' m = next n)
    (hsame : ∀ k ∈ l₁ ++ m :: n :: l₂, k ≠ m → next' k = next k) :
    Chain next' p (l₁ ++ m :: l₂) := by
  obtain ⟨-, hrest, hdisjoint⟩ := List.nodup_append.mp h.nodup
  have hm₂ := (List.nodup_cons.mp hrest).1
  obtain ⟨q, h1, h2⟩ := split h
  have hl₁ : ∀ k ∈ l₁, next' k = next k := by
    intro k hk
    exact hsame k (List.mem_append_left _ hk) (hdisjoint k hk m List.mem_cons_self)
  have hl₂ : ∀ k ∈ l₂, next' k = next k := by
    intro k hk
    have hmem : k ∈ m :: n :: l₂ := List.mem_cons_of_mem m (List.mem_cons_of_mem n hk)
    refine hsame k (List.mem_append_right _ hmem) ?_
    rintro rfl
    exact hm₂ (List.mem_cons_of_mem n hk)
  refine seg_append.mpr ⟨q, Seg.congr h1 hl₁, h2.1, ?_⟩
  rw [hm]
  exact Seg.congr h2.2.2 hl₂

end Chain

/-! ## Walks

A loop along the links is cut off after `fuel` nodes; on a list that is no longer it is not. -/

/-- The nodes that a loop visits. -/
def walk (next : N → Option N) : ℕ → Option N → List N
  | 0, _ => []
  | _ + 1, none => []
  | fuel + 1, some n => n :: walk next fuel (next n)

variable {fuel : ℕ} {test : N → Bool}

theorem walk_eq (h : Chain next p l) (hfuel : l.length ≤ fuel) : walk next fuel p = l := by
  induction l generalizing p fuel with
  | nil =>
    rw [h]
    cases fuel <;> rfl
  | cons n l ih =>
    obtain ⟨fuel, rfl⟩ : ∃ k, fuel = k + 1 := Nat.exists_eq_succ_of_ne_zero (by
      rw [List.length_cons] at hfuel
      omega)
    rw [h.1, walk, ih h.2 (Nat.le_of_succ_le_succ hfuel)]

/-- The first node that meets `test`, with the node before it. -/
def findLink (next : N → Option N) (test : N → Bool) : ℕ → Option N → Option N → Option (Option N × N)
  | 0, _, _ => none
  | _ + 1, _, none => none
  | fuel + 1, prev, some n =>
    if test n then some (prev, n) else findLink next test fuel (some n) (next n)

/-- What is found meets the test. -/
theorem findLink_test {prev before : Option N}
    (hfind : findLink next test fuel prev p = some (before, n)) : test n = true := by
  induction fuel generalizing p prev with
  | zero => cases hfind
  | succ fuel ih =>
    cases p with
    | none => cases hfind
    | some m =>
      rw [findLink] at hfind
      split at hfind
      next hm =>
        cases hfind
        exact hm
      next => exact ih hfind

theorem findLink_eq_none (h : Chain next p l) (hno : ∀ n ∈ l, test n = false) (fuel : ℕ)
    (prev : Option N) : findLink next test fuel prev p = none := by
  induction l generalizing p fuel prev with
  | nil =>
    rw [h]
    cases fuel <;> rfl
  | cons n l ih =>
    cases fuel with
    | zero => rfl
    | succ fuel =>
      rw [h.1, findLink, hno n List.mem_cons_self]
      exact ih h.2 (fun m hm => hno m (List.mem_cons_of_mem n hm)) fuel (some n)

theorem findLink_eq_some (h : Chain next p (l₁ ++ n :: l₂)) (hno : ∀ m ∈ l₁, test m = false)
    (hn : test n = true) (hfuel : l₁.length < fuel) (prev : Option N) :
    findLink next test fuel prev p = some (l₁.getLast?.or prev, n) := by
  induction l₁ generalizing p fuel prev with
  | nil =>
    obtain ⟨fuel, rfl⟩ := Nat.exists_eq_succ_of_ne_zero (Nat.ne_of_gt hfuel)
    rw [h.1, findLink, if_pos hn]
    rfl
  | cons m l ih =>
    obtain ⟨fuel, rfl⟩ := Nat.exists_eq_succ_of_ne_zero (Nat.ne_zero_of_lt hfuel)
    rw [h.1, findLink, hno m List.mem_cons_self, if_neg Bool.false_ne_true,
      ih h.2 (fun k hk => hno k (List.mem_cons_of_mem m hk)) (Nat.lt_of_succ_lt_succ hfuel)]
    cases l with
    | nil => rfl
    | cons k l => simp [List.getLast?_cons]

/-- A walk that finds something finds it on the list, behind the node that it names. -/
theorem findLink_found (h : Chain next p l) (hfuel : l.length < fuel) {before : Option N}
    (hfind : findLink next test fuel none p = some (before, n)) :
    ∃ l₁ l₂, l = l₁ ++ n :: l₂ ∧ before = l₁.getLast? := by
  cases hm : l.find? test with
  | none =>
    have hno : ∀ k ∈ l, test k = false := by
      intro k hk
      exact Bool.of_not_eq_true (List.find?_eq_none.mp hm k hk)
    rw [findLink_eq_none h hno] at hfind
    cases hfind
  | some m =>
    obtain ⟨htest, l₁, l₂, rfl, hno⟩ := List.find?_eq_some_iff_append.mp hm
    have hlt : l₁.length < fuel := by
      rw [List.length_append] at hfuel
      omega
    have hfirst : ∀ k ∈ l₁, test k = false := by
      intro k hk
      exact Bool.not_eq_true' _ ▸ hno k hk
    rw [findLink_eq_some h hfirst htest hlt, Option.or_none] at hfind
    cases hfind
    exact ⟨l₁, l₂, rfl, rfl⟩

end Loopy.Lib
