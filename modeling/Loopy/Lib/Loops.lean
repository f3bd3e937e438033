import Mathlib.Data.List.Basic
import Mathlib.Data.List.Nodup
import Mathlib.Data.List.Perm.Basic
import Mathlib.Logic.Function.Iterate

/-!
# Loops over a list

Loops that try the items in turn, take them in batches, or go through a list that changes meanwhile.
-/

namespace Loopy.Lib

/-! ## Attempts in turn

`tryEach f` tries the items of a list in turn, with a state that every attempt changes: an attempt
goes on to the next item, or it ends the loop with a result. The list is exhausted if all of them go
on.
-/

section Attempts

variable {S A R : Type*}

/-- The result of the first attempt that ends the loop, and the state after it. -/
def tryEach (f : S → A → Option R × S) : S → List A → Option R × S
  | s, [] => (none, s)
  | s, a :: as =>
    match f s a with
    | (none, t) => tryEach f t as
    | (some r, t) => (some r, t)

variable {f : S → A → Option R × S} {s t u : S} {a : A} {as : List A} {r : R}

theorem tryEach_next (h : f s a = (none, t)) : tryEach f s (a :: as) = tryEach f t as := by
  rw [tryEach, h]

theorem tryEach_done (h : f s a = (some r, t)) : tryEach f s (a :: as) = (some r, t) := by
  rw [tryEach, h]

/-- What every attempt preserves holds after the loop. -/
theorem tryEach_invariant {P : S → Prop} (hf : ∀ s a, P s → P (f s a).2) (hs : P s) :
    P (tryEach f s as).2 := by
  induction as generalizing s with
  | nil => exact hs
  | cons a as ih =>
    have ha := hf s a hs
    cases h : f s a with
    | mk r u =>
      rw [h] at ha
      cases r with
      | none =>
        rw [tryEach_next h]
        exact ih ha
      | some r =>
        rw [tryEach_done h]
        exact ha

end Attempts

/-! ## Work in batches

A step takes the first `k` items of a list of pending work. After `n` steps the first `k * n` items
are done, and what the steps have put out is what they have done, also if there are two lists.
-/

section Batches

variable {S A O : Type*} {step : S → S} {k : ℕ}

/-- What is left when the first `k` items are taken out. -/
theorem mem_drop_iff {l : List A} {a : A} (h : l.Nodup) :
    a ∈ l.drop k ↔ a ∈ l ∧ a ∉ l.take k := by
  have hsplit := List.take_append_drop k l
  constructor
  · intro hdrop
    rw [← hsplit, List.nodup_append] at h
    exact ⟨List.mem_of_mem_drop hdrop, fun htake => h.2.2 a htake a hdrop rfl⟩
  · rintro ⟨hmem, htake⟩
    rw [← hsplit, List.mem_append] at hmem
    exact hmem.resolve_left htake

section total

variable {f : A → Option O} {l : List A}

theorem length_filterMap_of_some (h : ∀ a ∈ l, (f a).isSome = true) :
    (l.filterMap f).length = l.length := by
  rw [List.length_filterMap_eq_countP, List.countP_eq_length]
  exact h

theorem filterMap_take_drop (h : ∀ a ∈ l, (f a).isSome = true) :
    (l.take k).filterMap f = (l.filterMap f).take k ∧
      (l.drop k).filterMap f = (l.filterMap f).drop k := by
  have hsplit : (l.take k).filterMap f ++ (l.drop k).filterMap f = l.filterMap f := by
    rw [← List.filterMap_append, List.take_append_drop]
  have hlength : ((l.take k).filterMap f).length = min k l.length := by
    rw [length_filterMap_of_some fun a ha => h a (List.mem_of_mem_take ha), List.length_take]
  by_cases hk : k ≤ l.length
  · rw [← hsplit, List.take_left' (by omega), List.drop_left' (by omega)]
    exact ⟨rfl, rfl⟩
  · have hall : (l.filterMap f).length ≤ k := by
      rw [length_filterMap_of_some h]
      omega
    rw [List.take_of_length_le (by omega), List.drop_of_length_le (by omega),
      List.take_of_length_le hall, List.drop_of_length_le hall]
    exact ⟨rfl, rfl⟩

end total

/-- What is pending after `n` steps. -/
theorem pending_iterate (pending : S → List A) (h : ∀ s, pending (step s) = (pending s).drop k) (n : ℕ)
    (s : S) :
    pending (step^[n] s) = (pending s).drop (k * n) := by
  induction n with
  | zero => rfl
  | succ n ih =>
    rw [Function.iterate_succ_apply', h, ih, List.drop_drop]
    congr 1

/-- What `n` steps put out. -/
def batchOutputs (step : S → S) (out : S → List O) : ℕ → S → List O
  | 0, _ => []
  | n + 1, s => out s ++ batchOutputs step out n (step s)

/-- Every item that is done has been put out once. -/
theorem batchOutputs_perm {out : S → List O} {first second : S → List O}
    (hout : ∀ s, out s = (first s).take k ++ (second s).take k)
    (hfirst : ∀ s, first (step s) = (first s).drop k)
    (hsecond : ∀ s, second (step s) = (second s).drop k) (n : ℕ) (s : S) :
    (batchOutputs step out n s).Perm ((first s).take (k * n) ++ (second s).take (k * n)) := by
  induction n generalizing s with
  | zero => exact .refl _
  | succ n ih =>
    have hsplit (l : List O) : l.take (k * (n + 1)) = l.take k ++ (l.drop k).take (k * n) := by
      rw [Nat.mul_succ, Nat.add_comm, List.take_add]
    have hrest := ih (step s)
    rw [hfirst, hsecond] at hrest
    rw [batchOutputs, hout, hsplit, hsplit]
    calc (first s).take k ++ (second s).take k ++ batchOutputs step out n (step s)
      _ |>.Perm ((first s).take k ++ (second s).take k ++
          (((first s).drop k).take (k * n) ++ ((second s).drop k).take (k * n))) :=
        hrest.append_left _
      _ |>.Perm ((first s).take k ++ ((first s).drop k).take (k * n) ++
          ((second s).take k ++ ((second s).drop k).take (k * n))) := by
        rw [List.append_assoc, List.append_assoc]
        refine .append_left _ ?_
        rw [← List.append_assoc, ← List.append_assoc]
        exact .append_right _ List.perm_append_comm

end Batches

/-! ## A tour of a list that changes meanwhile

A list is gone through from the front while elements are pushed in front of it and taken out.
`todo` is what is still ahead, always the end of the list as it is by now; an element that was
there at the start and stays is passed exactly once.
-/

section Tour

variable {N : Type*} {start l todo visited : List N} {n : N}

/-- A tour of the elements of `start`; by now the list is `l`. -/
structure Tour (start l todo visited : List N) : Prop where
  suffix : todo <:+ l
  nodup : l.Nodup
  once : visited.Nodup
  apart : ∀ n ∈ visited, n ∉ todo
  all : ∀ n ∈ start, n ∈ l → n ∈ visited ∨ n ∈ todo

namespace Tour

/-- Nothing has been passed. -/
theorem init (start : List N) (h : l.Nodup) : Tour start l l [] where
  suffix := List.suffix_refl l
  nodup := h
  once := List.nodup_nil
  apart _ hn := absurd hn List.not_mem_nil
  all _ _ hn := .inr hn

/-- The first element ahead is passed. -/
theorem visit (h : Tour start l (n :: todo) visited) : Tour start l todo (visited ++ [n]) where
  suffix := (List.suffix_cons n todo).trans h.suffix
  nodup := h.nodup
  once := by
    rw [List.nodup_append]
    refine ⟨h.once, List.nodup_singleton n, fun m hm k hk => ?_⟩
    rw [List.mem_singleton.mp hk]
    rintro rfl
    exact h.apart m hm List.mem_cons_self
  apart m hm := by
    rcases List.mem_append.mp hm with hm | hm
    · exact fun hmem => h.apart m hm (List.mem_cons_of_mem n hmem)
    · rw [List.mem_singleton.mp hm]
      exact (List.nodup_cons.mp (h.suffix.sublist.nodup h.nodup)).1
  all m hm hl := by
    rw [List.mem_append, List.mem_singleton]
    rcases h.all m hm hl with hv | ht
    · exact .inl (.inl hv)
    · exact (List.mem_cons.mp ht).imp_left .inr

/-- A new element in front is not ahead. -/
theorem push (h : Tour start l todo visited) (hl : n ∉ l) (hstart : n ∉ start) :
    Tour start (n :: l) todo visited where
  suffix := h.suffix.trans (List.suffix_cons n l)
  nodup := List.nodup_cons.mpr ⟨hl, h.nodup⟩
  once := h.once
  apart := h.apart
  all m hm hmem := by
    rcases List.mem_cons.mp hmem with rfl | hmem
    · exact absurd hm hstart
    · exact h.all m hm hmem

variable [DecidableEq N]

theorem suffix_erase (h : todo <:+ l) (hl : l.Nodup) (n : N) : todo.erase n <:+ l.erase n := by
  obtain ⟨l₁, rfl⟩ := h
  by_cases hn : n ∈ l₁
  · have hdisjoint := (List.nodup_append.mp hl).2.2
    rw [List.erase_append_left _ hn, List.erase_of_not_mem fun hmem => hdisjoint n hn n hmem rfl]
    exact List.suffix_append ..
  · rw [List.erase_append_right _ hn]
    exact List.suffix_append ..

/-- An element is taken out. -/
theorem erase (h : Tour start l todo visited) (n : N) :
    Tour start (l.erase n) (todo.erase n) visited where
  suffix := suffix_erase h.suffix h.nodup n
  nodup := h.nodup.erase n
  once := h.once
  apart m hm hmem := h.apart m hm (List.mem_of_mem_erase hmem)
  all m hm hmem := by
    obtain ⟨hne, hmem⟩ := h.nodup.mem_erase_iff.mp hmem
    refine (h.all m hm hmem).imp_right fun ht => ?_
    exact (List.mem_erase_of_ne hne).mpr ht

/-- The element that comes next stays next if another one is taken out. -/
theorem head?_erase (hn : todo.head? ≠ some n) : (todo.erase n).head? = todo.head? := by
  cases todo with
  | nil => rfl
  | cons m todo =>
    have hm : m ≠ n := fun heq => hn (congrArg some heq)
    rw [List.erase_cons_tail (by simpa using hm)]
    rfl

end Tour

end Tour

end Loopy.Lib
