import Loopy.Lib.Chain

/-!
# Linked queues

A singly linked list with a pointer to its last node: nodes are appended at the tail and taken
from the head. A loop may walk along the links while nodes are appended; `Walks q p l` says that
the nodes of `l` are the ones that a loop at `p` has before it.
-/

namespace Loopy.Lib

open Function (update update_of_ne update_self)

/-- The two pointers, and the link of every node. -/
structure LinkedQueue (N : Type*) where
  head : Option N
  tail : Option N
  next : N → Option N

namespace LinkedQueue

variable {N : Type*} {q : LinkedQueue N} {p : Option N} {l : List N} {m n : N}

def empty (N : Type*) : LinkedQueue N := { head := none, tail := none, next := fun _ => none }

/-- A new node is appended. -/
def push [DecidableEq N] (q : LinkedQueue N) (n : N) : LinkedQueue N :=
  match q.tail with
  | some t =>
    { head := q.head, tail := some n,
      next := update (update q.next n none) t (some n) }
  | none => { head := some n, tail := some n, next := update q.next n none }

/-- The first node `n` is taken out. -/
def unlink (q : LinkedQueue N) (n : N) : LinkedQueue N where
  head := q.next n
  tail := if q.next n = none then none else q.tail
  next := q.next

/-- From `p` on the queue has the nodes `l`. -/
structure Walks (q : LinkedQueue N) (p : Option N) (l : List N) : Prop where
  chain : Chain q.next p l
  tail : l ≠ [] → q.tail = l.getLast?

/-- The nodes of the queue are `l`, and its tail is the last one. -/
structure Holds (q : LinkedQueue N) (l : List N) : Prop where
  chain : Chain q.next q.head l
  tail : q.tail = l.getLast?

theorem Holds.empty (N : Type*) : (empty N).Holds [] := ⟨.nil, rfl⟩

theorem Holds.walks (h : q.Holds l) : q.Walks q.head l := ⟨h.chain, fun _ => h.tail⟩

theorem Walks.nil : q.Walks none [] := ⟨.nil, fun h => absurd rfl h⟩

theorem Walks.eq_nil (h : q.Walks none l) : l = [] := h.chain.eq_none_iff.mp rfl

theorem Walks.exists_cons (h : q.Walks (some n) l) : ∃ l', l = n :: l' := by
  have hhead := h.chain.head
  cases l with
  | nil => cases hhead
  | cons m l =>
    obtain rfl : n = m := Option.some.inj hhead
    exact ⟨l, rfl⟩

/-- A loop goes on to the next node. -/
theorem Walks.tail_of_cons (h : q.Walks (some n) (n :: l)) : q.Walks (q.next n) l := by
  refine ⟨h.chain.tail, fun hne => ?_⟩
  obtain ⟨k, l, rfl⟩ := List.exists_cons_of_ne_nil hne
  rw [h.tail (List.cons_ne_nil _ _), List.getLast?_cons_cons]

theorem Holds.unlink (h : q.Holds (n :: l)) : (q.unlink n).Holds l := by
  have hchain : Chain q.next (q.next n) l := h.chain.tail
  refine ⟨hchain, ?_⟩
  show (if q.next n = none then none else q.tail) = l.getLast?
  rw [hchain.head]
  cases l with
  | nil => rfl
  | cons k l => rw [List.head?_cons, if_neg nofun, h.tail, List.getLast?_cons_cons]

section push

variable [DecidableEq N]

@[simp] theorem push_tail (q : LinkedQueue N) (n : N) : (q.push n).tail = some n := by
  unfold push
  split <;> rfl

/-- The head of a queue with a head stays. -/
theorem push_head_ne_none (hhead : q.head ≠ none) (n : N) : (q.push n).head ≠ none := by
  unfold push
  split
  · exact hhead
  · nofun

theorem push_next_self (hn : q.tail ≠ some n) : (q.push n).next n = none := by
  unfold push
  split
  · next t ht =>
    have hne : n ≠ t := by
      rintro rfl
      exact hn ht
    show update (update q.next n none) t (some n) n = none
    rw [update_of_ne hne, update_self]
  · exact update_self ..

theorem push_next_tail (ht : q.tail = some m) : (q.push n).next m = some n := by
  unfold push
  rw [ht]
  exact update_self ..

theorem push_next_of_ne (hn : m ≠ n) (ht : q.tail ≠ some m) : (q.push n).next m = q.next m := by
  unfold push
  split
  · next t htail =>
    have hne : m ≠ t := by
      rintro rfl
      exact ht htail
    show update (update q.next n none) t (some n) m = q.next m
    rw [update_of_ne hne, update_of_ne hn]
  · exact update_of_ne hn ..

/-- What a loop has before it grows by the new node, unless the loop has reached the end. -/
theorem Walks.push (h : q.Walks p l) (hne : l ≠ []) (hn : n ∉ l) :
    (q.push n).Walks p (l ++ [n]) := by
  obtain ⟨t, hlast⟩ : ∃ t, l.getLast? = some t := by
    cases hl : l.getLast? with
    | none => exact absurd (List.getLast?_eq_none_iff.mp hl) hne
    | some t => exact ⟨t, rfl⟩
  have ht : q.tail = some t := (h.tail hne).trans hlast
  have hmem : t ∈ l := List.mem_of_getLast? hlast
  have htn : t ≠ n := by
    rintro rfl
    exact hn hmem
  have hself : (q.push n).next n = none := by
    refine push_next_self ?_
    rw [ht]
    exact fun heq => htn (Option.some.inj heq)
  refine ⟨h.chain.snoc hlast (push_next_tail ht) hself fun k hk hkt => ?_, fun _ => ?_⟩
  · have hkn : k ≠ n := by
      rintro rfl
      exact hn hk
    refine push_next_of_ne hkn ?_
    rw [ht]
    exact fun heq => hkt (Option.some.inj heq).symm
  · rw [push_tail, List.getLast?_concat]

theorem Holds.push (h : q.Holds l) (hn : n ∉ l) : (q.push n).Holds (l ++ [n]) := by
  cases l with
  | nil =>
    have htail : q.tail = none := h.tail
    unfold LinkedQueue.push
    rw [htail]
    exact ⟨⟨rfl, update_self ..⟩, rfl⟩
  | cons k l =>
    have hwalks := h.walks.push (List.cons_ne_nil k l) hn
    have hhead : (q.push n).head = q.head := by
      have htail := h.tail
      unfold LinkedQueue.push
      cases hq : q.tail with
      | none =>
        rw [hq] at htail
        cases List.getLast?_eq_none_iff.mp htail.symm
      | some t => rfl
    refine ⟨?_, hwalks.tail (List.append_ne_nil_of_right_ne_nil _ (List.cons_ne_nil _ _))⟩
    rw [hhead]
    exact hwalks.chain

end push

end LinkedQueue

end Loopy.Lib
