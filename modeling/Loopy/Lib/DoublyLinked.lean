import Loopy.Lib.Chain

/-!
# Doubly linked lists

An intrusive list: every node has a link to the next and to the previous node, and the head is
kept outside. `Holds d l` says that the nodes from the head on are `l`, with both links. A node is
pushed in front and taken out at any place.
-/

namespace Loopy.Lib

open Function (update update_of_ne update_self)

variable {N : Type*}

/-- The previous links of the nodes of `l`, whose first node is behind `p`. -/
def BackLinks (prev : N → Option N) : Option N → List N → Prop
  | _, [] => True
  | p, n :: l => prev n = p ∧ BackLinks prev (some n) l

namespace BackLinks

variable {prev prev' : N → Option N} {p : Option N} {l l₁ l₂ : List N} {n : N}

theorem congr (h : BackLinks prev p l) (hsame : ∀ n ∈ l, prev' n = prev n) :
    BackLinks prev' p l := by
  induction l generalizing p with
  | nil => trivial
  | cons n l ih =>
    refine ⟨(hsame n List.mem_cons_self).trans h.1, ?_⟩
    exact ih h.2 fun m hm => hsame m (List.mem_cons_of_mem n hm)

theorem append :
    BackLinks prev p (l₁ ++ l₂) ↔
      BackLinks prev p l₁ ∧ BackLinks prev (l₁.getLast?.or p) l₂ := by
  induction l₁ generalizing p with
  | nil => exact ⟨fun h => ⟨trivial, h⟩, And.right⟩
  | cons n l₁ ih =>
    have hlast : (n :: l₁).getLast?.or p = l₁.getLast?.or (some n) := by
      cases l₁ with
      | nil => rfl
      | cons m l₁ =>
        rw [List.getLast?_cons_cons]
        cases hm : (m :: l₁).getLast? with
        | none => simp at hm
        | some k => rfl
    rw [List.cons_append, hlast]
    constructor
    · intro h
      exact ⟨⟨h.1, (ih.mp h.2).1⟩, (ih.mp h.2).2⟩
    · intro h
      exact ⟨h.1.1, ih.mpr ⟨h.1.2, h.2⟩⟩

end BackLinks

/-- The links of a doubly linked list. -/
structure DList (N : Type*) where
  next : N → Option N
  prev : N → Option N
  head : Option N

namespace DList

variable {d : DList N} {l l₁ l₂ : List N} {n : N}

/-- The nodes from the head on. -/
structure Holds (d : DList N) (l : List N) : Prop where
  chain : Chain d.next d.head l
  back : BackLinks d.prev none l

theorem Holds.nodup (h : d.Holds l) : l.Nodup := h.chain.nodup

theorem Holds.head_eq (h : d.Holds l) : d.head = l.head? := h.chain.head

theorem Holds.congr {d' : DList N} (h : d.Holds l) (hnext : ∀ n ∈ l, d'.next n = d.next n)
    (hprev : ∀ n ∈ l, d'.prev n = d.prev n) (hhead : d'.head = d.head) : d'.Holds l := by
  refine ⟨?_, h.back.congr hprev⟩
  rw [hhead]
  exact h.chain.congr hnext

/-- The links of a node in the list. -/
theorem Holds.links (h : d.Holds (l₁ ++ n :: l₂)) :
    d.prev n = l₁.getLast? ∧ d.next n = l₂.head? := by
  constructor
  · have hback := (BackLinks.append.mp h.back).2.1
    rwa [Option.or_none] at hback
  · obtain ⟨q, -, hq⟩ := h.chain.split
    exact hq.tail.head

variable [DecidableEq N]

/-- A new node in front. -/
def push (d : DList N) (n : N) : DList N where
  next := update d.next n d.head
  prev :=
    let prev := update d.prev n none
    match d.head with
    | some m => update prev m (some n)
    | none => prev
  head := some n

/-- A node is taken out. -/
def remove (d : DList N) (n : N) : DList N where
  next :=
    match d.prev n with
    | some p => update d.next p (d.next n)
    | none => d.next
  prev :=
    match d.next n with
    | some m => update d.prev m (d.prev n)
    | none => d.prev
  head :=
    match d.prev n with
    | some _ => d.head
    | none => d.next n

theorem Holds.push (h : d.Holds l) (hn : n ∉ l) : (d.push n).Holds (n :: l) := by
  have hne : ∀ m ∈ l, m ≠ n := by
    rintro m hm rfl
    exact hn hm
  refine ⟨h.chain.push (update_self ..) fun m hm => update_of_ne (hne m hm) .., ?_⟩
  have hhead := h.head_eq
  cases l with
  | nil =>
    refine ⟨?_, trivial⟩
    unfold DList.push
    rw [hhead]
    exact update_self ..
  | cons m l =>
    have hm := hne m List.mem_cons_self
    have hml := (List.nodup_cons.mp h.nodup).1
    unfold DList.push
    rw [hhead]
    refine ⟨?_, update_self .., ?_⟩
    · rw [List.head?_cons]
      dsimp only
      rw [update_of_ne hm.symm, update_self]
    · refine h.back.2.congr fun k hk => ?_
      have hkm : k ≠ m := by
        rintro rfl
        exact hml hk
      rw [List.head?_cons]
      dsimp only
      rw [update_of_ne hkm, update_of_ne (hne k (List.mem_cons_of_mem m hk))]

theorem Holds.remove_append (h : d.Holds (l₁ ++ n :: l₂)) : (d.remove n).Holds (l₁ ++ l₂) := by
  obtain ⟨hprev, hnext⟩ := h.links
  obtain ⟨-, hnodup₂, hdisjoint⟩ := List.nodup_append.mp h.nodup
  obtain ⟨hn₂, hnodup₂⟩ := List.nodup_cons.mp hnodup₂
  refine ⟨?_, ?_⟩
  · -- the next links: of the head, or of the node before
    rcases List.eq_nil_or_concat l₁ with rfl | ⟨l, p, rfl⟩
    · show Chain (d.remove n).next (d.remove n).head l₂
      unfold DList.remove
      rw [hprev]
      exact h.chain.tail
    · rw [List.concat_eq_append] at *
      rw [List.getLast?_concat] at hprev
      have hchain := h.chain
      rw [List.append_assoc, List.singleton_append] at hchain ⊢
      unfold DList.remove
      rw [hprev]
      refine hchain.unlink (update_self ..) fun k _ hk => ?_
      exact update_of_ne hk ..
  · -- the previous links: of the node behind, if there is one
    obtain ⟨hback₁, hback₂⟩ := BackLinks.append.mp h.back
    rw [Option.or_none] at hback₂
    cases l₂ with
    | nil =>
      rw [List.append_nil]
      unfold DList.remove
      rw [hnext]
      exact hback₁
    | cons m l =>
      have hm₁ : m ∉ l₁ := by
        intro hmem
        exact hdisjoint m hmem m (List.mem_cons_of_mem n List.mem_cons_self) rfl
      have hml := (List.nodup_cons.mp hnodup₂).1
      unfold DList.remove
      rw [hnext, List.head?_cons]
      dsimp only
      refine BackLinks.append.mpr ⟨hback₁.congr fun k hk => ?_, ?_, ?_⟩
      · have hkm : k ≠ m := by
          rintro rfl
          exact hm₁ hk
        exact update_of_ne hkm ..
      · rw [Option.or_none, update_self, hprev]
      · refine hback₂.2.2.congr fun k hk => ?_
        have hkm : k ≠ m := by
          rintro rfl
          exact hml hk
        exact update_of_ne hkm ..

/-- What is left without a node. -/
theorem Holds.remove (h : d.Holds l) (hn : n ∈ l) : (d.remove n).Holds (l.erase n) := by
  obtain ⟨l₁, l₂, rfl⟩ := List.append_of_mem hn
  have hn₁ : n ∉ l₁ := by
    intro hmem
    exact (List.nodup_append.mp h.nodup).2.2 n hmem n List.mem_cons_self rfl
  rw [List.erase_append_right _ hn₁, List.erase_cons_head]
  exact h.remove_append

/-- A push changes the links of the new node and of the nodes of the list. -/
theorem Holds.push_other (h : d.Holds l) {m : N} (hn : m ≠ n) (hl : m ∉ l) :
    (d.push n).next m = d.next m ∧ (d.push n).prev m = d.prev m := by
  refine ⟨update_of_ne hn .., ?_⟩
  have hhead := h.head_eq
  unfold DList.push
  rw [hhead]
  cases l with
  | nil => exact update_of_ne hn ..
  | cons k l =>
    have hk : m ≠ k := by
      rintro rfl
      exact hl List.mem_cons_self
    rw [List.head?_cons]
    dsimp only
    rw [update_of_ne hk, update_of_ne hn]

/-- A removal changes the links of nodes of the list. -/
theorem Holds.remove_other (h : d.Holds l) (hn : n ∈ l) {m : N} (hl : m ∉ l) :
    (d.remove n).next m = d.next m ∧ (d.remove n).prev m = d.prev m := by
  obtain ⟨l₁, l₂, rfl⟩ := List.append_of_mem hn
  obtain ⟨hprev, hnext⟩ := h.links
  constructor
  · unfold DList.remove
    rw [hprev]
    cases hp : l₁.getLast? with
    | none => rfl
    | some p =>
      refine update_of_ne ?_ ..
      rintro rfl
      exact hl (List.mem_append_left _ (List.mem_of_getLast? hp))
  · unfold DList.remove
    rw [hnext]
    cases hq : l₂.head? with
    | none => rfl
    | some q =>
      refine update_of_ne ?_ ..
      rintro rfl
      exact hl (List.mem_append_right _ (List.mem_cons_of_mem n (List.mem_of_head? hq)))

end DList

end Loopy.Lib
