import Mathlib.Order.Interval.Finset.Nat

/-!
# Binary max-heaps over 1-indexed cells

The array is a function `a : ℕ → α`, of which the cells `1 .. n` are in use; cell `i` has
parent `i / 2`. `siftUp` and `siftDown` are the two restoring loops, by swaps and with an
explicit bound on the number of iterations.

* `Ordered n a`: no cell is larger than its parent.
* `UpOrder n a i` / `DownOrder n a i`: the order except for the pairs at cell `i`, in the
  form the two loops repair (`siftUp_ordered`, `siftDown_ordered`).
* `contents n a`: the multiset of the cells in use, which swaps keep (`contents_swapAt`).
-/

namespace Loopy.Lib.BinHeap

open Function (update update_of_ne update_self)

/-! ## Cells -/

section Cells

variable {α : Type*}

/-- Exchange the cells `i` and `j`. -/
def swapAt (a : ℕ → α) (i j : ℕ) : ℕ → α :=
  fun k => if k = i then a j else if k = j then a i else a k

@[simp] theorem swapAt_left (a : ℕ → α) (i j : ℕ) : swapAt a i j i = a j := by simp [swapAt]

@[simp] theorem swapAt_right (a : ℕ → α) (i j : ℕ) : swapAt a i j j = a i := by
  unfold swapAt; split <;> simp_all

variable {i n : ℕ}

theorem swapAt_other (a : ℕ → α) {j k : ℕ} (hi : k ≠ i) (hj : k ≠ j) :
    swapAt a i j k = a k := by simp [swapAt, hi, hj]

theorem swapAt_eq_comp (a : ℕ → α) (i j : ℕ) : swapAt a i j = a ∘ Equiv.swap i j := by
  funext k
  by_cases hi : k = i
  · subst hi; simp
  · by_cases hj : k = j
    · subst hj; simp
    · rw [swapAt_other a hi hj, Function.comp_apply, Equiv.swap_apply_of_ne_of_ne hi hj]

/-- The multiset of the cells `1 .. n`. -/
def contents (n : ℕ) (a : ℕ → α) : Multiset α := (Finset.Icc 1 n).val.map a

@[simp] theorem contents_zero (a : ℕ → α) : contents 0 a = 0 := by simp [contents]

theorem mem_contents {a : ℕ → α} {x : α} : x ∈ contents n a ↔ ∃ i, 1 ≤ i ∧ i ≤ n ∧ a i = x := by
  simp [contents, and_assoc]

theorem contents_congr {a b : ℕ → α} (h : ∀ i, 1 ≤ i → i ≤ n → a i = b i) :
    contents n a = contents n b := by
  refine Multiset.map_congr rfl fun i hi => ?_
  rw [Finset.mem_val, Finset.mem_Icc] at hi
  exact h i hi.1 hi.2

theorem contents_succ (n : ℕ) (a : ℕ → α) :
    contents (n + 1) a = a (n + 1) ::ₘ contents n a := by
  have hIcc : Finset.Icc 1 (n + 1) = Finset.cons (n + 1) (Finset.Icc 1 n) (by simp) := by
    ext k
    simp only [Finset.mem_Icc, Finset.mem_cons]
    omega
  rw [contents, hIcc, Finset.cons_val, Multiset.map_cons, contents]

theorem contents_swapAt {j : ℕ} (a : ℕ → α) (hi : 1 ≤ i) (hin : i ≤ n) (hj : 1 ≤ j) (hjn : j ≤ n) :
    contents n (swapAt a i j) = contents n a := by
  have hmap : (Finset.Icc 1 n).map (Equiv.swap i j).toEmbedding = Finset.Icc 1 n := by
    ext k
    simp only [Finset.mem_map_equiv, Equiv.symm_swap, Finset.mem_Icc]
    by_cases h1 : k = i
    · subst h1; rw [Equiv.swap_apply_left]; omega
    · by_cases h2 : k = j
      · subst h2; rw [Equiv.swap_apply_right]; omega
      · rw [Equiv.swap_apply_of_ne_of_ne h1 h2]
  rw [contents, swapAt_eq_comp, ← Multiset.map_map]
  have hval : (Finset.Icc 1 n).val.map (Equiv.swap i j) = (Finset.Icc 1 n).val := by
    conv_rhs => rw [← hmap]
    rfl
  rw [hval, contents]

/-- Moving the last cell into cell `i` drops exactly the value of cell `i`. -/
theorem contents_moveLast (a : ℕ → α) (hi : 1 ≤ i) (hin : i ≤ n) :
    contents (n + 1) a = a i ::ₘ contents n (update a i (a (n + 1))) := by
  rw [← contents_swapAt a hi (by omega) (by omega : 1 ≤ n + 1) le_rfl, contents_succ,
    swapAt_right]
  congr 1
  refine contents_congr fun k _ hkn => ?_
  by_cases hk : k = i
  · subst hk; simp
  · rw [swapAt_other a hk (by omega), update_of_ne hk]

end Cells

/-! ## Order -/

section Order

variable {α : Type*} [LinearOrder α]

/-- No cell in use is larger than its parent. -/
def Ordered (n : ℕ) (a : ℕ → α) : Prop := ∀ i, 2 ≤ i → i ≤ n → a i ≤ a (i / 2)

/-- The order, except between cell `i` and its parent; the children of `i` are below both. -/
structure UpOrder (n : ℕ) (a : ℕ → α) (i : ℕ) : Prop where
  others : ∀ c, 2 ≤ c → c ≤ n → c ≠ i → a c ≤ a (c / 2)
  grand : 2 ≤ i → ∀ c, c ≤ n → c / 2 = i → a c ≤ a (i / 2)

/-- The order, except between cell `i` and its children, which are below the parent of `i`. -/
structure DownOrder (n : ℕ) (a : ℕ → α) (i : ℕ) : Prop where
  others : ∀ c, 2 ≤ c → c ≤ n → c / 2 ≠ i → a c ≤ a (c / 2)
  grand : 2 ≤ i → ∀ c, c ≤ n → c / 2 = i → a c ≤ a (i / 2)

variable {n i : ℕ} {a : ℕ → α}

/-- The root of an ordered heap is a maximum. -/
theorem Ordered.le_root (h : Ordered n a) : ∀ i, 1 ≤ i → i ≤ n → a i ≤ a 1 := by
  intro i
  induction i using Nat.strong_induction_on with
  | _ i ih =>
    intro hi hin
    by_cases h2 : 2 ≤ i
    · exact (h i h2 hin).trans (ih (i / 2) (by omega) (by omega) (by omega))
    · have h1 : i = 1 := by omega
      rw [h1]

theorem Ordered.mono {m : ℕ} (h : Ordered n a) (hmn : m ≤ n) : Ordered m a :=
  fun i hi hin => h i hi (hin.trans hmn)

/-- One move of `siftUp`. -/
theorem UpOrder.move (h : UpOrder n a i) (hi : 2 ≤ i) (hin : i ≤ n) (hlt : a (i / 2) < a i) :
    UpOrder n (swapAt a i (i / 2)) (i / 2) := by
  constructor
  · intro c hc hcn hne
    by_cases hci : c = i
    · subst hci; rw [swapAt_left, swapAt_right]; exact hlt.le
    · rw [swapAt_other a hci hne]
      by_cases hpi : c / 2 = i
      · rw [hpi, swapAt_left]; exact h.grand hi c hcn hpi
      · by_cases hpp : c / 2 = i / 2
        · rw [hpp, swapAt_right]
          exact (hpp ▸ h.others c hc hcn hci).trans hlt.le
        · rw [swapAt_other a hpi hpp]; exact h.others c hc hcn hci
  · intro hp c hcn hcp
    have hq : i / 2 / 2 ≠ i / 2 := by omega
    rw [swapAt_other a (by omega) hq]
    have hup : a (i / 2) ≤ a (i / 2 / 2) := h.others (i / 2) hp (by omega) (by omega)
    by_cases hci : c = i
    · subst hci; rw [swapAt_left]; exact hup
    · rw [swapAt_other a hci (by omega)]
      exact (hcp ▸ h.others c (by omega) hcn hci).trans hup

theorem UpOrder.finish (h : UpOrder n a i) (hstop : 2 ≤ i → a i ≤ a (i / 2)) : Ordered n a := by
  intro c hc hcn
  by_cases hci : c = i
  · subst hci; exact hstop hc
  · exact h.others c hc hcn hci

/-- Move the value at cell `i` up while it is larger than its parent. -/
def siftUp : ℕ → (ℕ → α) → ℕ → (ℕ → α)
  | 0, a, _ => a
  | fuel + 1, a, i =>
    if 1 < i then
      if a (i / 2) ≥ a i then a
      else siftUp fuel (swapAt a i (i / 2)) (i / 2)
    else a

theorem siftUp_ordered : ∀ {fuel i : ℕ} {a : ℕ → α}, i ≤ fuel → i ≤ n →
    UpOrder n a i → Ordered n (siftUp fuel a i)
  | 0, i, a, hf, _, h => h.finish fun hi => by omega
  | fuel + 1, i, a, hf, hin, h => by
    rw [siftUp]
    split
    · rename_i hi
      split
      · rename_i hge; exact h.finish fun _ => hge
      · rename_i hlt
        exact siftUp_ordered (by omega) (by omega) (h.move hi hin (not_le.mp hlt))
    · rename_i hi; exact h.finish fun h2 => absurd h2 (by omega)

theorem contents_siftUp : ∀ {fuel i : ℕ} {a : ℕ → α}, i ≤ n →
    contents n (siftUp fuel a i) = contents n a
  | 0, _, _, _ => rfl
  | fuel + 1, i, a, hin => by
    rw [siftUp]
    split
    · split
      · rfl
      · rw [contents_siftUp (by omega), contents_swapAt a (by omega) hin (by omega) (by omega)]
    · rfl

/-- The larger of cell `i` and its children in use, the left one first. -/
def largest (n : ℕ) (a : ℕ → α) (i : ℕ) : ℕ :=
  let l := if 2 * i ≤ n ∧ a (2 * i) > a i then 2 * i else i
  if 2 * i + 1 ≤ n ∧ a (2 * i + 1) > a l then 2 * i + 1 else l

theorem largest_cases (n : ℕ) (a : ℕ → α) (i : ℕ) :
    largest n a i = i ∨ (largest n a i / 2 = i ∧ largest n a i ≤ n ∧ a i < a (largest n a i)) := by
  unfold largest
  by_cases hl : 2 * i ≤ n ∧ a (2 * i) > a i
  · by_cases hr : 2 * i + 1 ≤ n ∧ a (2 * i + 1) > a (2 * i)
    · right; simp only [if_pos hl, if_pos hr]
      exact ⟨by omega, hr.1, hl.2.trans hr.2⟩
    · right; simp only [if_pos hl, if_neg hr]
      exact ⟨by omega, hl.1, hl.2⟩
  · by_cases hr : 2 * i + 1 ≤ n ∧ a (2 * i + 1) > a i
    · right; simp only [if_neg hl, if_pos hr]
      exact ⟨by omega, hr.1, hr.2⟩
    · left; simp only [if_neg hl, if_neg hr]

theorem le_largest (n : ℕ) (a : ℕ → α) (i c : ℕ) (hc : c ≤ n) (hp : c / 2 = i) :
    a c ≤ a (largest n a i) := by
  have hcases : c = 2 * i ∨ c = 2 * i + 1 := by omega
  unfold largest
  by_cases hl : 2 * i ≤ n ∧ a (2 * i) > a i
  · by_cases hr : 2 * i + 1 ≤ n ∧ a (2 * i + 1) > a (2 * i)
    · simp only [if_pos hl, if_pos hr]
      rcases hcases with rfl | rfl
      · exact hr.2.le
      · exact le_rfl
    · simp only [if_pos hl, if_neg hr]
      rcases hcases with rfl | rfl
      · exact le_rfl
      · exact not_lt.mp fun hlt => hr ⟨hc, hlt⟩
  · by_cases hr : 2 * i + 1 ≤ n ∧ a (2 * i + 1) > a i
    · simp only [if_neg hl, if_pos hr]
      rcases hcases with rfl | rfl
      · exact (not_lt.mp fun hlt => hl ⟨hc, hlt⟩).trans hr.2.le
      · exact le_rfl
    · simp only [if_neg hl, if_neg hr]
      rcases hcases with rfl | rfl
      · exact not_lt.mp fun hlt => hl ⟨hc, hlt⟩
      · exact not_lt.mp fun hlt => hr ⟨hc, hlt⟩

/-- One move of `siftDown`. -/
theorem DownOrder.move {m : ℕ} (h : DownOrder n a i) (hm : m / 2 = i) (hi : 1 ≤ i) (hmn : m ≤ n)
    (hlt : a i < a m) (hmax : ∀ c, c ≤ n → c / 2 = i → a c ≤ a m) :
    DownOrder n (swapAt a i m) m := by
  have hmi : m ≠ i := by omega
  constructor
  · intro c hc hcn hcm
    by_cases hci : c = i
    · subst hci
      rw [swapAt_left, swapAt_other a (by omega) hcm]
      exact h.grand hc m hmn hm
    · by_cases hpi : c / 2 = i
      · rw [hpi, swapAt_left]
        by_cases hcm' : c = m
        · subst hcm'; rw [swapAt_right]; exact hlt.le
        · rw [swapAt_other a hci hcm']; exact hmax c hcn hpi
      · rw [swapAt_other a hci (by rintro rfl; exact hpi hm), swapAt_other a hpi hcm]
        exact h.others c hc hcn hpi
  · intro _ c hcn hcm
    rw [hm, swapAt_left, swapAt_other a (by omega) (by omega)]
    exact hcm ▸ h.others c (by omega) hcn (by omega)

theorem DownOrder.finish (h : DownOrder n a i) (hmax : ∀ c, 2 ≤ c → c ≤ n → c / 2 = i → a c ≤ a i) :
    Ordered n a := by
  intro c hc hcn
  by_cases hci : c / 2 = i
  · rw [hci]; exact hmax c hc hcn hci
  · exact h.others c hc hcn hci

/-- Move the value at cell `i` down while a child is larger. -/
def siftDown (n : ℕ) : ℕ → (ℕ → α) → ℕ → (ℕ → α)
  | 0, a, _ => a
  | fuel + 1, a, i =>
    if largest n a i = i then a
    else siftDown n fuel (swapAt a i (largest n a i)) (largest n a i)

theorem siftDown_ordered : ∀ {fuel i : ℕ} {a : ℕ → α}, n < fuel + i → 1 ≤ i →
    DownOrder n a i → Ordered n (siftDown n fuel a i)
  | 0, i, a, hf, _, h => h.finish fun c _ hcn hp => by omega
  | fuel + 1, i, a, hf, hi, h => by
    rw [siftDown]
    rcases largest_cases n a i with hl | ⟨hp, hn, hlt⟩
    · rw [if_pos hl]
      refine h.finish fun c _ hcn hp => ?_
      have hle := le_largest n a i c hcn hp
      rwa [hl] at hle
    · have hne : largest n a i ≠ i := by omega
      rw [if_neg hne]
      exact siftDown_ordered (by omega) (by omega)
        (h.move hp hi hn hlt fun c hcn hcp => le_largest n a i c hcn hcp)

theorem contents_siftDown : ∀ {fuel i : ℕ} {a : ℕ → α}, 1 ≤ i → i ≤ n →
    contents n (siftDown n fuel a i) = contents n a
  | 0, _, _, _, _ => rfl
  | fuel + 1, i, a, hi, hin => by
    rw [siftDown]
    rcases largest_cases n a i with hl | ⟨hp, hn, _⟩
    · rw [if_pos hl]
    · have hne : largest n a i ≠ i := by omega
      rw [if_neg hne, contents_siftDown (by omega) hn, contents_swapAt a hi hin (by omega) hn]

/-- Appending a cell breaks the order at most between it and its parent. -/
theorem Ordered.upOrder_append (h : Ordered n a) (x : α) :
    UpOrder (n + 1) (update a (n + 1) x) (n + 1) := by
  constructor
  · intro c hc hcn hne
    rw [update_of_ne hne, update_of_ne (by omega)]
    exact h c hc (by omega)
  · intro _ c hcn hp
    omega

/-- Overwriting cell `i` by a value above its parent leaves only that pair to repair. -/
theorem Ordered.upOrder_update (h : Ordered n a) (h2 : 2 ≤ i) (hin : i ≤ n) {x : α}
    (hx : a (i / 2) ≤ x) : UpOrder n (update a i x) i := by
  constructor
  · intro c hc hcn hne
    rw [update_of_ne hne]
    by_cases hp : c / 2 = i
    · subst hp
      rw [update_self]
      exact (h c hc hcn).trans ((h (c / 2) h2 hin).trans hx)
    · rw [update_of_ne hp]; exact h c hc hcn
  · intro _ c hcn hp
    rw [update_of_ne (by omega), update_of_ne (by omega)]
    exact (hp ▸ h c (by omega) hcn).trans (h i h2 hin)

/-- Overwriting cell `i` by a value below its parent leaves only its children to repair. -/
theorem Ordered.downOrder_update (h : Ordered n a) (hin : i ≤ n) {x : α}
    (hx : 2 ≤ i → x ≤ a (i / 2)) : DownOrder n (update a i x) i := by
  constructor
  · intro c hc hcn hp
    rw [update_of_ne hp]
    by_cases hci : c = i
    · subst hci; rw [update_self]; exact hx hc
    · rw [update_of_ne hci]; exact h c hc hcn
  · intro h2 c hcn hp
    rw [update_of_ne (by omega), update_of_ne (by omega)]
    exact (hp ▸ h c (by omega) hcn).trans (h i h2 hin)

end Order

end Loopy.Lib.BinHeap
