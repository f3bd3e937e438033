import Mathlib.Data.Finset.Card
import Mathlib.Data.Fintype.Basic
import Loopy.Lib.Run

/-!
# `loopyConcurrencyPool.c` and `loopyPubSub.c`: populations

The users of a `loopyConcurrencyPool` and the subscriptions of a `loopyPubSub` are counted by an
atomic counter and may be capped. `loopyConcurrencyPoolAddUser` and `loopySubscribe` make the cap
test before they take the lock, and insert and count under it; `loopyConcurrencyPoolRemoveUser`
and `loopyUnsubscribe` take away under the lock. `takes` is what the two pairs differ in: which
objects a locked section takes in. The tree may refuse for its own reasons. There are fewer than
`2 ^ 64` objects in memory.

Between a test and its insertion other calls insert. `Tracked` records which tests an insertion
of another call has overtaken: `population_capped` is the cap for the schedules in which a call
whose test is overtaken inserts only where there is room for it too.
-/

namespace Loopy.Caps

open Loopy.Lib
open Function (update update_of_ne update_self)

/-! ## The machine -/

/-- Where a thread is in its call. -/
inductive Pc (K : Type)
  | idle
  /-- The cap test is passed. -/
  | checked (k : K)
  /-- With the lock, before `raxTryInsert` or `raxTopicGet`. -/
  | adding (k : K)
  /-- Before `atomic_fetch_add`. -/
  | counting
  /-- With the lock, before the object is looked up. -/
  | removing (k : K)
  /-- Before `atomic_fetch_sub`. -/
  | uncounting
  /-- Before the unlock. -/
  | leaving
deriving DecidableEq, Repr

/-- The thread has the lock. -/
def Pc.locked {K : Type} : Pc K → Bool
  | .idle | .checked _ => false
  | .adding _ | .counting | .removing _ | .uncounting | .leaving => true

/-- The object that a call is about to insert. -/
def Pc.object {K : Type} : Pc K → Option K
  | .checked k | .adding k => some k
  | _ => none

/-- The objects of a pool or a hub, their counter and its cap. -/
structure Population (T K : Type) where
  max : ℕ
  members : Finset K
  count : ℕ
  lock : Option T
  thread : T → Pc K

/-- Of a new pool or hub. -/
def Population.fresh (T K : Type) (max : ℕ) : Population T K :=
  { max, members := ∅, count := 0, lock := none, thread := fun _ => .idle }

/-- The atomic actions of a thread. -/
inductive Action (T K : Type)
  | check (t : T) (k : K)
  | allocFail (t : T)
  | lockAdd (t : T)
  | insert (t : T) (ok : Bool)
  | fetchAdd (t : T)
  | lockRemove (t : T) (k : K)
  | remove (t : T)
  | fetchSub (t : T)
  | unlock (t : T)
deriving DecidableEq, Repr

variable {T K : Type} [DecidableEq T] [DecidableEq K]

/-- The thread `t` moves to `pc`. -/
def Population.move (s : Population T K) (t : T) (pc : Pc K) : Population T K :=
  { s with thread := update s.thread t pc }

/-- The cap test. -/
def Population.full (s : Population T K) : Bool := decide (s.max > 0) && decide (s.count ≥ s.max)

/-- One action. -/
def step (takes : Finset K → K → Bool) (s : Population T K) :
    Action T K → Option (Population T K)
  | .check t k =>
    if s.thread t = .idle then
      if s.full then some s else some (s.move t (.checked k))
    else none
  | .allocFail t =>
    match s.thread t with
    | .checked _ => some (s.move t .idle)
    | _ => none
  | .lockAdd t =>
    match s.thread t with
    | .checked k => if s.lock = none then some { s.move t (.adding k) with lock := some t } else none
    | _ => none
  | .insert t ok =>
    match s.thread t with
    | .adding k =>
      -- the cap is not tested again
      if ok && takes s.members k then
        some { s.move t .counting with members := insert k s.members }
      else some (s.move t .leaving)
    | _ => none
  | .fetchAdd t =>
    if s.thread t = .counting then some { s.move t .leaving with count := s.count + 1 } else none
  | .lockRemove t k =>
    if s.thread t = .idle ∧ s.lock = none then
      some { s.move t (.removing k) with lock := some t }
    else none
  | .remove t =>
    match s.thread t with
    | .removing k =>
      if k ∈ s.members then some { s.move t .uncounting with members := s.members.erase k }
      else some (s.move t .leaving)
    | _ => none
  | .fetchSub t =>
    if s.thread t = .uncounting then some { s.move t .leaving with count := s.count - 1 } else none
  | .unlock t =>
    if s.thread t = .leaving then some { s.move t .idle with lock := none } else none

/-- Every subscription is linked once its pattern has an entry. -/
def takesSubscription (_ : Finset K) (_ : K) : Bool := true

/-- `loopySubscribe` and `loopyUnsubscribe`: the objects are the subscriptions. -/
def subscriptionStep : Population T K → Action T K → Option (Population T K) :=
  step takesSubscription

/-! ## The cap -/

/-- What the counter and the cap promise of a state. -/
structure CapLaw (s : Population T K) : Prop where
  capped : 0 < s.max → s.members.card ≤ s.max
  settled : (∀ t, s.thread t = .idle) → s.count = s.members.card

/-- The locked section at this place takes an object in. -/
def Pc.inserts (takes : Finset K → K → Bool) (members : Finset K) (ok : Bool) : Pc K → Bool
  | .adding k => ok && takes members k
  | _ => false

/-- What the holder of the lock has still to add. -/
def Pc.toAdd : Pc K → ℕ
  | .counting => 1
  | _ => 0

/-- What the holder of the lock has still to subtract. -/
def Pc.toSub : Pc K → ℕ
  | .uncounting => 1
  | _ => 0

/-- The place of the holder of the lock. -/
def Population.holder (s : Population T K) : Pc K :=
  match s.lock with
  | some t => s.thread t
  | none => .idle

/-- A population with the record of the schedule: since the cap test of the call that the thread
`t` is in, another call has inserted its object or was about to count it (`overtaken t`). -/
structure Tracked (T K : Type) where
  population : Population T K
  overtaken : T → Bool

def Tracked.fresh (T K : Type) (max : ℕ) : Tracked T K :=
  { population := .fresh T K max, overtaken := fun _ => false }

/-- The tests that are overtaken after an action. -/
def Tracked.overtakes (takes : Finset K → K → Bool) (s : Tracked T K) : Action T K → T → Bool
  | .check t _ => update s.overtaken t (s.population.holder.toAdd = 1)
  | .insert t ok =>
    if (s.population.thread t).inserts takes s.population.members ok then fun _ => true
    else s.overtaken
  | _ => s.overtaken

/-- One action of the population; the record follows it. -/
def trackedStep (takes : Finset K → K → Bool) (s : Tracked T K) (a : Action T K) :
    Option (Tracked T K) :=
  (step takes s.population a).map fun population =>
    { population, overtaken := s.overtakes takes a }

/-- A call whose test is overtaken inserts only where there is room for it too. -/
def Undisturbed (takes : Finset K → K → Bool) (s : Tracked T K) : Action T K → Prop
  | .insert t ok =>
    (s.population.thread t).inserts takes s.population.members ok = true →
      s.overtaken t = true → s.population.members.card < s.population.max
  | _ => True

/-- `zcalloc` returns a subscription that nobody has, and a caller unsubscribes only what is
subscribed. -/
def Owned (s : Population T K) : Action T K → Prop
  | .check _ k => k ∉ s.members ∧ ∀ t, (s.thread t).object ≠ some k
  | .lockRemove _ k => k ∈ s.members
  | _ => True

instance (takes : Finset K → K → Bool) (s : Tracked T K) :
    ∀ a, Decidable (Undisturbed takes s a)
  | .insert .. =>
    inferInstanceAs (Decidable (_ → _))
  | .check .. | .allocFail _ | .lockAdd _ | .fetchAdd _ | .lockRemove .. | .remove _
  | .fetchSub _ | .unlock _ => isTrue trivial

instance [Fintype T] (s : Population T K) : ∀ a, Decidable (Owned s a)
  | .check .. =>
    inferInstanceAs (Decidable (_ ∧ _))
  | .lockRemove _ k => inferInstanceAs (Decidable (k ∈ s.members))
  | .allocFail _ | .lockAdd _ | .insert .. | .fetchAdd _ | .remove _ | .fetchSub _ | .unlock _ =>
    isTrue trivial

/-! ## The counter -/

/-- The counter is right but for what the holder of the lock has still to do. -/
structure CountInv (s : Population T K) : Prop where
  locked : ∀ t, (s.thread t).locked = true → s.lock = some t
  count : s.count + s.holder.toAdd = s.members.card + s.holder.toSub
  capped : 0 < s.max → s.members.card ≤ s.max

/-- An object that a call is about to insert is new, and it is the call's own. -/
structure Fresh (s : Population T K) : Prop where
  new : ∀ t k, (s.thread t).object = some k → k ∉ s.members
  own : ∀ t t' k, (s.thread t).object = some k → (s.thread t').object = some k → t' = t

variable {s s' : Population T K} {t : T} {pc : Pc K}

omit [DecidableEq K] in
/-- A move outside the lock. -/
theorem CountInv.moves (h : CountInv s) (ht : (s.thread t).locked = false)
    (hpc : pc.locked = false) : CountInv (s.move t pc) := by
  have hthread : ∀ t', (update s.thread t pc t').locked = true → s.lock = some t' := by
    rw [Function.forall_update_iff s.thread fun t' pc => pc.locked = true → s.lock = some t']
    exact ⟨fun hlocked => absurd hlocked (by simp [hpc]), fun t' _ => h.locked t'⟩
  refine ⟨hthread, ?_, h.capped⟩
  have hcount := h.count
  unfold Population.holder at hcount ⊢
  unfold Population.move
  cases hlock : s.lock with
  | none =>
    rw [hlock] at hcount
    exact hcount
  | some t' =>
    rw [hlock] at hcount
    by_cases heq : t' = t
    · -- the thread `t` has nothing to do for the counter, before or after
      subst heq
      have hold : (s.thread t').toAdd = 0 ∧ (s.thread t').toSub = 0 := by
        cases hplace : s.thread t' <;> simp_all [Pc.locked, Pc.toAdd, Pc.toSub]
      have hnew : pc.toAdd = 0 ∧ pc.toSub = 0 := by
        cases pc <;> simp_all [Pc.locked, Pc.toAdd, Pc.toSub]
      dsimp only at hcount
      simp only [update_self]
      omega
    · simp only [update_of_ne heq]
      exact hcount

omit [DecidableEq K] in
/-- A thread takes the lock. -/
theorem CountInv.locks (h : CountInv s) (hlock : s.lock = none)
    (hpc : pc.toAdd = 0 ∧ pc.toSub = 0) : CountInv { s.move t pc with lock := some t } := by
  have hthread : ∀ t', (update s.thread t pc t').locked = true → some t = some t' := by
    rw [Function.forall_update_iff s.thread fun t' pc => pc.locked = true → some t = some t']
    refine ⟨fun _ => rfl, fun t' _ ht' => ?_⟩
    rw [h.locked t' ht'] at hlock
    cases hlock
  refine ⟨hthread, ?_, h.capped⟩
  have hcount := h.count
  rw [Population.holder, hlock] at hcount
  show s.count + (update s.thread t pc t).toAdd =
    s.members.card + (update s.thread t pc t).toSub
  rw [update_self, hpc.1, hpc.2]
  exact hcount

omit [DecidableEq K] in
/-- The holder of the lock goes on. -/
theorem CountInv.works (h : CountInv s) (pc : Pc K) (members : Finset K) (count : ℕ)
    (ht : (s.thread t).locked = true)
    (hcount : s.count + (s.thread t).toAdd = s.members.card + (s.thread t).toSub →
      count + pc.toAdd = members.card + pc.toSub)
    (hcap : 0 < s.max → members.card ≤ s.max) :
    CountInv { s.move t pc with members, count } := by
  have hlock := h.locked t ht
  have hthread : ∀ t', (update s.thread t pc t').locked = true → s.lock = some t' := by
    rw [Function.forall_update_iff s.thread fun t' pc => pc.locked = true → s.lock = some t']
    exact ⟨fun _ => hlock, fun t' _ => h.locked t'⟩
  refine ⟨hthread, ?_, hcap⟩
  have hold := h.count
  rw [Population.holder, hlock] at hold
  simp only [Population.holder, Population.move, hlock, update_self]
  exact hcount hold

omit [DecidableEq K] in
/-- The holder of the lock unlocks. -/
theorem CountInv.unlocks (h : CountInv s) (ht : s.thread t = .leaving) :
    CountInv { s.move t .idle with lock := none } := by
  have hlock := h.locked t (by rw [ht]; rfl)
  have hthread : ∀ t', (update s.thread t (.idle : Pc K) t').locked = true →
      none = some t' := by
    rw [Function.forall_update_iff s.thread fun t' pc => pc.locked = true → none = some t']
    refine ⟨nofun, fun t' hne ht' => ?_⟩
    rw [h.locked t' ht'] at hlock
    exact absurd (Option.some.inj hlock) hne
  refine ⟨hthread, ?_, h.capped⟩
  have hcount := h.count
  rw [Population.holder, hlock] at hcount
  simp only [ht] at hcount
  exact hcount

variable {takes : Finset K → K → Bool} {a : Action T K}

/-- **A step.** What is taken in is new, and there is room for it. -/
theorem CountInv.step (h : CountInv s)
    (hnew : ∀ t k, s.thread t = .adding k → takes s.members k = true → k ∉ s.members)
    (hroom : ∀ t ok, a = .insert t ok → (s.thread t).inserts takes s.members ok = true →
      0 < s.max → s.members.card < s.max)
    (hstep : step takes s a = some s') : CountInv s' := by
  -- one case per action: the lock is taken or kept, or the thread is outside of it
  cases a with
  | check t k =>
    obtain ⟨ht, hstep⟩ := Option.ite_none_right_eq_some.mp hstep
    split at hstep <;> cases hstep
    · exact h
    · exact h.moves (by rw [ht]; rfl) rfl
  | allocFail t =>
    rw [Caps.step] at hstep
    split at hstep
    · next k ht =>
      cases hstep
      exact h.moves (by rw [ht]; rfl) rfl
    · cases hstep
  | lockAdd t =>
    rw [Caps.step] at hstep
    split at hstep
    · next k ht =>
      obtain ⟨hlock, rfl⟩ := of_guard hstep
      exact h.locks hlock ⟨rfl, rfl⟩
    · cases hstep
  | insert t ok =>
    rw [Caps.step] at hstep
    split at hstep
    · next k ht =>
      have hlocked : (s.thread t).locked = true := by rw [ht]; rfl
      have hroom := hroom t ok rfl
      rw [ht] at hroom
      split at hstep <;> cases hstep
      · next htakes =>
        have hk := hnew t k ht (Bool.and_eq_true _ _ ▸ htakes).2
        have hcard := Finset.card_insert_of_notMem hk
        refine h.works .counting _ s.count hlocked (fun hcount => ?_) (fun hmax => ?_)
        · rw [ht] at hcount
          show s.count + 1 = (insert k s.members).card + 0
          rw [hcard]
          exact congrArg (· + 1) hcount
        · have hlt := hroom htakes hmax
          omega
      · refine h.works .leaving s.members s.count hlocked (fun hcount => ?_) h.capped
        rw [ht] at hcount
        exact hcount
    · cases hstep
  | fetchAdd t =>
    obtain ⟨ht, rfl⟩ := of_guard hstep
    refine h.works .leaving s.members _ (by rw [ht]; rfl) (fun hcount => ?_) h.capped
    rw [ht] at hcount
    exact hcount
  | lockRemove t k =>
    obtain ⟨⟨ht, hlock⟩, rfl⟩ := of_guard hstep
    exact h.locks hlock ⟨rfl, rfl⟩
  | remove t =>
    rw [Caps.step] at hstep
    split at hstep
    · next k ht =>
      have hlocked : (s.thread t).locked = true := by rw [ht]; rfl
      split at hstep <;> cases hstep
      · next hk =>
        have hcard := Finset.card_erase_add_one hk
        refine h.works .uncounting _ s.count hlocked (fun hcount => ?_) (fun hmax => ?_)
        · rw [ht] at hcount
          show s.count + 0 = (s.members.erase k).card + 1
          rw [hcard]
          exact hcount
        · have hcap := h.capped hmax
          omega
      · refine h.works .leaving s.members s.count hlocked (fun hcount => ?_) h.capped
        rw [ht] at hcount
        exact hcount
    · cases hstep
  | fetchSub t =>
    obtain ⟨ht, rfl⟩ := of_guard hstep
    refine h.works .leaving s.members _ (by rw [ht]; rfl) (fun hcount => ?_) h.capped
    rw [ht] at hcount
    simp only [Pc.toAdd, Pc.toSub] at hcount ⊢
    omega
  | unlock t =>
    obtain ⟨ht, rfl⟩ := of_guard hstep
    exact h.unlocks ht

omit [DecidableEq T] [DecidableEq K] in
theorem CountInv.fresh (max : ℕ) : CountInv (.fresh T K max) :=
  ⟨nofun, rfl, fun _ => Nat.zero_le _⟩

omit [DecidableEq T] [DecidableEq K] in
theorem CountInv.law (h : CountInv s) : CapLaw s := by
  refine ⟨h.capped, fun hidle => ?_⟩
  have hholder : s.holder = .idle := by
    unfold Population.holder
    split
    · exact hidle _
    · rfl
  have hcount := h.count
  rwa [hholder] at hcount

/-! ## The subscriptions are new -/

omit [DecidableEq K] in
/-- A thread moves on with its object or without one. -/
theorem Fresh.moves (h : Fresh s) {members : Finset K} (hsub : members ⊆ s.members)
    (hpc : ∀ k, pc.object = some k → (s.thread t).object = some k) (count : ℕ)
    (lock : Option T) : Fresh { s.move t pc with members, count, lock } := by
  have hobject : ∀ t' k, (update s.thread t pc t').object = some k →
      (s.thread t').object = some k := by
    intro t' k
    by_cases heq : t' = t
    · subst heq
      rw [update_self]
      exact hpc k
    · rw [update_of_ne heq]
      exact id
  refine ⟨fun t' k hk hmem => ?_, fun t' t'' k hk hk' => ?_⟩
  · exact h.new t' k (hobject t' k hk) (hsub hmem)
  · exact h.own t' t'' k (hobject t' k hk) (hobject t'' k hk')

omit [DecidableEq K] in
/-- A call begins with an object that nobody has. -/
theorem Fresh.begins (h : Fresh s) {k : K} (hk : k ∉ s.members)
    (hnone : ∀ t, (s.thread t).object ≠ some k) : Fresh (s.move t (.checked k)) := by
  have hobject : ∀ t' k', (update s.thread t (.checked k) t').object = some k' →
      (t' = t ∧ k' = k) ∨ (t' ≠ t ∧ (s.thread t').object = some k') := by
    intro t' k' hk'
    by_cases heq : t' = t
    · subst heq
      rw [update_self] at hk'
      cases hk'
      exact .inl ⟨rfl, rfl⟩
    · rw [update_of_ne heq] at hk'
      exact .inr ⟨heq, hk'⟩
  refine ⟨fun t' k' hk' => ?_, fun t' t'' k' hk' hk'' => ?_⟩
  · rcases hobject t' k' hk' with ⟨-, rfl⟩ | ⟨-, hold⟩
    · exact hk
    · exact h.new t' k' hold
  · rcases hobject t' k' hk' with ⟨rfl, rfl⟩ | ⟨-, hold⟩
    · rcases hobject t'' k' hk'' with ⟨rfl, -⟩ | ⟨-, hold'⟩
      · rfl
      · exact absurd hold' (hnone t'')
    · rcases hobject t'' k' hk'' with ⟨rfl, rfl⟩ | ⟨-, hold'⟩
      · exact absurd hold (hnone t')
      · exact h.own t' t'' k' hold hold'

/-- A call inserts its object. -/
theorem Fresh.inserts (h : Fresh s) {k : K} (ht : s.thread t = .adding k) :
    Fresh { s.move t .counting with members := insert k s.members } := by
  have hk : (s.thread t).object = some k := by rw [ht]; rfl
  have hobject : ∀ t' k', (update s.thread t .counting t').object = some k' →
      t' ≠ t ∧ (s.thread t').object = some k' := by
    intro t' k' hk'
    by_cases heq : t' = t
    · subst heq
      rw [update_self] at hk'
      cases hk'
    · rw [update_of_ne heq] at hk'
      exact ⟨heq, hk'⟩
  refine ⟨fun t' k' hk' hmem => ?_, fun t' t'' k' hk' hk'' => ?_⟩
  · obtain ⟨hne, hold⟩ := hobject t' k' hk'
    rcases Finset.mem_insert.mp hmem with rfl | hmem
    · exact hne (h.own t t' k' hk hold)
    · exact h.new t' k' hold hmem
  · exact h.own t' t'' k' (hobject t' k' hk').2 (hobject t'' k' hk'').2

theorem Fresh.step (h : Fresh s) (hok : Owned s a) (hstep : subscriptionStep s a = some s') :
    Fresh s' := by
  rw [subscriptionStep] at hstep
  cases a with
  | check t k =>
    obtain ⟨ht, hstep⟩ := Option.ite_none_right_eq_some.mp hstep
    split at hstep <;> cases hstep
    · exact h
    · exact h.begins hok.1 hok.2
  | allocFail t =>
    rw [Caps.step] at hstep
    split at hstep
    · cases hstep
      exact h.moves (subset_refl _) (by nofun) _ _
    · cases hstep
  | lockAdd t =>
    rw [Caps.step] at hstep
    split at hstep
    · next k ht =>
      obtain ⟨_, rfl⟩ := of_guard hstep
      refine h.moves (subset_refl _) (fun k' hk' => ?_) _ _
      rw [ht]
      exact hk'
    · cases hstep
  | insert t ok =>
    rw [Caps.step] at hstep
    split at hstep
    · next k ht =>
      split at hstep <;> cases hstep
      · exact h.inserts ht
      · exact h.moves (subset_refl _) (by nofun) _ _
    · cases hstep
  | remove t =>
    rw [Caps.step] at hstep
    split at hstep
    · split at hstep <;> cases hstep
      · exact h.moves (Finset.erase_subset _ _) (by nofun) _ _
      · exact h.moves (subset_refl _) (by nofun) _ _
    · cases hstep
  | fetchAdd t | lockRemove t k | fetchSub t | unlock t =>
    obtain ⟨_, rfl⟩ := of_guard hstep
    exact h.moves (subset_refl _) (by nofun) _ _

/-! ## The tests -/

/-- A test that was passed and is not overtaken would be passed again. -/
def Tested (s : Tracked T K) : Prop :=
  ∀ t, (s.population.thread t).object.isSome → s.overtaken t = false → 0 < s.population.max →
    s.population.members.card < s.population.max

omit [DecidableEq K] in
/-- The thread `t` goes on with its object or without one, and no object is inserted. -/
theorem Tested.moves {s : Tracked T K} (h : Tested s) {members : Finset K}
    (hcard : members.card ≤ s.population.members.card)
    (hpc : pc.object.isSome → (s.population.thread t).object.isSome) (count : ℕ)
    (lock : Option T) :
    Tested ⟨{ s.population.move t pc with members, count, lock }, s.overtaken⟩ := by
  intro t' hobject hfresh hmax
  refine hcard.trans_lt (h t' ?_ hfresh hmax)
  by_cases heq : t' = t
  · subst heq
    refine hpc ?_
    simpa [Population.move] using hobject
  · simpa [Population.move, heq] using hobject

omit [DecidableEq K] in
/-- A call passes the test: with what the holder of the lock has still to count, the counter is
not below the number of members. -/
theorem Tested.passes {s : Tracked T K} (h : Tested s) (hcount : CountInv s.population)
    (hfull : s.population.full = false) (k : K) :
    Tested ⟨s.population.move t (.checked k),
      update s.overtaken t (s.population.holder.toAdd = 1)⟩ := by
  intro t' hobject hfresh hmax
  by_cases heq : t' = t
  · subst heq
    simp only [update_self, decide_eq_false_iff_not] at hfresh
    have hadd : s.population.holder.toAdd = 0 := by
      cases hplace : s.population.holder <;> simp_all [Pc.toAdd]
    have hsum := hcount.count
    have hmax' : 0 < s.population.max := hmax
    simp only [Population.full, Bool.and_eq_false_iff, decide_eq_false_iff_not] at hfull
    show s.population.members.card < s.population.max
    omega
  · simp only [update_of_ne heq] at hfresh
    refine h t' ?_ hfresh hmax
    simpa [Population.move, heq] using hobject

theorem Tested.step {s s' : Tracked T K} (h : Tested s) (hcount : CountInv s.population)
    (htracked : trackedStep takes s a = some s') : Tested s' := by
  obtain ⟨population, hstep, rfl⟩ := Option.map_eq_some_iff.mp htracked
  cases a with
  | check t k =>
    obtain ⟨ht, hstep⟩ := Option.ite_none_right_eq_some.mp hstep
    split at hstep <;> cases hstep
    · intro t' hobject hfresh hmax
      by_cases heq : t' = t
      · -- a refused call has no object
        subst heq
        simp [ht, Pc.object] at hobject
      · simp only [Tracked.overtakes, update_of_ne heq] at hfresh
        exact h t' hobject hfresh hmax
    · next hfull => exact h.passes hcount (Bool.eq_false_iff.mpr hfull) k
  | insert t ok =>
    rw [Caps.step] at hstep
    split at hstep
    · next k ht =>
      split at hstep <;> cases hstep
      · next htakes =>
        -- every other test is overtaken
        intro t' _ hfresh
        simp [Tracked.overtakes, ht, Pc.inserts, htakes] at hfresh
      · next htakes =>
        have hsame : s.overtakes takes (.insert t ok) = s.overtaken := by
          simp only [Tracked.overtakes, ht, Pc.inserts, if_neg htakes]
        rw [hsame]
        exact h.moves le_rfl (by simp [Pc.object]) _ _
    · cases hstep
  | allocFail t =>
    rw [Caps.step] at hstep
    split at hstep
    · cases hstep
      exact h.moves le_rfl (by simp [Pc.object]) _ _
    · cases hstep
  | lockAdd t =>
    rw [Caps.step] at hstep
    split at hstep
    · next k ht =>
      obtain ⟨_, rfl⟩ := of_guard hstep
      exact h.moves le_rfl (by simp [ht, Pc.object]) _ _
    · cases hstep
  | remove t =>
    rw [Caps.step] at hstep
    split at hstep
    · split at hstep <;> cases hstep
      · exact h.moves (Finset.card_erase_le) (by simp [Pc.object]) _ _
      · exact h.moves le_rfl (by simp [Pc.object]) _ _
    · cases hstep
  | fetchAdd t | lockRemove t k | fetchSub t | unlock t =>
    obtain ⟨_, rfl⟩ := of_guard hstep
    exact h.moves le_rfl (by simp [Pc.object]) _ _

/-- The counter, the cap and the tests, from one state to the next. -/
theorem CountInv.trackedStep {s s' : Tracked T K} (h : CountInv s.population ∧ Tested s)
    (hnew : ∀ t k, s.population.thread t = .adding k → takes s.population.members k = true →
      k ∉ s.population.members)
    (hok : Undisturbed takes s a) (htracked : trackedStep takes s a = some s') :
    CountInv s'.population ∧ Tested s' := by
  refine ⟨?_, h.2.step h.1 htracked⟩
  obtain ⟨population, hstep, rfl⟩ := Option.map_eq_some_iff.mp htracked
  refine h.1.step hnew (fun t ok ha hinserts hmax => ?_) hstep
  subst ha
  cases hover : s.overtaken t with
  | false =>
    refine h.2 t ?_ hover hmax
    cases hplace : s.population.thread t <;> simp_all [Pc.inserts, Pc.object]
  | true => exact hok hinserts hover

end Loopy.Caps
