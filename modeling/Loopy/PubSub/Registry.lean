import Mathlib.Data.Finset.Card
import Mathlib.Algebra.BigOperators.Group.List.Basic
import Loopy.Lib.Run
import Loopy.PubSub.Basic

/-!
# `loopyPubSub.c`: the registry

The subscriptions of a hub in the lists of their pattern entries. The `raxTopic` is a map from
pattern strings to entries whose bind may fail; it visits its patterns in an order of its own.
Subscriptions are numbered in the order of their allocation, and no number is used twice.
-/

namespace Loopy.PubSub

open Loopy.Lib
open Function (update update_of_ne update_self)

/-! ## The hub -/

/-- `loopyPatternEntry`. -/
structure LoopyPatternEntry where
  subscriptions : Option ℕ
  count : ℕ
deriving DecidableEq, Repr

/-- `raxTopic` as a map. -/
structure RaxTopic where
  bound : Finset CString
  value : CString → LoopyPatternEntry

/-- `raxTopicGet`. -/
def RaxTopic.get (topics : RaxTopic) (pattern : CString) : Option LoopyPatternEntry :=
  if pattern ∈ topics.bound then some (topics.value pattern) else none

/-- `raxTopicBind`, and a write to an entry. -/
def RaxTopic.bind (topics : RaxTopic) (pattern : CString) (entry : LoopyPatternEntry) : RaxTopic :=
  { bound := insert pattern topics.bound
    value := update topics.value pattern entry }

/-- `raxTopicUnbind`. -/
def RaxTopic.unbind (topics : RaxTopic) (pattern : CString) : RaxTopic :=
  { topics with bound := topics.bound.erase pattern }

/-- `loopyPubSub`, with the subscriptions in memory and how many were allocated. -/
structure LoopyPubSub where
  maxSubscriptions : ℕ
  enableStats : Bool
  topics : RaxTopic
  sequence : ℕ
  messagesPublished : ℕ
  messagesDelivered : ℕ
  messagesDropped : ℕ
  bytesPublished : ℕ
  bytesDelivered : ℕ
  subscriptionCount : ℕ
  patternCount : ℕ
  sub : ℕ → LoopySubscription
  allocated : ℕ
  live : Finset ℕ

/-- `loopyPubSubNew`. -/
def LoopyPubSub.new (maxSubscriptions : ℕ) (enableStats : Bool) : LoopyPubSub :=
  { maxSubscriptions
    enableStats
    topics := { bound := ∅, value := fun _ => { subscriptions := none, count := 0 } }
    sequence := 0
    messagesPublished := 0
    messagesDelivered := 0
    messagesDropped := 0
    bytesPublished := 0
    bytesDelivered := 0
    subscriptionCount := 0
    patternCount := 0
    sub := fun _ => .new [] defaultConfig
    allocated := 0
    live := ∅ }

/-- The link of a subscription. -/
def LoopyPubSub.nextSamePattern (ps : LoopyPubSub) (n : ℕ) : Option ℕ := (ps.sub n).nextSamePattern

/-- A write to the link of a subscription. -/
def LoopyPubSub.setNextSamePattern (ps : LoopyPubSub) (n : ℕ) (p : Option ℕ) : LoopyPubSub :=
  { ps with sub := update ps.sub n { ps.sub n with nextSamePattern := p } }

/-- Which of the calls of `loopySubscribe` succeed. -/
structure Luck where
  zcalloc : Bool
  pubsubStrdup : Bool
  mutexInit : Bool
  patternEntryNew : Bool
  raxTopicBind : Bool
deriving DecidableEq, Repr

namespace LoopyPubSub

/-- The new subscription `n` in front of the list of its entry. -/
def link (ps : LoopyPubSub) (pattern : CString) (entry : LoopyPatternEntry)
    (sub : LoopySubscription) : Option ℕ × LoopyPubSub :=
  let n := ps.allocated
  (some n,
    { ps with
      sub := update ps.sub n { sub with nextSamePattern := entry.subscriptions }
      topics := ps.topics.bind pattern { subscriptions := some n, count := entry.count + 1 }
      subscriptionCount := ps.subscriptionCount + 1
      allocated := n + 1
      live := insert n ps.live })

/-- `loopySubscribe`. -/
def subscribe (ps : LoopyPubSub) (pattern : CString)
    (config : Option LoopySubscriptionConfig) (luck : Luck) : Option ℕ × LoopyPubSub :=
  if ps.maxSubscriptions > 0 ∧ ps.subscriptionCount ≥ ps.maxSubscriptions then (none, ps)
  else if luck.zcalloc = false then (none, ps)
  else if luck.pubsubStrdup = false then (none, ps)
  else if luck.mutexInit = false then (none, ps)
  else
    let sub := LoopySubscription.new pattern (config.getD defaultConfig)
    match ps.topics.get pattern with
    | some entry => ps.link pattern entry sub
    | none =>
      if luck.patternEntryNew = false then (none, ps)
      else if luck.raxTopicBind = false then (none, ps)
      else
        { ps with patternCount := ps.patternCount + 1 }.link pattern
          { subscriptions := none, count := 0 } sub

/-- `*pp = sub->nextSamePattern`, where `pp` is the link of the subscription before or the head
of the entry's list. -/
def unlink (ps : LoopyPubSub) (pattern : CString) (entry : LoopyPatternEntry)
    (before : Option ℕ) (n : ℕ) : LoopyPatternEntry × LoopyPubSub :=
  let entry := { entry with count := entry.count - 1 }
  match before with
  | none =>
    let entry := { entry with subscriptions := ps.nextSamePattern n }
    (entry, { ps with topics := ps.topics.bind pattern entry })
  | some m =>
    let ps := ps.setNextSamePattern m (ps.nextSamePattern n)
    (entry, { ps with topics := ps.topics.bind pattern entry })

/-- `loopyUnsubscribe`. -/
def unsubscribe (ps : LoopyPubSub) (n : ℕ) : Bool × LoopyPubSub :=
  let pattern := (ps.sub n).pattern
  match ps.topics.get pattern with
  | none => (false, ps)
  | some entry =>
    let (entry, ps) :=
      match findLink ps.nextSamePattern (fun m => decide (m = n)) (ps.allocated + 1) none
        entry.subscriptions with
      | some (before, _) => ps.unlink pattern entry before n
      -- the loop has come to the end of the list
      | none => (entry, ps)
    let ps :=
      if entry.count = 0 then
        { ps with
          topics := ps.topics.unbind pattern
          patternCount := ps.patternCount - 1 }
      else ps
    (true, { ps with subscriptionCount := ps.subscriptionCount - 1, live := ps.live.erase n })

/-- `loopyHasSubscribers`. -/
def hasSubscribers (ps : LoopyPubSub) (pattern : CString) : Bool :=
  decide (pattern ∈ ps.topics.bound)

/-- `loopyCountSubscribers`. -/
def countSubscribers (ps : LoopyPubSub) (pattern : CString) : ℕ :=
  match ps.topics.get pattern with
  | some entry => entry.count
  | none => 0

/-- The subscriptions that a loop over the list of an entry visits. -/
def visits (ps : LoopyPubSub) (entry : LoopyPatternEntry) : List ℕ :=
  walk ps.nextSamePattern ps.allocated entry.subscriptions

/-- `loopyIterateSubscriptions` with a callback that does not stop: the calls of the callback, if
the `raxTopic` visits the patterns in this order. Their number is returned. -/
def iterateSubscriptions (ps : LoopyPubSub) (order : List CString) :
    List (CString × ℕ) :=
  order.flatMap fun pattern =>
    (ps.visits (ps.topics.value pattern)).map fun n => (pattern, n)

end LoopyPubSub

/-- Every bound pattern once. -/
def RaxTopic.Enumerates (topics : RaxTopic) (order : List CString) : Prop :=
  order.Nodup ∧ ∀ pattern, pattern ∈ order ↔ pattern ∈ topics.bound

/-- The registry calls. -/
inductive RegistryCall
  | subscribe (pattern : CString) (config : Option LoopySubscriptionConfig) (luck : Luck)
  | unsubscribe (n : ℕ)
deriving DecidableEq, Repr

/-- One call; only live subscriptions are unsubscribed. -/
def LoopyPubSub.registryStep (ps : LoopyPubSub) : RegistryCall → Option LoopyPubSub
  | .subscribe pattern config luck => some (ps.subscribe pattern config luck).2
  | .unsubscribe n => if n ∈ ps.live then some (ps.unsubscribe n).2 else none

/-! ## The records agree -/

/-- What the lists, the counts, the counters, the tree and the queries promise of each other. -/
structure RegistryLaw (ps : LoopyPubSub) : Prop where
  /-- A live subscription is in the list of the entry of its pattern and in no other one. -/
  listed : ∀ n ∈ ps.live, (ps.sub n).pattern ∈ ps.topics.bound ∧
    ∀ pattern ∈ ps.topics.bound,
      n ∈ ps.visits (ps.topics.value pattern) ↔ pattern = (ps.sub n).pattern
  live : ∀ pattern ∈ ps.topics.bound, ∀ n ∈ ps.visits (ps.topics.value pattern), n ∈ ps.live
  chain : ∀ pattern ∈ ps.topics.bound, Chain ps.nextSamePattern
    (ps.topics.value pattern).subscriptions (ps.visits (ps.topics.value pattern))
  count : ∀ pattern ∈ ps.topics.bound, 0 < (ps.topics.value pattern).count ∧
    (ps.topics.value pattern).count = (ps.visits (ps.topics.value pattern)).length
  patternCount : ps.patternCount = ps.topics.bound.card
  subscriptionCount : ps.subscriptionCount = ps.live.card
  countSubscribers : ∀ pattern, ps.countSubscribers pattern =
    (ps.live.filter fun n => (ps.sub n).pattern = pattern).card
  hasSubscribers : ∀ pattern, ps.hasSubscribers pattern = true ↔
    ∃ n ∈ ps.live, (ps.sub n).pattern = pattern
  iterates : ∀ order, ps.topics.Enumerates order → (ps.iterateSubscriptions order).Nodup ∧
    (ps.iterateSubscriptions order).length = ps.subscriptionCount ∧
    ∀ pattern n, (pattern, n) ∈ ps.iterateSubscriptions order ↔
      n ∈ ps.live ∧ (ps.sub n).pattern = pattern
  refused : ∀ pattern config luck, (ps.subscribe pattern config luck).1 = none →
    (ps.subscribe pattern config luck).2 = ps

/-- The lists of the entries are `lists`. -/
structure Registered (ps : LoopyPubSub) (lists : CString → List ℕ) : Prop where
  chain : ∀ pattern ∈ ps.topics.bound,
    Chain ps.nextSamePattern (ps.topics.value pattern).subscriptions (lists pattern)
  count : ∀ pattern ∈ ps.topics.bound, (ps.topics.value pattern).count = (lists pattern).length
  nonempty : ∀ pattern ∈ ps.topics.bound, lists pattern ≠ []
  mem : ∀ pattern ∈ ps.topics.bound, ∀ n,
    n ∈ lists pattern ↔ n ∈ ps.live ∧ (ps.sub n).pattern = pattern
  bound : ∀ n ∈ ps.live, (ps.sub n).pattern ∈ ps.topics.bound
  below : ∀ n ∈ ps.live, n < ps.allocated
  patternCount : ps.patternCount = ps.topics.bound.card
  subscriptionCount : ps.subscriptionCount = ps.live.card

variable {ps : LoopyPubSub} {lists : CString → List ℕ} {pattern : CString}

theorem Registered.length_le (h : Registered ps lists) (hp : pattern ∈ ps.topics.bound) :
    (lists pattern).length ≤ ps.allocated :=
  (h.chain pattern hp).length_le fun n hn => h.below n ((h.mem pattern hp n).mp hn).1

theorem Registered.visits_eq (h : Registered ps lists) (hp : pattern ∈ ps.topics.bound) :
    ps.visits (ps.topics.value pattern) = lists pattern :=
  walk_eq (h.chain pattern hp) (h.length_le hp)

variable {entry : LoopyPatternEntry} {n : ℕ} {order : List CString}

theorem RaxTopic.get_eq_some {topics : RaxTopic} :
    topics.get pattern = some entry ↔ pattern ∈ topics.bound ∧ topics.value pattern = entry := by
  unfold get
  by_cases hp : pattern ∈ topics.bound <;> simp [hp]

theorem RaxTopic.get_eq_none {topics : RaxTopic} :
    topics.get pattern = none ↔ pattern ∉ topics.bound := by
  unfold get
  by_cases hp : pattern ∈ topics.bound <;> simp [hp]

/-- A new subscription goes in front of the list of its pattern, which may be a new one. -/
theorem Registered.link (h : Registered ps lists) {l : List ℕ} {sub : LoopySubscription}
    {patternCount : ℕ} (hsub : sub.pattern = pattern)
    (hchain : Chain ps.nextSamePattern entry.subscriptions l) (hcount : entry.count = l.length)
    (hmem : ∀ n, n ∈ l ↔ n ∈ ps.live ∧ (ps.sub n).pattern = pattern)
    (hpatterns : patternCount = (insert pattern ps.topics.bound).card) :
    Registered ({ ps with patternCount }.link pattern entry sub).2
      (update lists pattern (ps.allocated :: l)) := by
  have hfresh : ps.allocated ∉ ps.live := fun hlive => Nat.lt_irrefl _ (h.below _ hlive)
  have hold : ∀ n ∈ ps.live, update ps.sub ps.allocated
      { sub with nextSamePattern := entry.subscriptions } n = ps.sub n :=
    fun n hn => update_of_ne (ne_of_mem_of_not_mem hn hfresh) _ _
  have hnew : update ps.sub ps.allocated
      { sub with nextSamePattern := entry.subscriptions } ps.allocated =
      { sub with nextSamePattern := entry.subscriptions } := update_self _ _ _
  unfold LoopyPubSub.link
  -- the pattern of the new subscription apart, everything is about old subscriptions
  refine ⟨?_, ?_, ?_, ?_, ?_, ?_, hpatterns, ?_⟩
  · intro p hp
    by_cases heq : p = pattern
    · subst heq
      simp only [RaxTopic.bind, update_self]
      refine hchain.push ?_ fun n hn => ?_
      · exact congrArg LoopySubscription.nextSamePattern hnew
      · exact congrArg LoopySubscription.nextSamePattern (hold n ((hmem n).mp hn).1)
    · have hp : p ∈ ps.topics.bound := Finset.mem_of_mem_insert_of_ne hp heq
      simp only [RaxTopic.bind, update_of_ne heq]
      refine (h.chain p hp).congr fun n hn => ?_
      exact congrArg LoopySubscription.nextSamePattern (hold n ((h.mem p hp n).mp hn).1)
  · intro p hp
    by_cases heq : p = pattern
    · subst heq
      simp only [RaxTopic.bind, update_self, List.length_cons, hcount]
    · simp only [RaxTopic.bind, update_of_ne heq]
      exact h.count p (Finset.mem_of_mem_insert_of_ne hp heq)
  · intro p hp
    by_cases heq : p = pattern
    · subst heq
      simp only [update_self]
      exact List.cons_ne_nil _ _
    · simp only [update_of_ne heq]
      exact h.nonempty p (Finset.mem_of_mem_insert_of_ne hp heq)
  · intro p hp n
    show n ∈ update lists pattern (ps.allocated :: l) p ↔ n ∈ insert ps.allocated ps.live ∧
      (update ps.sub ps.allocated
        { sub with nextSamePattern := entry.subscriptions } n).pattern = p
    by_cases hn : n = ps.allocated
    · subst hn
      rw [hnew]
      by_cases heq : p = pattern
      · subst heq
        simp [hsub]
      · have hp : p ∈ ps.topics.bound := Finset.mem_of_mem_insert_of_ne hp heq
        have hnot : ps.allocated ∉ lists p := fun hmem => hfresh ((h.mem p hp _).mp hmem).1
        rw [update_of_ne heq]
        simp [hnot, hsub, Ne.symm heq]
    · rw [update_of_ne hn, Finset.mem_insert, or_iff_right hn]
      by_cases heq : p = pattern
      · subst heq
        rw [update_self, List.mem_cons, or_iff_right hn]
        exact hmem n
      · rw [update_of_ne heq]
        exact h.mem p (Finset.mem_of_mem_insert_of_ne hp heq) n
  · intro n hn
    rcases Finset.mem_insert.mp hn with rfl | hn
    · have hpattern := (congrArg LoopySubscription.pattern hnew).trans hsub
      exact Finset.mem_insert.mpr (.inl hpattern)
    · simp only [hold n hn]
      exact Finset.mem_insert_of_mem (h.bound n hn)
  · intro n hn
    rcases Finset.mem_insert.mp hn with rfl | hn
    · exact Nat.lt_succ_self _
    · exact Nat.lt_succ_of_lt (h.below n hn)
  · show ps.subscriptionCount + 1 = (insert ps.allocated ps.live).card
    rw [Finset.card_insert_of_notMem hfresh, h.subscriptionCount]

theorem Registered.subscribe (h : Registered ps lists) (pattern : CString)
    (config : Option LoopySubscriptionConfig) (luck : Luck) :
    ∃ lists, Registered (ps.subscribe pattern config luck).2 lists := by
  unfold LoopyPubSub.subscribe
  split
  · exact ⟨lists, h⟩
  · split
    · exact ⟨lists, h⟩
    · split
      · exact ⟨lists, h⟩
      · split
        · exact ⟨lists, h⟩
        · dsimp only
          split
          · next entry hget =>
            obtain ⟨hp, rfl⟩ := RaxTopic.get_eq_some.mp hget
            refine ⟨_, h.link rfl (h.chain pattern hp)
              (h.count pattern hp) (h.mem pattern hp) ?_⟩
            rw [Finset.insert_eq_of_mem hp, h.patternCount]
          · next hget =>
            have hp := RaxTopic.get_eq_none.mp hget
            have hnone : ∀ n, n ∈ ([] : List ℕ) ↔ n ∈ ps.live ∧ (ps.sub n).pattern = pattern := by
              intro n
              refine iff_of_false List.not_mem_nil fun hn => hp ?_
              rw [← hn.2]
              exact h.bound n hn.1
            split
            · exact ⟨lists, h⟩
            · split
              · exact ⟨lists, h⟩
              · refine ⟨_, h.link rfl Chain.nil rfl hnone ?_⟩
                rw [Finset.card_insert_of_notMem hp, h.patternCount]

theorem LoopyPubSub.next_setNext (ps : LoopyPubSub) (m : ℕ) (p : Option ℕ) (k : ℕ) :
    (ps.setNextSamePattern m p).nextSamePattern k = if k = m then p else ps.nextSamePattern k := by
  unfold setNextSamePattern nextSamePattern
  by_cases hk : k = m
  · subst hk
    simp
  · simp [hk]

theorem LoopyPubSub.pattern_setNext (ps : LoopyPubSub) (m : ℕ) (p : Option ℕ) (k : ℕ) :
    ((ps.setNextSamePattern m p).sub k).pattern = (ps.sub k).pattern := by
  unfold setNextSamePattern
  by_cases hk : k = m
  · subst hk
    simp
  · simp [hk]

/-- The lists after a subscription is taken out of its own, the entry still bound. -/
structure Unlinked (ps ps' : LoopyPubSub) (pattern : CString) (entry : LoopyPatternEntry)
    (l : List ℕ) : Prop where
  bound : ps'.topics.bound = ps.topics.bound
  value : ps'.topics.value = update ps.topics.value pattern entry
  chain : Chain ps'.nextSamePattern entry.subscriptions l
  frame : ∀ k, k ∉ l → ps'.nextSamePattern k = ps.nextSamePattern k
  pattern : ∀ k, (ps'.sub k).pattern = (ps.sub k).pattern
  live : ps'.live = ps.live
  allocated : ps'.allocated = ps.allocated
  patternCount : ps'.patternCount = ps.patternCount
  subscriptionCount : ps'.subscriptionCount = ps.subscriptionCount

namespace Registered

theorem unlink (h : Registered ps lists) (hp : pattern ∈ ps.topics.bound)
    {l₁ l₂ : List ℕ} (hl : lists pattern = l₁ ++ n :: l₂) :
    Unlinked ps (ps.unlink pattern (ps.topics.value pattern) l₁.getLast? n).2 pattern
        (ps.unlink pattern (ps.topics.value pattern) l₁.getLast? n).1 (l₁ ++ l₂) ∧
      (ps.unlink pattern (ps.topics.value pattern) l₁.getLast? n).1.count = (l₁ ++ l₂).length := by
  have hchain := h.chain pattern hp
  have hcount := h.count pattern hp
  have hbound : insert pattern ps.topics.bound = ps.topics.bound := Finset.insert_eq_of_mem hp
  rw [hl] at hchain hcount
  have hless : (ps.topics.value pattern).count - 1 = (l₁ ++ l₂).length := by
    rw [hcount]
    simp only [List.length_append, List.length_cons]
    omega
  rcases List.eq_nil_or_concat l₁ with rfl | ⟨l, m, rfl⟩
  -- the head of the list, or the link of the subscription before, is written
  · refine ⟨⟨hbound, rfl, hchain.tail, fun _ _ => rfl, fun _ => rfl, rfl, rfl, rfl, rfl⟩, ?_⟩
    exact hless
  · rw [List.concat_eq_append, List.append_assoc, List.singleton_append] at hchain hless ⊢
    rw [List.getLast?_concat]
    refine ⟨⟨hbound, rfl, ?_, fun k hk => ?_, ps.pattern_setNext m _, rfl, rfl, rfl, rfl⟩, hless⟩
    · refine hchain.unlink ?_ fun k _ hkm => ?_
      · exact (ps.next_setNext m _ m).trans (if_pos rfl)
      · exact (ps.next_setNext m _ k).trans (if_neg hkm)
    · refine (ps.next_setNext m _ k).trans (if_neg ?_)
      rintro rfl
      exact hk (List.mem_append_right l List.mem_cons_self)

/-- A subscription that was unlinked is freed, and the entry with it if it is empty. -/
theorem release (h : Registered ps lists) {ps' : LoopyPubSub} {l₁ l₂ : List ℕ}
    (hn : n ∈ ps.live) (hpattern : (ps.sub n).pattern = pattern)
    (hl : lists pattern = l₁ ++ n :: l₂) (hu : Unlinked ps ps' pattern entry (l₁ ++ l₂))
    (hcount : entry.count = (l₁ ++ l₂).length) (bound : Finset CString) (patternCount : ℕ)
    (hbound : ∀ p, p ∈ bound ↔ p ∈ ps.topics.bound ∧ (p = pattern → l₁ ++ l₂ ≠ []))
    (hpatterns : patternCount = bound.card) :
    Registered { ps' with
      topics := { ps'.topics with bound }
      patternCount
      subscriptionCount := ps'.subscriptionCount - 1
      live := ps'.live.erase n } (update lists pattern (l₁ ++ l₂)) := by
  have hp : pattern ∈ ps.topics.bound := hpattern ▸ h.bound n hn
  have hnodup := (h.chain pattern hp).nodup
  rw [hl] at hnodup
  have hnot : n ∉ l₁ ++ l₂ :=
    (List.nodup_cons.mp (List.nodup_middle.mp hnodup)).1
  have hmem : ∀ k, k ∈ l₁ ++ l₂ ↔ (k ∈ ps.live ∧ (ps.sub k).pattern = pattern) ∧ k ≠ n := by
    intro k
    rw [← h.mem pattern hp k, hl]
    constructor
    · intro hk
      refine ⟨?_, ne_of_mem_of_not_mem hk hnot⟩
      rw [List.mem_append] at hk ⊢
      exact hk.imp_right (List.mem_cons_of_mem n)
    · rintro ⟨hk, hne⟩
      rw [List.mem_append, List.mem_cons] at hk
      rw [List.mem_append]
      exact hk.imp_right fun hk => hk.resolve_left hne
  refine ⟨?_, ?_, ?_, ?_, ?_, ?_, hpatterns, ?_⟩
  · intro p hpb
    have hpb := (hbound p).mp hpb
    show Chain ps'.nextSamePattern (ps'.topics.value p).subscriptions
      (update lists pattern (l₁ ++ l₂) p)
    rw [hu.value]
    by_cases heq : p = pattern
    · subst heq
      rw [update_self, update_self]
      exact hu.chain
    · rw [update_of_ne heq, update_of_ne heq]
      refine (h.chain p hpb.1).congr fun k hk => hu.frame k fun hk' => heq ?_
      rw [← ((h.mem p hpb.1 k).mp hk).2]
      exact ((hmem k).mp hk').1.2
  · intro p hpb
    show (ps'.topics.value p).count = (update lists pattern (l₁ ++ l₂) p).length
    rw [hu.value]
    by_cases heq : p = pattern
    · subst heq
      rw [update_self, update_self, hcount]
    · rw [update_of_ne heq, update_of_ne heq]
      exact h.count p ((hbound p).mp hpb).1
  · intro p hpb
    by_cases heq : p = pattern
    · rw [heq, update_self]
      exact ((hbound p).mp hpb).2 heq
    · rw [update_of_ne heq]
      exact h.nonempty p ((hbound p).mp hpb).1
  · intro p hpb k
    show k ∈ update lists pattern (l₁ ++ l₂) p ↔
      k ∈ ps'.live.erase n ∧ (ps'.sub k).pattern = p
    rw [hu.pattern, hu.live, Finset.mem_erase]
    by_cases heq : p = pattern
    · subst heq
      rw [update_self, hmem]
      tauto
    · rw [update_of_ne heq, h.mem p ((hbound p).mp hpb).1]
      have hne : (ps.sub k).pattern = p → k ≠ n := by
        rintro hk rfl
        exact heq (hk.symm.trans hpattern)
      tauto
  · intro k hk
    show (ps'.sub k).pattern ∈ bound
    obtain ⟨hne, hk⟩ := Finset.mem_erase.mp hk
    rw [hu.live] at hk
    rw [hu.pattern, hbound]
    exact ⟨h.bound k hk, fun heq => List.ne_nil_of_mem ((hmem k).mpr ⟨⟨hk, heq⟩, hne⟩)⟩
  · intro k hk
    have hk := Finset.mem_of_mem_erase hk
    rw [hu.live] at hk
    exact (h.below k hk).trans_eq hu.allocated.symm
  · show ps'.subscriptionCount - 1 = (ps'.live.erase n).card
    rw [hu.subscriptionCount, hu.live, h.subscriptionCount, Finset.card_erase_of_mem hn]

theorem unsubscribe (h : Registered ps lists) (hn : n ∈ ps.live) :
    ∃ lists, Registered (ps.unsubscribe n).2 lists := by
  have hp := h.bound n hn
  obtain ⟨l₁, l₂, hl⟩ := List.append_of_mem ((h.mem _ hp n).mpr ⟨hn, rfl⟩)
  obtain ⟨hunlinked, hcount⟩ := h.unlink hp hl
  have hfind : findLink ps.nextSamePattern (fun m => decide (m = n)) (ps.allocated + 1) none
      (ps.topics.value (ps.sub n).pattern).subscriptions = some (l₁.getLast?, n) := by
    have hchain := h.chain _ hp
    have hle := h.length_le hp
    have hnodup := hchain.nodup
    rw [hl] at hchain hle hnodup
    rw [List.length_append] at hle
    have hbefore : ∀ k ∈ l₁, decide (k = n) = false := fun k hk =>
      decide_eq_false ((List.nodup_append.mp hnodup).2.2 k hk n List.mem_cons_self)
    rw [findLink_eq_some hchain hbefore (decide_eq_true rfl) (by omega) none, Option.or_none]
  have hget := RaxTopic.get_eq_some.mpr ⟨hp, rfl⟩
  unfold LoopyPubSub.unsubscribe
  dsimp only
  simp only [hget, hfind]
  refine ⟨update lists (ps.sub n).pattern (l₁ ++ l₂), ?_⟩
  by_cases hzero : (ps.unlink (ps.sub n).pattern (ps.topics.value (ps.sub n).pattern)
      l₁.getLast? n).1.count = 0
  · rw [if_pos hzero]
    have hnil : l₁ ++ l₂ = [] := List.length_eq_zero_iff.mp (hcount.symm.trans hzero)
    refine h.release hn rfl hl hunlinked hcount _ _ (fun p => ?_) ?_
    · rw [hunlinked.bound, Finset.mem_erase, hnil]
      tauto
    · rw [hunlinked.bound, hunlinked.patternCount, Finset.card_erase_of_mem hp, h.patternCount]
  · rw [if_neg hzero]
    have hne : l₁ ++ l₂ ≠ [] := fun hnil => hzero (by rw [hcount, hnil, List.length_nil])
    refine h.release hn rfl hl hunlinked hcount (ps.unlink (ps.sub n).pattern
      (ps.topics.value (ps.sub n).pattern) l₁.getLast? n).2.topics.bound _ (fun p => ?_) ?_
    · rw [hunlinked.bound]
      tauto
    · rw [hunlinked.bound, hunlinked.patternCount, h.patternCount]

/-! ### The queries -/

theorem mem_iterate (h : Registered ps lists)
    (horder : ∀ p ∈ order, p ∈ ps.topics.bound) (pattern : CString) (n : ℕ) :
    (pattern, n) ∈ ps.iterateSubscriptions order ↔
      pattern ∈ order ∧ n ∈ ps.live ∧ (ps.sub n).pattern = pattern := by
  unfold LoopyPubSub.iterateSubscriptions
  rw [List.mem_flatMap]
  constructor
  · rintro ⟨p, hp, hmem⟩
    have hpb := horder p hp
    rw [h.visits_eq hpb] at hmem
    obtain ⟨k, hk, heq⟩ := List.mem_map.mp hmem
    cases heq
    exact ⟨hp, (h.mem pattern hpb n).mp hk⟩
  · rintro ⟨hp, hn⟩
    have hpb := horder pattern hp
    refine ⟨pattern, hp, ?_⟩
    rw [h.visits_eq hpb]
    exact List.mem_map.mpr ⟨n, (h.mem pattern hpb n).mpr hn, rfl⟩

theorem iterate_nodup (h : Registered ps lists) (hnodup : order.Nodup)
    (horder : ∀ p ∈ order, p ∈ ps.topics.bound) :
    ((ps.iterateSubscriptions order).map Prod.snd).Nodup := by
  have hpairs : (ps.iterateSubscriptions order).Nodup := by
    unfold LoopyPubSub.iterateSubscriptions
    rw [List.nodup_flatMap]
    constructor
    · intro p hp
      rw [h.visits_eq (horder p hp)]
      exact (h.chain p (horder p hp)).nodup.map fun a b hab => (Prod.mk.inj hab).2
    · refine hnodup.imp fun hne => ?_
      rintro ⟨p, n⟩ hmem hmem'
      obtain ⟨_, -, hp⟩ := List.mem_map.mp hmem
      obtain ⟨_, -, hq⟩ := List.mem_map.mp hmem'
      exact hne ((Prod.mk.inj hp).1.trans (Prod.mk.inj hq).1.symm)
  -- a subscription has one pattern
  refine List.Nodup.map_on ?_ hpairs
  rintro ⟨p, n⟩ hp ⟨q, k⟩ hq heq
  obtain rfl : n = k := heq
  rw [← ((h.mem_iterate horder p n).mp hp).2.2, ← ((h.mem_iterate horder q n).mp hq).2.2]

theorem length_iterate (h : Registered ps lists) (horder : ps.topics.Enumerates order) :
    (ps.iterateSubscriptions order).length = ps.live.card := by
  have hbound : ∀ p ∈ order, p ∈ ps.topics.bound := fun p hp => (horder.2 p).mp hp
  have himage : (ps.iterateSubscriptions order).toFinset =
      ps.live.image fun n => ((ps.sub n).pattern, n) := by
    ext ⟨p, n⟩
    rw [List.mem_toFinset, h.mem_iterate hbound, Finset.mem_image]
    constructor
    · rintro ⟨-, hn, rfl⟩
      exact ⟨n, hn, rfl⟩
    · rintro ⟨k, hk, heq⟩
      cases heq
      exact ⟨(horder.2 _).mpr (h.bound n hk), hk, rfl⟩
  have hnodup := (h.iterate_nodup horder.1 hbound).of_map
  rw [← List.toFinset_card_of_nodup hnodup, himage,
    Finset.card_image_of_injective _ fun a b hab => (Prod.mk.inj hab).2]

theorem countSubscribers_eq (h : Registered ps lists) (pattern : CString) :
    ps.countSubscribers pattern =
      (ps.live.filter fun n => (ps.sub n).pattern = pattern).card := by
  unfold LoopyPubSub.countSubscribers
  by_cases hp : pattern ∈ ps.topics.bound
  · rw [RaxTopic.get_eq_some.mpr ⟨hp, rfl⟩]
    have hset : (lists pattern).toFinset =
        ps.live.filter fun n => (ps.sub n).pattern = pattern := by
      ext n
      rw [List.mem_toFinset, Finset.mem_filter, h.mem pattern hp]
    rw [← hset, List.toFinset_card_of_nodup (h.chain pattern hp).nodup]
    exact h.count pattern hp
  · rw [RaxTopic.get_eq_none.mpr hp]
    have hempty : (ps.live.filter fun n => (ps.sub n).pattern = pattern) = ∅ := by
      rw [Finset.filter_eq_empty_iff]
      rintro n hn rfl
      exact hp (h.bound n hn)
    rw [hempty, Finset.card_empty]

theorem hasSubscribers_iff (h : Registered ps lists) (pattern : CString) :
    ps.hasSubscribers pattern = true ↔ ∃ n ∈ ps.live, (ps.sub n).pattern = pattern := by
  rw [LoopyPubSub.hasSubscribers, decide_eq_true_iff]
  constructor
  · intro hp
    obtain ⟨n, hn⟩ := List.exists_mem_of_ne_nil _ (h.nonempty pattern hp)
    exact ⟨n, (h.mem pattern hp n).mp hn⟩
  · rintro ⟨n, hn, rfl⟩
    exact h.bound n hn

end Registered

/-- `loopySubscribe` returns null before it changes anything. -/
theorem LoopyPubSub.subscribe_refused {config : Option LoopySubscriptionConfig} {luck : Luck}
    (hnone : (ps.subscribe pattern config luck).1 = none) :
    (ps.subscribe pattern config luck).2 = ps := by
  unfold subscribe at hnone ⊢
  dsimp only at hnone ⊢
  -- every branch that returns null returns the hub as it was
  repeat' split at hnone
  all_goals simp_all [link]

theorem Registered.law (h : Registered ps lists) : RegistryLaw ps where
  listed := by
    intro n hn
    refine ⟨h.bound n hn, fun p hp => ?_⟩
    rw [h.visits_eq hp, h.mem p hp]
    exact ⟨fun hmem => hmem.2.symm, fun heq => ⟨hn, heq.symm⟩⟩
  live := by
    intro p hp n hn
    rw [h.visits_eq hp] at hn
    exact ((h.mem p hp n).mp hn).1
  chain := by
    intro p hp
    rw [h.visits_eq hp]
    exact h.chain p hp
  count := by
    intro p hp
    rw [h.visits_eq hp, h.count p hp]
    exact ⟨List.length_pos_of_ne_nil (h.nonempty p hp), rfl⟩
  patternCount := h.patternCount
  subscriptionCount := h.subscriptionCount
  countSubscribers := h.countSubscribers_eq
  hasSubscribers := h.hasSubscribers_iff
  iterates := by
    intro order horder
    have hbound : ∀ p ∈ order, p ∈ ps.topics.bound := fun p hp => (horder.2 p).mp hp
    refine ⟨(h.iterate_nodup horder.1 hbound).of_map,
      (h.length_iterate horder).trans h.subscriptionCount.symm, fun p n => ?_⟩
    rw [h.mem_iterate hbound]
    constructor
    · rintro ⟨-, hn⟩
      exact hn
    · rintro ⟨hn, rfl⟩
      exact ⟨(horder.2 _).mpr (h.bound n hn), hn, rfl⟩
  refused := fun _ _ _ hnone => LoopyPubSub.subscribe_refused hnone

theorem Registered.new (maxSubscriptions : ℕ) (enableStats : Bool) :
    Registered (.new maxSubscriptions enableStats) fun _ => [] :=
  ⟨nofun, nofun, nofun, nofun, nofun, nofun, rfl, rfl⟩

theorem Registered.step {ps' : LoopyPubSub} {c : RegistryCall} (h : ∃ lists, Registered ps lists)
    (hstep : ps.registryStep c = some ps') : ∃ lists, Registered ps' lists := by
  obtain ⟨lists, h⟩ := h
  cases c with
  | subscribe pattern config luck =>
    cases hstep
    exact h.subscribe pattern config luck
  | unsubscribe n =>
    obtain ⟨hn, rfl⟩ := of_guard hstep
    exact h.unsubscribe hn

/-- **The registry is consistent.** After every sequence of subscriptions, failing or not, and
unsubscriptions of live ones the lists, counts, counters, tree and queries agree. -/
theorem registry_consistent (maxSubscriptions : ℕ) (enableStats : Bool)
    (calls : List RegistryCall) (ps : LoopyPubSub)
    (hrun : Run LoopyPubSub.registryStep (fun _ _ => True) (.new maxSubscriptions enableStats)
      calls ps) : RegistryLaw ps := by
  have hinv : ∃ lists, Registered ps lists :=
    hrun.invariant (fun _ _ _ h _ hstep => Registered.step h hstep)
      ⟨_, .new maxSubscriptions enableStats⟩
  obtain ⟨lists, h⟩ := hinv
  exact h.law

/-- Everything succeeds. -/
def goodLuck : Luck :=
  { zcalloc := true, pubsubStrdup := true, mutexInit := true, patternEntryNew := true,
    raxTopicBind := true }

/-- Two subscriptions of one pattern, of which the first and then the second one goes, and one of
another pattern at the second try. -/
def registryRun : List RegistryCall :=
  [.subscribe [97] none goodLuck, .subscribe [97] none goodLuck,
    .subscribe [98] none { goodLuck with raxTopicBind := false }, .unsubscribe 0,
    .subscribe [98] none goodLuck, .unsubscribe 1, .subscribe [97] none goodLuck]

theorem registry_consistent_registryRun :
    ∃ ps, Run LoopyPubSub.registryStep (fun _ _ => True) (.new 2 true) registryRun ps ∧
      RegistryLaw ps ∧ ps.live = {2, 3} ∧ ps.patternCount = 2 := by
  have hexec : (exec LoopyPubSub.registryStep (fun _ _ => True) (.new 2 true) registryRun).map
      (fun ps => (ps.live, ps.patternCount)) = some ({2, 3}, 2) := by decide +kernel
  obtain ⟨ps, hrun, hval⟩ := Run.of_exec_map hexec
  obtain ⟨hlive, hpatterns⟩ := Prod.mk.inj hval
  exact ⟨ps, hrun, registry_consistent 2 true registryRun ps hrun, hlive, hpatterns⟩

end Loopy.PubSub
