import Loopy.PubSub.Basic
import Loopy.Lib.LinkedQueue
import Loopy.Lib.Transducer

/-!
# `loopyPubSub.c`: a queue subscription

A `LOOPY_DELIVER_QUEUE` subscription of a hub against the mailbox that it stands for. A
publication takes the next `uint64_t` sequence number whether it matches or not.

An ack that takes the last of several entries leaves no tail, and the next publication then
replaces the head: `queue_correct` is about the runs without such an ack. In these the list is the
mailbox whatever the ack mode is; the messages handed out are those of the mailbox exactly where
no entry is freed before the caller has its `topic` and `data`.
-/

namespace Loopy.PubSub

open Loopy.Lib
open Function (update update_of_ne update_self)

/-! ## The machine -/

/-- A hub as one of its subscriptions sees it. -/
structure Subscribed where
  sequence : ℕ
  sub : LoopySubscription

/-- A new subscription of a new hub. -/
def Subscribed.fresh (pattern : CString) (config : LoopySubscriptionConfig) : Subscribed :=
  { sequence := 0, sub := .new pattern config }

/-- The calls. `matched` says whether the pattern matches the topic. -/
inductive Call
  | publish (matched : Bool) (topic : CString) (data : List UInt8) (len timestamp : ℕ)
    (publisherData : ℕ)
  | receive
  | ack (sequence : ℕ)
  | nack (sequence : ℕ)
deriving DecidableEq, Repr

/-- What a call answers, and what a publication has come to here. -/
inductive Answer
  | published (delivery : Option Delivery)
  | received (message : Option Received)
  | acked (found : Bool)
  | nacked (found : Bool)
deriving DecidableEq, Repr

/-- `atomic_fetch_add(&ps->sequence, 1) + 1`. -/
def nextSequence (sequence : ℕ) : ℕ := (sequence + 1) % 2 ^ 64

/-- One call. -/
def Subscribed.step (s : Subscribed) : Call → Answer × Subscribed
  | .publish matched topic data len timestamp publisherData =>
    let sequence := nextSequence s.sequence
    if matched then
      let (delivery, sub) :=
        s.sub.publish { topic, data, len, timestamp, sequence, publisherData }
      (.published (some delivery), { sequence, sub })
    else (.published none, { s with sequence })
  | .receive =>
    let (message, sub) := s.sub.receive
    (.received message, { s with sub })
  | .ack sequence =>
    let (found, sub) := s.sub.ack sequence
    (.acked found, { s with sub })
  | .nack sequence =>
    let (found, sub) := s.sub.nack sequence
    (.nacked found, { s with sub })

/-! ## The mailbox -/

/-- The messages that were published, matched and kept, and that are not yet received or acked. -/
structure Mailbox where
  sequence : ℕ
  pending : List LoopyMessage
deriving DecidableEq, Repr

/-- What a call does to a mailbox. -/
def Mailbox.step (config : LoopySubscriptionConfig) (m : Mailbox) : Call → Answer × Mailbox
  | .publish matched topic data len timestamp publisherData =>
    let sequence := m.sequence + 1
    let message := { topic, data, len, timestamp, sequence, publisherData }
    if matched then
      if config.dropOnFull ∧ 0 < config.queueSize ∧ config.queueSize ≤ m.pending.length then
        (.published (some .dropped), { m with sequence })
      else (.published (some .delivered), { sequence, pending := m.pending ++ [message] })
    else (.published none, { m with sequence })
  | .receive =>
    (.received (m.pending.head?.map LoopyMessage.received),
      if config.ackMode = .manual then m else { m with pending := m.pending.tail })
  | .ack sequence =>
    (.acked (decide (sequence ∈ m.pending.map LoopyMessage.sequence)),
      if config.ackMode = .manual then
        { m with pending := m.pending.filter fun message => message.sequence ≠ sequence }
      else m)
  | .nack _ => (.nacked true, m)

/-- The entries from `queueHead` on. -/
def LoopySubscription.queue (sub : LoopySubscription) : List ℕ :=
  walk sub.next sub.allocated sub.queueHead

/-- The linked list is the mailbox. -/
structure QueueLaw (s : Subscribed) (m : Mailbox) : Prop where
  chain : Chain s.sub.next s.sub.queueHead s.sub.queue
  pending : s.sub.queue.map (fun n => (s.sub.entry n).message) = m.pending
  increasing : (m.pending.map LoopyMessage.sequence).Pairwise (· < ·)
  queueLen : s.sub.queueLen = m.pending.length
  queueTail : s.sub.queueTail = s.sub.queue.getLast?

/-- The ack is for the last of several entries. -/
def LoopySubscription.acksTail (sub : LoopySubscription) (sequence : ℕ) : Bool :=
  match sub.queueTail with
  | some n =>
    decide (sub.queueHead ≠ some n) && decide ((sub.entry n).message.sequence = sequence)
  | none => false

/-- No ack is for the last of several entries, none is for a queued entry of a subscription that
is not to be acked by hand, and the sequence numbers do not run out. -/
def Admitted (s : Subscribed) : Call → Prop
  | .publish .. => s.sequence + 1 < 2 ^ 64
  | .ack sequence =>
    if s.sub.config.ackMode = .manual then s.sub.acksTail sequence = false
    else ∀ n ∈ s.sub.queue, (s.sub.entry n).message.sequence ≠ sequence
  | _ => True

instance (s : Subscribed) : ∀ c, Decidable (Admitted s c)
  | .publish .. => inferInstanceAs (Decidable (s.sequence + 1 < 2 ^ 64))
  | .ack sequence =>
    inferInstanceAs (Decidable (if s.sub.config.ackMode = .manual
      then s.sub.acksTail sequence = false
      else ∀ n ∈ s.sub.queue, (s.sub.entry n).message.sequence ≠ sequence))
  | .receive | .nack _ => isTrue trivial

/-- What a receive hands out is not freed: the subscription is to be acked by hand, or there is
nothing to hand out. -/
def Intact (s : Subscribed) : Call → Prop
  | .receive => s.sub.config.ackMode = .manual ∨ s.sub.queueHead = none
  | _ => True

instance (s : Subscribed) : ∀ c, Decidable (Intact s c)
  | .receive => inferInstanceAs (Decidable (_ ∨ _))
  | .publish .. | .ack _ | .nack _ => isTrue trivial

/-! ## The list operations -/

@[simp] theorem LoopySubscription.next_setNext (sub : LoopySubscription) (n : ℕ) (p : Option ℕ)
    (k : ℕ) : (sub.setNext n p).next k = if k = n then p else sub.next k := by
  unfold setNext next
  by_cases hk : k = n
  · subst hk
    simp
  · simp [hk]

@[simp] theorem LoopySubscription.message_setNext (sub : LoopySubscription) (n : ℕ)
    (p : Option ℕ) (k : ℕ) : ((sub.setNext n p).entry k).message = (sub.entry k).message := by
  unfold setNext
  by_cases hk : k = n
  · subst hk
    simp
  · simp [hk]

/-- The queue consists of the entries `l`. -/
structure Holds (sub : LoopySubscription) (l : List ℕ) : Prop where
  chain : Chain sub.next sub.queueHead l
  tail : sub.queueTail = l.getLast?
  len : sub.queueLen = l.length
  below : ∀ n ∈ l, n < sub.allocated

variable {sub : LoopySubscription} {l l₁ l₂ : List ℕ} {n sequence : ℕ}

theorem Holds.length_le (h : Holds sub l) : l.length ≤ sub.allocated := h.chain.length_le h.below

theorem Holds.queue_eq (h : Holds sub l) : sub.queue = l := walk_eq h.chain h.length_le

/-- The two pointers and the links. -/
def LoopySubscription.linked (sub : LoopySubscription) : LinkedQueue ℕ :=
  { head := sub.queueHead, tail := sub.queueTail, next := sub.next }

theorem Holds.linked (h : Holds sub l) : sub.linked.Holds l := ⟨h.chain, h.tail⟩

/-- The new entry is appended to the linked queue. -/
theorem LoopySubscription.enqueue_linked (sub : LoopySubscription) (message : LoopyMessage) :
    (sub.enqueue message).linked = sub.linked.push sub.allocated := by
  have hentry : ∀ k, (update sub.entry sub.allocated { next := none, message } k).next =
      update sub.next sub.allocated none k := by
    intro k
    by_cases hk : k = sub.allocated
    · rw [hk, update_self, update_self]
    · rw [update_of_ne hk, update_of_ne hk, LoopySubscription.next]
  unfold LoopySubscription.enqueue LoopySubscription.linked LinkedQueue.push
  cases htail : sub.queueTail with
  | none =>
    dsimp only
    congr 1
    funext k
    exact hentry k
  | some tail =>
    dsimp only
    congr 1
    funext k
    refine (LoopySubscription.next_setNext _ _ _ _).trans ?_
    rw [Function.update_apply, LoopySubscription.next]
    split
    · rfl
    · exact hentry k

/-- A message is appended. -/
theorem Holds.enqueue (h : Holds sub l) (message : LoopyMessage) :
    Holds (sub.enqueue message) (l ++ [sub.allocated]) ∧
      (∀ n ∈ l, ((sub.enqueue message).entry n).message = (sub.entry n).message) ∧
      ((sub.enqueue message).entry sub.allocated).message = message := by
  have hlinked := sub.enqueue_linked message
  have hne : ∀ k ∈ l, k ≠ sub.allocated := fun k hk => Nat.ne_of_lt (h.below k hk)
  have hpush := h.linked.push fun hmem => hne _ hmem rfl
  rw [← hlinked] at hpush
  have hmessage : ∀ k, ((sub.enqueue message).entry k).message =
      (update sub.entry sub.allocated { next := none, message } k).message := by
    intro k
    unfold LoopySubscription.enqueue
    cases sub.queueTail with
    | none => rfl
    | some tail => exact LoopySubscription.message_setNext _ _ _ _
  have hlen : (sub.enqueue message).queueLen = sub.queueLen + 1 ∧
      (sub.enqueue message).allocated = sub.allocated + 1 := by
    unfold LoopySubscription.enqueue
    cases sub.queueTail <;> exact ⟨rfl, rfl⟩
  refine ⟨⟨hpush.chain, hpush.tail, ?_, fun k hk => ?_⟩, fun k hk => ?_, ?_⟩
  · rw [hlen.1, h.len, List.length_append, List.length_singleton]
  · rw [hlen.2]
    obtain hold | hnew := List.mem_append.mp hk
    · exact Nat.lt_succ_of_lt (h.below k hold)
    · rw [List.mem_singleton.mp hnew]
      exact Nat.lt_succ_self _
  · rw [hmessage, update_of_ne (hne k hk)]
  · rw [hmessage, update_self]

/-- The first entry is taken. -/
theorem Holds.pop (h : Holds sub (n :: l)) :
    Holds { sub with
      queueHead := sub.next n
      queueTail := if sub.next n = none then none else sub.queueTail
      queueLen := sub.queueLen - 1 } l := by
  have hunlink := h.linked.unlink
  refine ⟨hunlink.chain, hunlink.tail, ?_, fun k hk => h.below k (List.mem_cons_of_mem n hk)⟩
  show sub.queueLen - 1 = l.length
  rw [h.len, List.length_cons, Nat.add_sub_cancel]

@[simp] theorem LoopySubscription.message_unlink (sub : LoopySubscription) (before : Option ℕ)
    (n k : ℕ) : ((sub.unlink before n).entry k).message = (sub.entry k).message := by
  cases before with
  | none => rfl
  | some m => exact sub.message_setNext m _ k

/-- The links go past an entry that is taken out. -/
theorem LoopySubscription.unlink_chain (sub : LoopySubscription)
    (h : Chain sub.next sub.queueHead (l₁ ++ n :: l₂)) :
    Chain (sub.unlink l₁.getLast? n).next (sub.unlink l₁.getLast? n).queueHead (l₁ ++ l₂) := by
  -- the link of the entry before is written, or the head
  rcases List.eq_nil_or_concat l₁ with rfl | ⟨l, m, rfl⟩
  · exact h.tail
  · rw [List.concat_eq_append, List.getLast?_concat]
    rw [List.concat_eq_append, List.append_assoc, List.singleton_append] at h
    rw [List.append_assoc, List.singleton_append]
    refine h.unlink ?_ fun k _ hkm => ?_
    · exact (LoopySubscription.next_setNext _ _ _ _).trans (if_pos rfl)
    · exact (LoopySubscription.next_setNext _ _ _ _).trans (if_neg hkm)

theorem LoopySubscription.unlink_frame (sub : LoopySubscription) (before : Option ℕ) (n : ℕ) :
    (sub.unlink before n).queueTail = sub.queueTail ∧
      (sub.unlink before n).queueLen = sub.queueLen ∧
      (sub.unlink before n).allocated = sub.allocated ∧
      (sub.unlink before n).config = sub.config := by
  cases before <;> exact ⟨rfl, rfl, rfl, rfl⟩

/-- An entry is taken out, but not the last one of several. -/
theorem Holds.remove (h : Holds sub (l₁ ++ n :: l₂)) (hlast : l₂ = [] → l₁ = []) :
    Holds { sub.unlink l₁.getLast? n with
      queueTail :=
        if (sub.unlink l₁.getLast? n).queueTail = some n then none
        else (sub.unlink l₁.getLast? n).queueTail
      queueLen := (sub.unlink l₁.getLast? n).queueLen - 1 } (l₁ ++ l₂) := by
  obtain ⟨htail, hlen, hallocated, -⟩ := sub.unlink_frame l₁.getLast? n
  have hrest := (List.nodup_append.mp h.chain.nodup).2.1
  rw [htail, hlen]
  refine ⟨?_, ?_, ?_, ?_⟩
  · exact sub.unlink_chain h.chain
  · show (if sub.queueTail = some n then none else sub.queueTail) = (l₁ ++ l₂).getLast?
    have hold := h.tail
    cases l₂ with
    | nil =>
      rw [hlast rfl] at hold ⊢
      simp [hold]
    | cons k l =>
      rw [List.getLast?_append, List.getLast?_cons_cons] at hold
      rw [List.getLast?_append]
      have hmem : ∀ t, (k :: l).getLast? = some t → t ≠ n := by
        rintro t ht rfl
        exact (List.nodup_cons.mp hrest).1 (List.mem_of_getLast? ht)
      obtain ⟨t, ht⟩ : ∃ t, (k :: l).getLast? = some t := ⟨_, List.getLast?_cons⟩
      rw [ht] at hold ⊢
      have hne : ¬ sub.queueTail = some n := by
        rw [hold]
        exact fun heq => hmem t ht (Option.some.inj heq)
      rw [if_neg hne]
      exact hold
  · show sub.queueLen - 1 = (l₁ ++ l₂).length
    rw [h.len]
    simp only [List.length_append, List.length_cons]
    omega
  · intro k hk
    refine (h.below k ?_).trans_eq hallocated.symm
    rcases List.mem_append.mp hk with hk | hk
    · exact List.mem_append_left _ hk
    · exact List.mem_append_right _ (List.mem_cons_of_mem n hk)

/-! ## The simulation -/

/-- The subscription stands for the mailbox. -/
structure Agrees (config : LoopySubscriptionConfig) (s : Subscribed) (m : Mailbox) : Prop where
  config : s.sub.config = config
  sequence : s.sequence = m.sequence
  list : ∃ l, Holds s.sub l ∧ l.map (fun n => (s.sub.entry n).message) = m.pending
  increasing : (m.pending.map LoopyMessage.sequence).Pairwise (· < ·)
  bound : ∀ message ∈ m.pending, message.sequence ≤ m.sequence

variable {config : LoopySubscriptionConfig} {s : Subscribed} {m : Mailbox}

theorem Agrees.law (h : Agrees config s m) : QueueLaw s m := by
  obtain ⟨l, hl, hpending⟩ := h.list
  have hqueue := hl.queue_eq
  refine ⟨?_, ?_, h.increasing, ?_, ?_⟩
  · rw [hqueue]
    exact hl.chain
  · rw [hqueue]
    exact hpending
  · rw [hl.len, ← hpending, List.length_map]
  · rw [hqueue]
    exact hl.tail

theorem LoopySubscription.config_enqueue (sub : LoopySubscription) (message : LoopyMessage) :
    (sub.enqueue message).config = sub.config := by
  unfold enqueue
  cases sub.queueTail <;> rfl

/-- The subscription drops a message exactly if the mailbox does. -/
theorem Agrees.drops_iff (h : Agrees config s m) : s.sub.drops = true ↔
    config.dropOnFull ∧ 0 < config.queueSize ∧ config.queueSize ≤ m.pending.length := by
  have hlen := h.law.queueLen
  unfold LoopySubscription.drops
  rw [h.config, hlen]
  simp only [Bool.and_eq_true, decide_eq_true_eq]
  tauto

theorem Agrees.publish (h : Agrees config s m) (hqueue : config.deliveryMode = .queue)
    (matched : Bool) (topic : CString) (data : List UInt8) (len timestamp publisherData : ℕ)
    (hok : s.sequence + 1 < 2 ^ 64) :
    (s.step (.publish matched topic data len timestamp publisherData)).1 =
        (m.step config (.publish matched topic data len timestamp publisherData)).1 ∧
      Agrees config (s.step (.publish matched topic data len timestamp publisherData)).2
        (m.step config (.publish matched topic data len timestamp publisherData)).2 := by
  have hsequence : nextSequence s.sequence = m.sequence + 1 := by
    rw [nextSequence, Nat.mod_eq_of_lt hok, h.sequence]
  have hbound : ∀ message ∈ m.pending, message.sequence ≤ m.sequence + 1 :=
    fun message hmem => Nat.le_succ_of_le (h.bound message hmem)
  unfold Subscribed.step Mailbox.step
  rw [hsequence]
  cases matched with
  | false => exact ⟨rfl, h.config, rfl, h.list, h.increasing, hbound⟩
  | true =>
    have hmode : s.sub.config.deliveryMode = .queue := by rw [h.config, hqueue]
    simp only [if_true, LoopySubscription.publish, hmode]
    by_cases hdrops : s.sub.drops = true
    · rw [if_pos hdrops, if_pos (h.drops_iff.mp hdrops)]
      exact ⟨rfl, h.config, rfl, h.list, h.increasing, hbound⟩
    · rw [if_neg hdrops, if_neg fun hfull => hdrops (h.drops_iff.mpr hfull)]
      obtain ⟨l, hl, hpending⟩ := h.list
      refine ⟨rfl, (s.sub.config_enqueue _).trans h.config, rfl, ?_, ?_, ?_⟩
      · obtain ⟨hl', hold, hnew⟩ := hl.enqueue
          { topic, data, len, timestamp, sequence := m.sequence + 1, publisherData }
        refine ⟨_, hl', ?_⟩
        rw [List.map_append, List.map_singleton, hnew, ← hpending]
        exact congrArg (· ++ _) (List.map_congr_left hold)
      · -- the new number is above all others
        rw [List.map_append, List.map_singleton, List.pairwise_append]
        refine ⟨h.increasing, List.pairwise_singleton _ _, fun x hx y hy => ?_⟩
        obtain ⟨message, hmem, rfl⟩ := List.mem_map.mp hx
        rw [List.mem_singleton.mp hy]
        exact Nat.lt_succ_of_le (h.bound message hmem)
      · intro message hmem
        rcases List.mem_append.mp hmem with hmem | hmem
        · exact hbound message hmem
        · rw [List.mem_singleton.mp hmem]

theorem LoopySubscription.receive_empty (h : sub.queueHead = none) : sub.receive = (none, sub) := by
  unfold receive
  rw [h, ite_self]

theorem LoopySubscription.receive_manual (hqueue : sub.config.deliveryMode = .queue)
    (hmanual : sub.config.ackMode = .manual) (h : sub.queueHead = some n) :
    sub.receive = (some (sub.entry n).message.received, sub) := by
  unfold receive
  rw [h, if_neg (not_not.mpr hqueue)]
  simp only [if_neg (not_not.mpr hmanual)]

theorem LoopySubscription.receive_pop (hqueue : sub.config.deliveryMode = .queue)
    (hmanual : sub.config.ackMode ≠ .manual) (h : sub.queueHead = some n) :
    sub.receive = (some (sub.entry n).message.received.freed,
      { sub with
        queueHead := sub.next n
        queueTail := if sub.next n = none then none else sub.queueTail
        queueLen := sub.queueLen - 1 }) := by
  unfold receive
  rw [h, if_neg (not_not.mpr hqueue)]
  simp only [if_pos hmanual]

/-- A receive takes the message that the mailbox gives; it is the same with its topic and data
exactly if its entry stays. -/
theorem Agrees.receive (h : Agrees config s m) (hqueue : config.deliveryMode = .queue) :
    ((s.step .receive).1 = (m.step config .receive).1 ↔ Intact s .receive) ∧
      Agrees config (s.step .receive).2 (m.step config .receive).2 := by
  have hmode : s.sub.config.deliveryMode = .queue := by rw [h.config, hqueue]
  obtain ⟨l, hl, hpending⟩ := h.list
  show (Answer.received s.sub.receive.1 =
      Answer.received (m.pending.head?.map LoopyMessage.received) ↔
        s.sub.config.ackMode = .manual ∨ s.sub.queueHead = none) ∧
    Agrees config { s with sub := s.sub.receive.2 }
      (if config.ackMode = .manual then m else { m with pending := m.pending.tail })
  cases l with
  | nil =>
    have hnil : m.pending = [] := hpending.symm
    have hhead : s.sub.queueHead = none := hl.chain.eq_none_iff.mpr rfl
    have hsame : (if config.ackMode = .manual then m else { m with pending := m.pending.tail }) =
        m := by
      obtain ⟨sequence, pending⟩ := m
      obtain rfl : pending = [] := hnil
      exact ite_self _
    rw [LoopySubscription.receive_empty hhead, hsame, hnil]
    exact ⟨iff_of_true rfl (.inr hhead), h⟩
  | cons n l =>
    have hhead : s.sub.queueHead ≠ none := by
      rw [hl.chain.1]
      exact Option.some_ne_none n
    by_cases hmanual : config.ackMode = .manual
    · have hack : s.sub.config.ackMode = .manual := by rw [h.config, hmanual]
      rw [LoopySubscription.receive_manual hmode hack hl.chain.1, if_pos hmanual, ← hpending]
      exact ⟨iff_of_true rfl (.inl hack), h⟩
    · have hack : s.sub.config.ackMode ≠ .manual := by rwa [h.config]
      rw [LoopySubscription.receive_pop hmode hack hl.chain.1, if_neg hmanual, ← hpending]
      have hincreasing := h.increasing
      have hbound := h.bound
      rw [← hpending] at hincreasing hbound
      refine ⟨iff_of_false (fun heq => ?_) (not_or.mpr ⟨hack, hhead⟩), h.config, h.sequence,
        ⟨l, hl.pop, rfl⟩, (List.pairwise_cons.mp hincreasing).2,
        fun message hmem => hbound message (List.mem_cons_of_mem _ hmem)⟩
      -- the topic of the entry that was freed is gone
      have htopic := congrArg Received.topic (Option.some.inj (Answer.received.inj heq))
      exact Option.some_ne_none _ htopic.symm

theorem LoopySubscription.ack_refuses (hmanual : sub.config.ackMode ≠ .manual) (sequence : ℕ) :
    sub.ack sequence = (false, sub) :=
  if_pos hmanual

theorem LoopySubscription.ack_not_found (hmanual : sub.config.ackMode = .manual)
    (h : sub.find sequence = none) : sub.ack sequence = (false, sub) := by
  unfold ack
  rw [if_neg (not_not.mpr hmanual), h]

theorem LoopySubscription.ack_found {before : Option ℕ} (hmanual : sub.config.ackMode = .manual)
    (h : sub.find sequence = some (before, n)) :
    sub.ack sequence = (true,
      { sub.unlink before n with
        queueTail :=
          if (sub.unlink before n).queueTail = some n then none
          else (sub.unlink before n).queueTail
        queueLen := (sub.unlink before n).queueLen - 1 }) := by
  unfold ack
  rw [if_neg (not_not.mpr hmanual), h]

/-- A queued message has one entry, and those before it have smaller numbers. -/
theorem Agrees.entry_of_mem (h : Agrees config s m)
    (hpending : l.map (fun n => (s.sub.entry n).message) = m.pending)
    (hmem : sequence ∈ m.pending.map LoopyMessage.sequence) :
    ∃ l₁ n l₂, l = l₁ ++ n :: l₂ ∧ (s.sub.entry n).message.sequence = sequence ∧
      (∀ k ∈ l₁, (s.sub.entry k).message.sequence ≠ sequence) ∧
      ∀ k ∈ l₂, (s.sub.entry k).message.sequence ≠ sequence := by
  have hincreasing := h.increasing
  rw [← hpending, List.map_map] at hincreasing hmem
  obtain ⟨n, hn, rfl⟩ := List.mem_map.mp hmem
  obtain ⟨l₁, l₂, rfl⟩ := List.append_of_mem hn
  rw [List.pairwise_map, List.pairwise_append, List.pairwise_cons] at hincreasing
  obtain ⟨-, ⟨habove, -⟩, hbelow⟩ := hincreasing
  refine ⟨l₁, n, l₂, rfl, rfl, fun k hk => ?_, fun k hk => ?_⟩
  · exact Nat.ne_of_lt (hbelow k hk n List.mem_cons_self)
  · exact (Nat.ne_of_lt (habove k hk)).symm

/-- The ack of an entry behind which there is none, and which is not alone, is for the tail. -/
theorem Holds.acksTail (h : Holds sub (l₁ ++ n :: l₂))
    (hn : (sub.entry n).message.sequence = sequence) (hok : sub.acksTail sequence = false)
    (hl₂ : l₂ = []) : l₁ = [] := by
  subst hl₂
  have htail : sub.queueTail = some n := by rw [h.tail, List.getLast?_concat]
  have hhead : sub.queueHead = some n := by
    simpa [LoopySubscription.acksTail, htail, hn] using hok
  rw [h.chain.head] at hhead
  cases l₁ with
  | nil => rfl
  | cons k l =>
    obtain rfl : k = n := by simpa using hhead
    exact absurd (List.mem_append_right l List.mem_cons_self) (List.nodup_cons.mp h.chain.nodup).1

theorem Agrees.ack_manual (h : Agrees config s m) (hmanual : config.ackMode = .manual)
    (sequence : ℕ) (hok : s.sub.acksTail sequence = false) :
    (s.sub.ack sequence).1 = decide (sequence ∈ m.pending.map LoopyMessage.sequence) ∧
      Agrees config { s with sub := (s.sub.ack sequence).2 }
        { m with pending := m.pending.filter fun message => message.sequence ≠ sequence } := by
  have hmode : s.sub.config.ackMode = .manual := by rw [h.config, hmanual]
  obtain ⟨l, hl, hpending⟩ := h.list
  by_cases hmem : sequence ∈ m.pending.map LoopyMessage.sequence
  · obtain ⟨l₁, n, l₂, rfl, hn, hl₁, hl₂⟩ := h.entry_of_mem hpending hmem
    have hfind : s.sub.find sequence = some (l₁.getLast?.or none, n) := by
      have hle := hl.length_le
      rw [List.length_append] at hle
      exact findLink_eq_some hl.chain (fun k hk => decide_eq_false (hl₁ k hk))
        (decide_eq_true hn) (by omega) none
    rw [Option.or_none] at hfind
    -- the numbers differ, so the mailbox loses this message only
    have hfilter : m.pending.filter (fun message => message.sequence ≠ sequence) =
        (l₁ ++ l₂).map fun n => (s.sub.entry n).message := by
      have hkeep : ∀ l : List ℕ, (∀ k ∈ l, (s.sub.entry k).message.sequence ≠ sequence) →
          (l.map fun n => (s.sub.entry n).message).filter
            (fun message => message.sequence ≠ sequence) =
          l.map fun n => (s.sub.entry n).message := by
        intro l hl
        rw [List.filter_eq_self]
        intro message hmessage
        obtain ⟨k, hk, rfl⟩ := List.mem_map.mp hmessage
        exact decide_eq_true (hl k hk)
      rw [← hpending, List.map_append, List.map_cons, List.filter_append, List.filter_cons,
        if_neg (by simp [hn]), hkeep l₁ hl₁, hkeep l₂ hl₂, List.map_append]
    have hsub : (m.pending.filter fun message => message.sequence ≠ sequence).Sublist m.pending :=
      List.filter_sublist
    rw [LoopySubscription.ack_found hmode hfind, decide_eq_true hmem]
    refine ⟨rfl, ?_, h.sequence, ⟨_, hl.remove (hl.acksTail hn hok), ?_⟩, ?_, ?_⟩
    · rw [← h.config]
      cases l₁.getLast? <;> rfl
    · rw [hfilter]
      exact List.map_congr_left fun k _ => LoopySubscription.message_unlink _ _ _ _
    · exact h.increasing.sublist (hsub.map _)
    · exact fun message hmessage => h.bound message (hsub.subset hmessage)
  · have hno : ∀ n ∈ l, decide ((s.sub.entry n).message.sequence = sequence) = false := by
      intro n hn
      refine decide_eq_false fun heq => hmem ?_
      rw [← hpending, List.map_map]
      exact List.mem_map.mpr ⟨n, hn, heq⟩
    have hfilter : m.pending.filter (fun message => message.sequence ≠ sequence) = m.pending := by
      rw [List.filter_eq_self]
      intro message hmessage
      refine decide_eq_true fun heq => hmem ?_
      exact List.mem_map.mpr ⟨message, hmessage, heq⟩
    rw [LoopySubscription.ack_not_found hmode (findLink_eq_none hl.chain hno _ none),
      decide_eq_false hmem, hfilter]
    exact ⟨rfl, h⟩

theorem Agrees.ack (h : Agrees config s m) (sequence : ℕ) (hok : Admitted s (.ack sequence)) :
    (s.step (.ack sequence)).1 = (m.step config (.ack sequence)).1 ∧
      Agrees config (s.step (.ack sequence)).2 (m.step config (.ack sequence)).2 := by
  show Answer.acked (s.sub.ack sequence).1 =
      Answer.acked (decide (sequence ∈ m.pending.map LoopyMessage.sequence)) ∧
    Agrees config { s with sub := (s.sub.ack sequence).2 } (if config.ackMode = .manual then
        { m with pending := m.pending.filter fun message => message.sequence ≠ sequence } else m)
  rw [Admitted, h.config] at hok
  by_cases hmanual : config.ackMode = .manual
  · rw [if_pos hmanual] at hok ⊢
    obtain ⟨hfound, hnext⟩ := h.ack_manual hmanual sequence hok
    exact ⟨congrArg Answer.acked hfound, hnext⟩
  · rw [if_neg hmanual] at hok ⊢
    have hno : sequence ∉ m.pending.map LoopyMessage.sequence := by
      rw [← h.law.pending, List.map_map]
      intro hmem
      obtain ⟨n, hn, heq⟩ := List.mem_map.mp hmem
      exact hok n hn heq
    rw [LoopySubscription.ack_refuses (by rwa [h.config]), decide_eq_false hno]
    exact ⟨rfl, h⟩

/-- **A call.** -/
theorem Agrees.step (hqueue : config.deliveryMode = .queue) (c : Call) (h : Agrees config s m)
    (hok : Admitted s c) :
    ((s.step c).1 = (m.step config c).1 ↔ Intact s c) ∧
      Agrees config (s.step c).2 (m.step config c).2 := by
  cases c with
  | publish matched topic data len timestamp publisherData =>
    obtain ⟨hout, hnext⟩ := h.publish hqueue matched topic data len timestamp publisherData hok
    exact ⟨iff_of_true hout trivial, hnext⟩
  | receive => exact h.receive hqueue
  | ack sequence =>
    obtain ⟨hout, hnext⟩ := h.ack sequence hok
    exact ⟨iff_of_true hout trivial, hnext⟩
  | nack sequence => exact ⟨iff_of_true rfl trivial, h⟩

theorem Agrees.fresh (pattern : CString) (config : LoopySubscriptionConfig) :
    Agrees config (.fresh pattern config) { sequence := 0, pending := [] } :=
  ⟨rfl, rfl, ⟨[], ⟨rfl, rfl, rfl, nofun⟩, rfl⟩, List.Pairwise.nil, nofun⟩

/-- **The queue is the mailbox.** In every run without an ack of the last of several entries the
linked list is the content of the mailbox, and the calls answer what it answers if and only if no
message that is handed out is freed. -/
theorem queue_correct (pattern : CString) (config : LoopySubscriptionConfig)
    (hqueue : config.deliveryMode = .queue) (calls : List Call)
    (hok : Along Subscribed.step Admitted (.fresh pattern config) calls) :
    (outputs Subscribed.step (.fresh pattern config) calls =
        outputs (Mailbox.step config) { sequence := 0, pending := [] } calls ↔
      Along Subscribed.step Intact (.fresh pattern config) calls) ∧
      QueueLaw (after Subscribed.step (.fresh pattern config) calls)
        (after (Mailbox.step config) { sequence := 0, pending := [] } calls) := by
  obtain ⟨hout, hend⟩ := simulates_iff_along (fun _ _ c h hok => Agrees.step hqueue c h hok) calls
    (Agrees.fresh pattern config) hok
  exact ⟨hout, hend.law⟩

/-- A queue of at most three messages that are to be acked by hand. -/
def manualConfig : LoopySubscriptionConfig :=
  { deliveryMode := .queue, ackMode := .manual, queueSize := 3, dropOnFull := true }

/-- Four publications, the last of which is dropped; acks from the middle, the front and of the
only entry. -/
def queueCalls : List Call :=
  [.publish true [116] [1] 1 10 0, .publish true [116] [2] 1 11 0, .publish false [117] [9] 1 12 0,
    .publish true [116] [3] 1 13 0, .publish true [116] [4] 1 14 0, .ack 2, .receive, .ack 1,
    .nack 4, .ack 5, .ack 4, .receive]

theorem queue_correct_queueCalls :
    outputs Subscribed.step (.fresh [116] manualConfig) queueCalls =
        outputs (Mailbox.step manualConfig) { sequence := 0, pending := [] } queueCalls ∧
      QueueLaw (after Subscribed.step (.fresh [116] manualConfig) queueCalls)
        (after (Mailbox.step manualConfig) { sequence := 0, pending := [] } queueCalls) := by
  obtain ⟨hout, hlaw⟩ := queue_correct [116] manualConfig rfl queueCalls (by decide +kernel)
  exact ⟨hout.mpr (by decide +kernel), hlaw⟩

/-- Of two messages the second is acked, and a third one is published: the first is lost. -/
theorem queue_loses_message :
    ¬ ∀ calls, outputs Subscribed.step (.fresh [116] manualConfig) calls =
        outputs (Mailbox.step manualConfig) { sequence := 0, pending := [] } calls ∧
      QueueLaw (after Subscribed.step (.fresh [116] manualConfig) calls)
        (after (Mailbox.step manualConfig) { sequence := 0, pending := [] } calls) := by
  intro hall
  have hout := (hall [.publish true [116] [1] 1 10 0, .publish true [116] [2] 1 11 0, .ack 2,
    .publish true [116] [3] 1 12 0, .receive]).1
  revert hout
  decide +kernel

end Loopy.PubSub
