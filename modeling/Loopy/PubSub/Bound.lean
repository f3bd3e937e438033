import Loopy.Lib.Run
import Loopy.PubSub.Queue

/-!
# `loopyPubSub.c`: the bound of a queue

A `LOOPY_DELIVER_QUEUE` subscription of which any number of threads are publishers and receivers.
What a thread does to the queue it does between the lock and the unlock of `queueMutex`, so a run
is a sequence of such sections with any messages, whichever threads they are of. `publications` is
a record: what every publication found and whether it was counted as dropped.

With `dropOnFull` the bound is kept. Without it the test has an empty branch behind it, and a
message that finds the queue full is appended (`queue_bounded`).
-/

namespace Loopy.PubSub

open Loopy.Lib

/-- A publication: whether it found the queue full, and whether `messagesDropped` counted it. -/
structure Publication where
  full : Bool
  counted : Bool
deriving DecidableEq, Repr

/-- A subscription with its two counters, and the record. -/
structure BoundedQueue where
  sub : LoopySubscription
  messagesReceived : ℕ
  messagesDropped : ℕ
  publications : List Publication

/-- A new subscription. -/
def BoundedQueue.new (pattern : CString) (config : LoopySubscriptionConfig) : BoundedQueue :=
  { sub := .new pattern config
    messagesReceived := 0
    messagesDropped := 0
    publications := [] }

/-- `++` on a `uint64_t`. -/
def increment (counter : ℕ) : ℕ := (counter + 1) % 2 ^ 64

/-- The queue has as many messages as it may have. -/
def LoopySubscription.full (sub : LoopySubscription) : Bool :=
  decide (sub.config.queueSize > 0) && decide (sub.queueLen ≥ sub.config.queueSize)

/-- The section of `publishToPattern`; `alloc` says whether `zcalloc` finds memory. -/
def BoundedQueue.publish (s : BoundedQueue) (message : LoopyMessage) (alloc : Bool) :
    BoundedQueue :=
  match s.sub.publish message with
  | (.dropped, sub) =>
    { s with
      sub
      messagesDropped := increment s.messagesDropped
      publications := s.publications ++ [{ full := s.sub.full, counted := true }] }
  | (.delivered, sub) =>
    if alloc then
      { s with
        sub
        messagesReceived := increment s.messagesReceived
        publications := s.publications ++ [{ full := s.sub.full, counted := false }] }
    else
      { s with publications := s.publications ++ [{ full := s.sub.full, counted := false }] }
  | (.neither, _) => s

/-- The sections of the threads. -/
inductive QueueSection
  | publish (message : LoopyMessage) (alloc : Bool)
  | receive
  | ack (sequence : ℕ)
deriving DecidableEq, Repr

/-- One section; every one is possible at any time. -/
def BoundedQueue.step (s : BoundedQueue) : QueueSection → Option BoundedQueue
  | .publish message alloc => some (s.publish message alloc)
  | .receive => some { s with sub := s.sub.receive.2 }
  | .ack sequence => some { s with sub := (s.sub.ack sequence).2 }

/-- `loopySubscriptionPending` never exceeds `queueSize`, nor does the list, and every publication
that found the queue full is counted. -/
structure BoundLaw (s : BoundedQueue) : Prop where
  pending : s.sub.queueLen ≤ s.sub.config.queueSize
  listed : s.sub.queue.length ≤ s.sub.queueLen
  met : ∀ p ∈ s.publications, p.full = true → p.counted = true
  dropped : s.messagesDropped = s.publications.countP (·.counted) % 2 ^ 64

/-- Messages are dropped when the queue is full, or it is not full. -/
def Roomy (s : BoundedQueue) : QueueSection → Prop
  | .publish .. => s.sub.config.dropOnFull = true ∨ s.sub.queueLen < s.sub.config.queueSize
  | .receive | .ack _ => True

instance (s : BoundedQueue) : ∀ a, Decidable (Roomy s a)
  | .publish .. => inferInstanceAs (Decidable (_ ∨ _))
  | .receive | .ack _ => isTrue trivial

/-! ## The list and its length

An ack of the last of several entries leaves no tail, and the next message then replaces the list;
`queueLen` still counts what was on it. -/

/-- The entries `l` hang on the head, and there are no more than `queueLen`. -/
structure Hangs (sub : LoopySubscription) (l : List ℕ) : Prop where
  chain : Chain sub.next sub.queueHead l
  tail : sub.queueTail = none ∨ sub.queueTail = l.getLast?
  len : l.length ≤ sub.queueLen
  below : ∀ n ∈ l, n < sub.allocated

section list

variable {sub : LoopySubscription} {l : List ℕ}

theorem Hangs.queue_eq (h : Hangs sub l) : sub.queue = l :=
  walk_eq h.chain (h.chain.length_le h.below)

theorem LoopySubscription.enqueue_counts (sub : LoopySubscription) (message : LoopyMessage) :
    (sub.enqueue message).queueLen = sub.queueLen + 1 ∧
      (sub.enqueue message).allocated = sub.allocated + 1 := by
  unfold enqueue
  cases sub.queueTail <;> exact ⟨rfl, rfl⟩

theorem Hangs.enqueue (h : Hangs sub l) (message : LoopyMessage) :
    ∃ l', Hangs (sub.enqueue message) l' := by
  obtain ⟨hlen, hallocated⟩ := sub.enqueue_counts message
  have hlinked := sub.enqueue_linked message
  by_cases hnone : sub.queueTail = none
  · -- the message is the only one on the list
    have hnew : sub.linked.push sub.allocated =
        { head := some sub.allocated
          tail := some sub.allocated
          next := Function.update sub.next sub.allocated none } := by
      unfold LinkedQueue.push LoopySubscription.linked
      rw [hnone]
    rw [hnew] at hlinked
    have hhead := congrArg LinkedQueue.head hlinked
    have htail := congrArg LinkedQueue.tail hlinked
    have hnext := congrArg LinkedQueue.next hlinked
    refine ⟨[sub.allocated], ⟨hhead, ?_⟩, .inr htail, ?_, fun n hn => ?_⟩
    · exact (congrFun hnext _).trans (Function.update_self ..)
    · rw [hlen, List.length_singleton]
      omega
    · rw [List.mem_singleton.mp hn, hallocated]
      omega
  · have hholds : sub.linked.Holds l := ⟨h.chain, h.tail.resolve_left hnone⟩
    have hpush := hholds.push fun hmem => Nat.lt_irrefl _ (h.below _ hmem)
    rw [← hlinked] at hpush
    refine ⟨_, hpush.chain, .inr hpush.tail, ?_, fun n hn => ?_⟩
    · have hle := h.len
      rw [hlen, List.length_append, List.length_singleton]
      omega
    · rw [hallocated]
      rcases List.mem_append.mp hn with hold | hnew
      · exact Nat.lt_succ_of_lt (h.below n hold)
      · rw [List.mem_singleton.mp hnew]
        exact Nat.lt_succ_self _

theorem Hangs.receive (h : Hangs sub l) : ∃ l', Hangs sub.receive.2 l' := by
  unfold LoopySubscription.receive
  split
  · exact ⟨l, h⟩
  · split
    · exact ⟨l, h⟩
    · next n hhead =>
      dsimp only
      split
      · -- the head is taken, and with the last entry the tail
        obtain ⟨l, rfl⟩ : ∃ l', l = n :: l' := by
          have hchain := h.chain.head
          rw [hhead] at hchain
          exact List.head?_eq_some_iff.mp hchain.symm
        have hlen := h.len
        rw [List.length_cons] at hlen
        refine ⟨l, h.chain.tail, ?_, ?_, fun k hk => h.below k (List.mem_cons_of_mem n hk)⟩
        · dsimp only
          split
          · exact .inl rfl
          · next hnext =>
            have hne : l ≠ [] := fun hnil => hnext (h.chain.tail.eq_none_iff.mpr hnil)
            obtain ⟨k, l, rfl⟩ := List.exists_cons_of_ne_nil hne
            rw [← List.getLast?_cons_cons (a := n)]
            exact h.tail
        · dsimp only
          omega
      · exact ⟨l, h⟩

theorem Hangs.ack (h : Hangs sub l) (sequence : ℕ) : ∃ l', Hangs (sub.ack sequence).2 l' := by
  by_cases hmanual : sub.config.ackMode = .manual
  · cases hfind : sub.find sequence with
    | none =>
      rw [LoopySubscription.ack_not_found hmanual hfind]
      exact ⟨l, h⟩
    | some found =>
      obtain ⟨before, n⟩ := found
      have hfuel : l.length < sub.allocated + 1 := Nat.lt_succ_of_le (h.chain.length_le h.below)
      obtain ⟨l₁, l₂, rfl, rfl⟩ := findLink_found h.chain hfuel hfind
      obtain ⟨htail, hlen, hallocated, -⟩ := sub.unlink_frame l₁.getLast? n
      have hle := h.len
      rw [List.length_append, List.length_cons] at hle
      rw [LoopySubscription.ack_found hmanual hfind, htail, hlen]
      refine ⟨l₁ ++ l₂, sub.unlink_chain h.chain, ?_, ?_, fun k hk => ?_⟩
      · dsimp only
        split
        · exact .inl rfl
        · next hne =>
          refine h.tail.imp_right fun heq => ?_
          rw [heq, List.getLast?_append, List.getLast?_append]
          cases l₂ with
          | nil =>
            rw [heq, List.getLast?_append] at hne
            exact absurd rfl hne
          | cons k l => rw [List.getLast?_cons_cons]
      · rw [List.length_append]
        dsimp only
        omega
      · refine (h.below k ?_).trans_eq hallocated.symm
        rcases List.mem_append.mp hk with hk | hk
        · exact List.mem_append_left _ hk
        · exact List.mem_append_right _ (List.mem_cons_of_mem n hk)
  · rw [LoopySubscription.ack_refuses hmanual]
    exact ⟨l, h⟩

theorem LoopySubscription.receive_counts (sub : LoopySubscription) :
    sub.receive.2.queueLen ≤ sub.queueLen ∧ sub.receive.2.config = sub.config := by
  unfold receive
  split
  · exact ⟨Nat.le_refl _, rfl⟩
  · split
    · exact ⟨Nat.le_refl _, rfl⟩
    · dsimp only
      split
      · exact ⟨Nat.sub_le _ 1, rfl⟩
      · exact ⟨Nat.le_refl _, rfl⟩

theorem LoopySubscription.ack_counts (sub : LoopySubscription) (sequence : ℕ) :
    (sub.ack sequence).2.queueLen ≤ sub.queueLen ∧ (sub.ack sequence).2.config = sub.config := by
  unfold ack
  split
  · exact ⟨Nat.le_refl _, rfl⟩
  · split
    · exact ⟨Nat.le_refl _, rfl⟩
    · next before n hfind =>
      obtain ⟨-, hlen, -, hconfig⟩ := sub.unlink_frame before n
      exact ⟨hlen ▸ Nat.sub_le _ 1, hconfig⟩

end list

/-! ## Runs -/

/-- Every publication that found the queue full is counted. -/
def Counted (s : BoundedQueue) : Prop := ∀ p ∈ s.publications, p.full = true → p.counted = true

structure QueueInv (config : LoopySubscriptionConfig) (s : BoundedQueue) : Prop where
  configured : s.sub.config = config
  list : ∃ l, Hangs s.sub l
  pending : Counted s → s.sub.queueLen ≤ config.queueSize
  dropped : s.messagesDropped = s.publications.countP (·.counted) % 2 ^ 64

section runs

variable {config : LoopySubscriptionConfig} {s s' : BoundedQueue}

theorem counted_append (s : BoundedQueue) (p : Publication) :
    (∀ q ∈ s.publications ++ [p], q.full = true → q.counted = true) ↔
      Counted s ∧ (p.full = true → p.counted = true) := by
  simp [Counted, or_imp, forall_and]

theorem increment_mod (n : ℕ) : increment (n % 2 ^ 64) = (n + 1) % 2 ^ 64 := by
  unfold increment
  omega

/-- What a publication does: it is dropped, it is appended, or there is no memory for it. -/
theorem BoundedQueue.publish_cases (hqueue : s.sub.config.deliveryMode = .queue)
    (message : LoopyMessage) (alloc : Bool) :
    (s.sub.drops = true ∧ s.publish message alloc =
      { s with
        messagesDropped := increment s.messagesDropped
        publications := s.publications ++ [{ full := s.sub.full, counted := true }] }) ∨
    (s.sub.drops = false ∧ alloc = true ∧ s.publish message alloc =
      { s with
        sub := s.sub.enqueue message
        messagesReceived := increment s.messagesReceived
        publications := s.publications ++ [{ full := s.sub.full, counted := false }] }) ∨
    (s.sub.drops = false ∧ s.publish message alloc =
      { s with publications := s.publications ++ [{ full := s.sub.full, counted := false }] }) := by
  unfold publish LoopySubscription.publish
  rw [hqueue]
  dsimp only
  cases hdrops : s.sub.drops with
  | true => exact .inl ⟨rfl, rfl⟩
  | false =>
    rw [if_neg Bool.false_ne_true]
    cases alloc with
    | true => exact .inr (.inl ⟨rfl, rfl, rfl⟩)
    | false => exact .inr (.inr ⟨rfl, rfl⟩)

theorem LoopySubscription.drops_eq (sub : LoopySubscription) :
    sub.drops = (sub.full && sub.config.dropOnFull) := rfl

/-- A message that is appended had room, or it found the queue full and is not counted. -/
theorem QueueInv.publish (h : QueueInv config s) (hqueue : config.deliveryMode = .queue)
    (hsize : 0 < config.queueSize) (message : LoopyMessage) (alloc : Bool) :
    QueueInv config (s.publish message alloc) := by
  have hmode : s.sub.config.deliveryMode = .queue := by rw [h.configured, hqueue]
  have hcount (counted : Bool) :
      List.countP (·.counted) (s.publications ++ [(⟨s.sub.full, counted⟩ : Publication)]) =
        s.publications.countP (·.counted) + if counted then 1 else 0 := by
    rw [List.countP_append, List.countP_singleton]
  rcases s.publish_cases hmode message alloc with ⟨-, heq⟩ | ⟨-, -, heq⟩ | ⟨-, heq⟩
  · rw [heq]
    refine ⟨h.configured, h.list, fun hcounted => ?_, ?_⟩
    · exact h.pending ((counted_append s _).mp hcounted).1
    · show increment s.messagesDropped = _
      rw [hcount, h.dropped, increment_mod]
      rfl
  · rw [heq]
    obtain ⟨l, hl⟩ := h.list
    refine ⟨(s.sub.config_enqueue message).trans h.configured, hl.enqueue message,
      fun hcounted => ?_, ?_⟩
    · obtain ⟨hbefore, hnot⟩ := (counted_append s _).mp hcounted
      have hroom : ¬ s.sub.full = true := fun hfull => Bool.false_ne_true (hnot hfull)
      rw [LoopySubscription.full, h.configured, Bool.and_eq_true, decide_eq_true_eq,
        decide_eq_true_eq] at hroom
      have hlen := (s.sub.enqueue_counts message).1
      dsimp only
      omega
    · show s.messagesDropped = _
      rw [hcount, h.dropped]
      rfl
  · rw [heq]
    refine ⟨h.configured, h.list, fun hcounted => ?_, ?_⟩
    · exact h.pending ((counted_append s _).mp hcounted).1
    · show s.messagesDropped = _
      rw [hcount, h.dropped]
      rfl

theorem QueueInv.step {a : QueueSection} (hqueue : config.deliveryMode = .queue)
    (hsize : 0 < config.queueSize) (h : QueueInv config s) (hstep : s.step a = some s') :
    QueueInv config s' := by
  obtain ⟨l, hl⟩ := h.list
  cases a with
  | publish message alloc =>
    cases hstep
    exact h.publish hqueue hsize message alloc
  | receive =>
    cases hstep
    obtain ⟨hlen, hconfig⟩ := s.sub.receive_counts
    exact ⟨hconfig.trans h.configured, hl.receive, fun hc => hlen.trans (h.pending hc), h.dropped⟩
  | ack sequence =>
    cases hstep
    obtain ⟨hlen, hconfig⟩ := s.sub.ack_counts sequence
    exact ⟨hconfig.trans h.configured, hl.ack sequence, fun hc => hlen.trans (h.pending hc),
      h.dropped⟩

/-- A section leaves every publication counted exactly if it is roomy. -/
theorem counted_step {a : QueueSection} (hqueue : config.deliveryMode = .queue)
    (hsize : 0 < config.queueSize) (h : QueueInv config s) (hcounted : Counted s)
    (hstep : s.step a = some s') : Counted s' ↔ Roomy s a := by
  cases a with
  | receive =>
    cases hstep
    exact iff_of_true hcounted trivial
  | ack sequence =>
    cases hstep
    exact iff_of_true hcounted trivial
  | publish message alloc =>
    cases hstep
    have hmode : s.sub.config.deliveryMode = .queue := by rw [h.configured, hqueue]
    have hfull : s.sub.full = true ↔ ¬ s.sub.queueLen < s.sub.config.queueSize := by
      rw [LoopySubscription.full, Bool.and_eq_true, decide_eq_true_eq, decide_eq_true_eq, h.configured]
      omega
    -- what is appended is counted only if it was not dropped
    have hnot (hdrops : s.sub.drops = false) :
        (s.sub.full = true → false = true) ↔ Roomy s (.publish message alloc) := by
      rw [LoopySubscription.drops_eq] at hdrops
      show _ ↔ s.sub.config.dropOnFull = true ∨ s.sub.queueLen < s.sub.config.queueSize
      cases hf : s.sub.full with
      | true =>
        rw [hf, Bool.true_and] at hdrops
        have hlen := hfull.mp hf
        simp [hdrops, hlen]
      | false =>
        have hroom : s.sub.queueLen < s.sub.config.queueSize := by
          by_contra hlen
          exact Bool.false_ne_true (hf ▸ hfull.mpr hlen)
        exact iff_of_true nofun (.inr hroom)
    rcases s.publish_cases hmode message alloc with ⟨hdrops, heq⟩ | ⟨hdrops, -, heq⟩ | ⟨hdrops, heq⟩
    · rw [heq, LoopySubscription.drops_eq, Bool.and_eq_true] at *
      refine iff_of_true ?_ (.inl hdrops.2)
      exact (counted_append s _).mpr ⟨hcounted, fun _ => rfl⟩
    · rw [heq, ← hnot hdrops]
      exact (counted_append s _).trans (and_iff_right hcounted)
    · rw [heq, ← hnot hdrops]
      exact (counted_append s _).trans (and_iff_right hcounted)

/-- Publications are not taken back. -/
theorem counted_of_step {a : QueueSection} (hstep : s.step a = some s') (hcounted : Counted s') :
    Counted s := by
  cases a with
  | receive =>
    cases hstep
    exact hcounted
  | ack sequence =>
    cases hstep
    exact hcounted
  | publish message alloc =>
    cases hstep
    unfold BoundedQueue.publish at hcounted
    split at hcounted
    · exact ((counted_append s _).mp hcounted).1
    · split at hcounted
      · exact ((counted_append s _).mp hcounted).1
      · exact ((counted_append s _).mp hcounted).1
    · exact hcounted

theorem QueueInv.new (pattern : CString) (config : LoopySubscriptionConfig) :
    QueueInv config (.new pattern config) :=
  ⟨rfl, ⟨[], .nil, .inl rfl, Nat.le_refl 0, nofun⟩, fun _ => Nat.zero_le _, rfl⟩

theorem QueueInv.law_iff (h : QueueInv config s) : BoundLaw s ↔ Counted s := by
  refine ⟨fun hlaw => hlaw.met, fun hcounted => ⟨?_, ?_, hcounted, h.dropped⟩⟩
  · rw [h.configured]
    exact h.pending hcounted
  · obtain ⟨l, hl⟩ := h.list
    rw [hl.queue_eq]
    exact hl.len

/-- **The bound is kept exactly in the runs without a publication that finds the queue full though
nothing is to be dropped.** -/
theorem queue_bounded (pattern : CString) (config : LoopySubscriptionConfig)
    (hqueue : config.deliveryMode = .queue) (hsize : 0 < config.queueSize)
    (sections : List QueueSection) (s : BoundedQueue)
    (hrun : Run BoundedQueue.step (fun _ _ => True) (.new pattern config) sections s) :
    BoundLaw s ↔ Run BoundedQueue.step Roomy (.new pattern config) sections s := by
  have hinv : QueueInv config s :=
    hrun.invariant (P := QueueInv config) (fun _ _ _ h _ hstep => h.step hqueue hsize hstep)
      (.new pattern config)
  rw [hinv.law_iff]
  exact hrun.clean_iff (fun _ _ _ h hstep => h.step hqueue hsize hstep)
    (fun _ _ _ h hcounted hstep => counted_step hqueue hsize h hcounted hstep)
    (fun _ _ _ hstep hcounted => counted_of_step hstep hcounted) (.new pattern config) nofun

end runs

/-- A queue of at most two messages; what finds it full is to wait. -/
def waitingConfig : LoopySubscriptionConfig :=
  { deliveryMode := .queue, ackMode := .manual, queueSize := 2, dropOnFull := false }

/-- A message. -/
def numbered (sequence : ℕ) : LoopyMessage :=
  { topic := [116], data := [1], len := 1, timestamp := 0, sequence, publisherData := 0 }

/-- Two publications, an ack of the first of them, and one more; there is no memory for the last. -/
def roomyRun : List QueueSection :=
  [.publish (numbered 2) true, .publish (numbered 1) true, .ack 2, .receive,
    .publish (numbered 3) true, .ack 3, .publish (numbered 4) false]

theorem queue_bounded_roomyRun :
    ∃ s, Run BoundedQueue.step (fun _ _ => True) (.new [116] waitingConfig) roomyRun s ∧
      BoundLaw s ∧ s.publications.length = 4 := by
  have hexec : (exec BoundedQueue.step Roomy (.new [116] waitingConfig) roomyRun).map
      (fun s => s.publications.length) = some 4 := by decide +kernel
  obtain ⟨s, hroomy, hlength⟩ := Run.of_exec_map hexec
  have hrun : Run BoundedQueue.step (fun _ _ => True) (.new [116] waitingConfig) roomyRun s :=
    hroomy.mono fun _ _ _ => trivial
  exact ⟨s, hrun, (queue_bounded [116] waitingConfig rfl Nat.two_pos roomyRun s hrun).mpr hroomy,
    hlength⟩

/-- A third message is appended to a queue of at most two, and counted nowhere. -/
theorem queue_overflows :
    ∃ s, Run BoundedQueue.step (fun _ _ => True) (.new [116] waitingConfig)
        [.publish (numbered 1) true, .publish (numbered 2) true, .publish (numbered 3) true] s ∧
      s.sub.queueLen = 3 ∧ s.messagesDropped = 0 ∧ ¬ BoundLaw s := by
  have hexec : (exec BoundedQueue.step (fun _ _ => True) (.new [116] waitingConfig)
      [.publish (numbered 1) true, .publish (numbered 2) true, .publish (numbered 3) true]).map
      (fun s => (s.sub.queueLen, s.sub.config.queueSize, s.messagesDropped)) = some (3, 2, 0) := by
    decide +kernel
  obtain ⟨s, hs, hval⟩ := Run.of_exec_map hexec
  obtain ⟨hlen, hval⟩ := Prod.mk.inj hval
  obtain ⟨hsize, hdropped⟩ := Prod.mk.inj hval
  refine ⟨s, hs, hlen, hdropped, fun hlaw => ?_⟩
  have hpending := hlaw.pending
  omega

end Loopy.PubSub
