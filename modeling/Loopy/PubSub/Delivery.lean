import Loopy.PubSub.Registry
import Loopy.PubSub.Queue

/-!
# `loopyPubSub.c`: publication

A hub with its subscriptions, publications, receives and acks. `matched pattern topic` says
whether `raxTopicMatch` calls its callback for a pattern; it does so once for each bound one, in
an order of its own. Callbacks do not call the hub.

A `LOOPY_DELIVER_ASYNC` subscription takes no branch of `publishToPattern`: the message is neither
delivered nor dropped there (`delivery_accounts`).
-/

namespace Loopy.PubSub

open Loopy.Lib

/-! ## Publication -/

/-- What `publishContext` counts; `log` is what the message has come to at every subscription. -/
structure PublishContext where
  delivered : ℕ
  dropped : ℕ
  log : List (ℕ × Delivery)
deriving DecidableEq, Repr

def PublishContext.record (ctx : PublishContext) (n : ℕ) (delivery : Delivery) : PublishContext :=
  let ctx := { ctx with log := ctx.log ++ [(n, delivery)] }
  match delivery with
  | .delivered => { ctx with delivered := ctx.delivered + 1 }
  | .dropped => { ctx with dropped := ctx.dropped + 1 }
  | .neither => ctx

/-- A write to a subscription. -/
def LoopyPubSub.setSub (ps : LoopyPubSub) (n : ℕ) (sub : LoopySubscription) : LoopyPubSub :=
  { ps with sub := Function.update ps.sub n sub }

/-- The loop of `publishToPattern`. -/
def publishLoop (message : LoopyMessage) :
    ℕ → Option ℕ → PublishContext × LoopyPubSub → PublishContext × LoopyPubSub
  | 0, _, s => s
  | _ + 1, none, s => s
  | fuel + 1, some n, (ctx, ps) =>
    let (delivery, sub) := (ps.sub n).publish message
    let ps := ps.setSub n sub
    publishLoop message fuel (ps.nextSamePattern n) (ctx.record n delivery, ps)

/-- `publishToPattern`: each subscription is in the list at most once. -/
def publishToPattern (message : LoopyMessage) (s : PublishContext × LoopyPubSub)
    (pattern : CString) : PublishContext × LoopyPubSub :=
  publishLoop message s.2.allocated (s.2.topics.value pattern).subscriptions s

/-- `atomic_fetch_add` on `uint64_t`. -/
def fetchAdd (counter amount : ℕ) : ℕ := (counter + amount) % 2 ^ 64

/-- `loopyPublishEx`; it returns `delivered`. -/
def LoopyPubSub.publishEx (ps : LoopyPubSub) (order : List CString) (topic : CString)
    (data : List UInt8) (len timestamp publisherData : ℕ) : PublishContext × LoopyPubSub :=
  let sequence := nextSequence ps.sequence
  let message := { topic, data, len, timestamp, sequence, publisherData }
  let (ctx, ps) := order.foldl (publishToPattern message)
    ({ delivered := 0, dropped := 0, log := [] }, { ps with sequence })
  if ps.enableStats then
    (ctx,
      { ps with
        messagesPublished := fetchAdd ps.messagesPublished 1
        messagesDelivered := fetchAdd ps.messagesDelivered ctx.delivered
        messagesDropped := fetchAdd ps.messagesDropped ctx.dropped
        bytesPublished := fetchAdd ps.bytesPublished len
        bytesDelivered := fetchAdd ps.bytesDelivered (len * ctx.delivered % 2 ^ 64) })
  else (ctx, ps)

/-- `loopyMatchCount`. -/
def LoopyPubSub.matchCount (ps : LoopyPubSub) (order : List CString) : ℕ :=
  order.foldl (fun total pattern => total + (ps.topics.value pattern).count) 0

/-! ## The machine -/

/-- The calls of a hub. -/
inductive HubCall
  | subscribe (pattern : CString) (config : Option LoopySubscriptionConfig) (luck : Luck)
  | unsubscribe (n : ℕ)
  | publish (order : List CString) (topic : CString) (data : List UInt8) (len timestamp : ℕ)
    (publisherData : ℕ)
  | receive (n : ℕ)
  | ack (n sequence : ℕ)
deriving DecidableEq, Repr

/-- The answers. -/
inductive HubAnswer
  | subscribed (n : Option ℕ)
  | unsubscribed (found : Bool)
  | published (ctx : PublishContext) (len : ℕ)
  | received (message : Option Received)
  | acked (found : Bool)
deriving DecidableEq, Repr

/-- One call. -/
def LoopyPubSub.step (ps : LoopyPubSub) : HubCall → HubAnswer × LoopyPubSub
  | .subscribe pattern config luck =>
    let (n, ps) := ps.subscribe pattern config luck
    (.subscribed n, ps)
  | .unsubscribe n =>
    let (found, ps) := ps.unsubscribe n
    (.unsubscribed found, ps)
  | .publish order topic data len timestamp publisherData =>
    let (ctx, ps) := ps.publishEx order topic data len timestamp publisherData
    (.published ctx len, ps)
  | .receive n =>
    let (message, sub) := (ps.sub n).receive
    (.received message, ps.setSub n sub)
  | .ack n sequence =>
    let (found, sub) := (ps.sub n).ack sequence
    (.acked found, ps.setSub n sub)

/-- Every bound pattern that matches, once. -/
def RaxTopic.Matches (topics : RaxTopic) (matched : CString → CString → Bool) (topic : CString)
    (order : List CString) : Prop :=
  order.Nodup ∧ (∀ pattern ∈ order, pattern ∈ topics.bound ∧ matched pattern topic = true) ∧
    ∀ pattern ∈ topics.bound, matched pattern topic = true → pattern ∈ order

/-- Calls are for live subscriptions, and `raxTopicMatch` does its work. -/
def HubAdmitted (matched : CString → CString → Bool) (ps : LoopyPubSub) : HubCall → Prop
  | .subscribe .. => True
  | .publish order topic _ _ _ _ => ps.topics.Matches matched topic order
  | .unsubscribe n | .receive n | .ack n _ => n ∈ ps.live

/-! ## The accounts -/

/-- The message has come to one delivery or drop at every matching subscription and nowhere else;
what is returned and what is dropped make up the match count. -/
structure AccountLaw (matched : CString → CString → Bool) (ps : LoopyPubSub) (topic : CString)
    (ctx : PublishContext) (matchCount : ℕ) : Prop where
  once : ∀ n ∈ ps.live, matched (ps.sub n).pattern topic = true →
    (ctx.log.filter fun x => decide (x.1 = n ∧ x.2 ≠ .neither)).length = 1
  nowhere : ∀ x ∈ ctx.log, x.1 ∈ ps.live ∧ matched (ps.sub x.1).pattern topic = true
  total : ctx.delivered + ctx.dropped = matchCount

/-- What a call has delivered. -/
def HubAnswer.delivered : HubAnswer → ℕ
  | .published ctx _ => ctx.delivered
  | _ => 0

/-- What a call has dropped. -/
def HubAnswer.dropped : HubAnswer → ℕ
  | .published ctx _ => ctx.dropped
  | _ => 0

/-- The bytes that a call has delivered. -/
def HubAnswer.bytes : HubAnswer → ℕ
  | .published ctx len => len * ctx.delivered
  | _ => 0

/-- The `uint64_t` statistics are sums over the calls. -/
structure StatsLaw (ps : LoopyPubSub) (answers : List HubAnswer) : Prop where
  messagesDelivered : ps.messagesDelivered = (answers.map HubAnswer.delivered).sum % 2 ^ 64
  messagesDropped : ps.messagesDropped = (answers.map HubAnswer.dropped).sum % 2 ^ 64
  bytesDelivered : ps.bytesDelivered = (answers.map HubAnswer.bytes).sum % 2 ^ 64

/-! ## A publication visits the matching subscriptions -/

/-- What a publication leaves alone. -/
structure Frame (ps ps' : LoopyPubSub) : Prop where
  topics : ps'.topics = ps.topics
  allocated : ps'.allocated = ps.allocated
  live : ps'.live = ps.live
  patternCount : ps'.patternCount = ps.patternCount
  subscriptionCount : ps'.subscriptionCount = ps.subscriptionCount
  next : ∀ n, ps'.nextSamePattern n = ps.nextSamePattern n
  pattern : ∀ n, (ps'.sub n).pattern = (ps.sub n).pattern
  config : ∀ n, (ps'.sub n).config = (ps.sub n).config
  enableStats : ps'.enableStats = ps.enableStats

/-- A hub has its own frame. -/
theorem Frame.refl (ps : LoopyPubSub) : Frame ps ps :=
  ⟨rfl, rfl, rfl, rfl, rfl, fun _ => rfl, fun _ => rfl, fun _ => rfl, rfl⟩

variable {ps ps' ps'' : LoopyPubSub} {lists : CString → List ℕ}
  {matched : CString → CString → Bool}

/-- Two calls that keep the frame keep it together. -/
theorem Frame.trans (h : Frame ps ps') (h' : Frame ps' ps'') : Frame ps ps'' where
  topics := h'.topics.trans h.topics
  allocated := h'.allocated.trans h.allocated
  live := h'.live.trans h.live
  patternCount := h'.patternCount.trans h.patternCount
  subscriptionCount := h'.subscriptionCount.trans h.subscriptionCount
  next := fun n => (h'.next n).trans (h.next n)
  pattern := fun n => (h'.pattern n).trans (h.pattern n)
  config := fun n => (h'.config n).trans (h.config n)
  enableStats := h'.enableStats.trans h.enableStats

/-- The registry does not see it. -/
theorem Registered.frame (h : Registered ps lists) (hf : Frame ps ps') : Registered ps' lists where
  chain := by
    intro p hp
    rw [hf.topics] at hp ⊢
    exact (h.chain p hp).congr fun n _ => hf.next n
  count := by
    rw [hf.topics]
    exact h.count
  nonempty := by
    rw [hf.topics]
    exact h.nonempty
  mem := by
    intro p hp n
    rw [hf.topics] at hp
    rw [hf.live, hf.pattern]
    exact h.mem p hp n
  bound := by
    intro n hn
    rw [hf.live] at hn
    rw [hf.topics, hf.pattern]
    exact h.bound n hn
  below := by
    intro n hn
    rw [hf.live] at hn
    rw [hf.allocated]
    exact h.below n hn
  patternCount := by rw [hf.patternCount, hf.topics, h.patternCount]
  subscriptionCount := by rw [hf.subscriptionCount, hf.live, h.subscriptionCount]

/-- A write to a subscription that keeps its pattern, its configuration and its link. -/
theorem Frame.setSub {n : ℕ} {sub : LoopySubscription}
    (hpattern : sub.pattern = (ps.sub n).pattern) (hconfig : sub.config = (ps.sub n).config)
    (hnext : sub.nextSamePattern = (ps.sub n).nextSamePattern) : Frame ps (ps.setSub n sub) := by
  refine ⟨rfl, rfl, rfl, rfl, rfl, fun k => ?_, fun k => ?_, fun k => ?_, rfl⟩
  all_goals
    by_cases hk : k = n
    · subst hk
      simpa [LoopyPubSub.setSub, LoopyPubSub.nextSamePattern]
    · simp [LoopyPubSub.setSub, LoopyPubSub.nextSamePattern, hk]

/-- The fields that calls on a subscription leave alone. -/
structure SameSub (sub sub' : LoopySubscription) : Prop where
  pattern : sub'.pattern = sub.pattern
  config : sub'.config = sub.config
  next : sub'.nextSamePattern = sub.nextSamePattern

/-- A subscription that keeps its place and pattern keeps the frame. -/
theorem SameSub.frame {n : ℕ} {sub : LoopySubscription} (h : SameSub (ps.sub n) sub) :
    Frame ps (ps.setSub n sub) := Frame.setSub h.pattern h.config h.next

/-- A delivery leaves the place and the pattern. -/
theorem LoopySubscription.publish_same (sub : LoopySubscription) (message : LoopyMessage) :
    SameSub sub (sub.publish message).2 := by
  unfold publish
  split
  · exact ⟨rfl, rfl, rfl⟩
  · split
    · exact ⟨rfl, rfl, rfl⟩
    · unfold enqueue
      dsimp only
      split <;> exact ⟨rfl, rfl, rfl⟩
  · exact ⟨rfl, rfl, rfl⟩

/-- So does receiving. -/
theorem LoopySubscription.receive_same (sub : LoopySubscription) : SameSub sub sub.receive.2 := by
  unfold receive
  split
  · exact ⟨rfl, rfl, rfl⟩
  · split
    · exact ⟨rfl, rfl, rfl⟩
    · dsimp only
      split <;> exact ⟨rfl, rfl, rfl⟩

/-- So does an ack. -/
theorem LoopySubscription.ack_same (sub : LoopySubscription) (sequence : ℕ) :
    SameSub sub (sub.ack sequence).2 := by
  unfold ack
  split
  · exact ⟨rfl, rfl, rfl⟩
  · split
    · exact ⟨rfl, rfl, rfl⟩
    · next before n _ => cases before <;> exact ⟨rfl, rfl, rfl⟩

/-- Only an asynchronous subscription does nothing with a message. -/
theorem LoopySubscription.publish_eq_neither (sub : LoopySubscription) (message : LoopyMessage) :
    (sub.publish message).1 = .neither ↔ sub.config.deliveryMode = .async := by
  unfold publish
  split
  · next hmode => simp [hmode]
  · next hmode =>
    rw [hmode]
    split <;> simp
  · next hmode => simp [hmode]

/-- The counters count the log. -/
def PublishContext.Counted (ctx : PublishContext) : Prop :=
  ctx.delivered = ctx.log.countP (fun x => decide (x.2 = .delivered)) ∧
    ctx.dropped = ctx.log.countP (fun x => decide (x.2 = .dropped))

/-- Every delivery is counted once. -/
theorem PublishContext.Counted.record {ctx : PublishContext} (h : ctx.Counted) (n : ℕ)
    (delivery : Delivery) : (ctx.record n delivery).Counted := by
  obtain ⟨hdelivered, hdropped⟩ := h
  unfold PublishContext.Counted PublishContext.record
  cases delivery <;> simp [List.countP_append, hdelivered, hdropped]

/-- It is logged at the end. -/
theorem PublishContext.log_record (ctx : PublishContext) (n : ℕ) (delivery : Delivery) :
    (ctx.record n delivery).log = ctx.log ++ [(n, delivery)] := by
  unfold record
  cases delivery <;> rfl

/-- The message was offered to the subscriptions `l`, in this order. -/
structure Offered (s s' : PublishContext × LoopyPubSub) (l : List ℕ) : Prop where
  frame : Frame s.2 s'.2
  log : ∃ news : List (ℕ × Delivery), s'.1.log = s.1.log ++ news ∧ news.map Prod.fst = l ∧
    ∀ x ∈ news, x.2 = .neither ↔ (s.2.sub x.1).config.deliveryMode = .async
  counted : s.1.Counted → s'.1.Counted

/-- Nothing has been offered yet. -/
theorem Offered.refl (s : PublishContext × LoopyPubSub) : Offered s s [] :=
  ⟨.refl s.2, ⟨[], (List.append_nil _).symm, rfl, nofun⟩, id⟩

variable {s : PublishContext × LoopyPubSub} {order : List CString} {topic : CString}

/-- What is offered in turn is offered in that order. -/
theorem Offered.trans {s' s'' : PublishContext × LoopyPubSub} {l l' : List ℕ} (h : Offered s s' l)
    (h' : Offered s' s'' l') : Offered s s'' (l ++ l') := by
  obtain ⟨news, hlog, hmap, hmode⟩ := h.log
  obtain ⟨news', hlog', hmap', hmode'⟩ := h'.log
  refine ⟨h.frame.trans h'.frame, ⟨news ++ news', ?_, ?_, ?_⟩, fun hc => h'.counted (h.counted hc)⟩
  · rw [hlog', hlog, List.append_assoc]
  · rw [List.map_append, hmap, hmap']
  · intro x hx
    rcases List.mem_append.mp hx with hx | hx
    · exact hmode x hx
    · rw [hmode' x hx, h.frame.config]

/-- One subscription. -/
theorem Offered.one (message : LoopyMessage) (ctx : PublishContext) (ps : LoopyPubSub) (n : ℕ) :
    Offered (ctx, ps) (ctx.record n ((ps.sub n).publish message).1,
      ps.setSub n ((ps.sub n).publish message).2) [n] := by
  refine ⟨((ps.sub n).publish_same message).frame, ⟨[_], ctx.log_record n _, rfl, ?_⟩,
    fun hc => hc.record n _⟩
  intro x hx
  rw [List.mem_singleton.mp hx]
  exact (ps.sub n).publish_eq_neither message

/-- One subscription of a pattern, and then the rest. -/
theorem publishLoop_some (message : LoopyMessage) (fuel n : ℕ) (ctx : PublishContext)
    (ps : LoopyPubSub) :
    publishLoop message (fuel + 1) (some n) (ctx, ps) =
      publishLoop message fuel ((ps.setSub n ((ps.sub n).publish message).2).nextSamePattern n)
        (ctx.record n ((ps.sub n).publish message).1,
          ps.setSub n ((ps.sub n).publish message).2) := rfl

/-- The loop offers the message to the subscriptions of the list. -/
theorem publishLoop_offers (message : LoopyMessage) {l : List ℕ} {p : Option ℕ} {fuel : ℕ}
    (ctx : PublishContext) (ps : LoopyPubSub) (h : Chain ps.nextSamePattern p l)
    (hfuel : l.length ≤ fuel) :
    Offered (ctx, ps) (publishLoop message fuel p (ctx, ps)) l := by
  -- on the list that the links make up; a publication does not change them
  induction l generalizing p fuel ctx ps with
  | nil =>
    rw [h.eq_none_iff.mpr rfl]
    cases fuel <;> exact .refl _
  | cons n l ih =>
    cases fuel with
    | zero => simp at hfuel
    | succ fuel =>
      have hone := Offered.one message ctx ps n
      -- the links are what they were
      have hnext := hone.frame.next
      dsimp only at hnext
      rw [h.1, publishLoop_some, hnext n]
      exact hone.trans (ih _ _ (h.tail.congr fun k _ => hnext k) (Nat.le_of_succ_le_succ hfuel))

namespace Registered

/-- Each entry of a consistent registry is offered to its subscriptions. -/
theorem publishToPattern (message : LoopyMessage) (h : Registered s.2 lists)
    {pattern : CString} (hp : pattern ∈ s.2.topics.bound) :
    Offered s (publishToPattern message s pattern) (lists pattern) :=
  publishLoop_offers message s.1 s.2 (h.chain pattern hp) (h.length_le hp)

/-- Every pattern is offered to its own subscriptions. -/
theorem foldl_publish (message : LoopyMessage) (h : Registered s.2 lists)
    (horder : ∀ p ∈ order, p ∈ s.2.topics.bound) :
    Offered s (order.foldl (PubSub.publishToPattern message) s) (order.flatMap lists) := by
  induction order generalizing s with
  | nil => exact .refl s
  | cons p order ih =>
    have hone := h.publishToPattern message (horder p List.mem_cons_self)
    refine hone.trans (ih (h.frame hone.frame) fun q hq => ?_)
    rw [hone.frame.topics]
    exact horder q (List.mem_cons_of_mem p hq)

/-- A publication offers its message to the subscriptions of the patterns that it visits. -/
theorem publishEx (h : Registered ps lists) (horder : ∀ p ∈ order, p ∈ ps.topics.bound)
    (topic : CString) (data : List UInt8) (len timestamp publisherData : ℕ) :
    Offered ({ delivered := 0, dropped := 0, log := [] }, ps)
      (ps.publishEx order topic data len timestamp publisherData) (order.flatMap lists) := by
  have hframe : Frame ps { ps with sequence := nextSequence ps.sequence } :=
    ⟨rfl, rfl, rfl, rfl, rfl, fun _ => rfl, fun _ => rfl, fun _ => rfl, rfl⟩
  have hfold := (h.frame hframe).foldl_publish
    { topic, data, len, timestamp, sequence := nextSequence ps.sequence, publisherData }
    (s := ({ delivered := 0, dropped := 0, log := [] }, _)) horder
  obtain ⟨hkeep, ⟨news, hlog, hmap, hmode⟩, hcounted⟩ := hfold
  unfold LoopyPubSub.publishEx
  dsimp only
  split
  · refine ⟨(hframe.trans hkeep).trans ?_, ⟨news, hlog, hmap, hmode⟩, hcounted⟩
    exact ⟨rfl, rfl, rfl, rfl, rfl, fun _ => rfl, fun _ => rfl, fun _ => rfl, rfl⟩
  · exact ⟨hframe.trans hkeep, ⟨news, hlog, hmap, hmode⟩, hcounted⟩

/-! ## The accounts balance -/

/-- **The offers are to the live subscriptions whose pattern matches.**. -/
theorem mem_flatMap (h : Registered ps lists)
    (horder : ps.topics.Matches matched topic order) (n : ℕ) :
    n ∈ order.flatMap lists ↔ n ∈ ps.live ∧ matched (ps.sub n).pattern topic = true := by
  rw [List.mem_flatMap]
  constructor
  · rintro ⟨p, hp, hn⟩
    obtain ⟨hpb, hmatched⟩ := horder.2.1 p hp
    obtain ⟨hlive, rfl⟩ := (h.mem p hpb n).mp hn
    exact ⟨hlive, hmatched⟩
  · rintro ⟨hlive, hmatched⟩
    have hpb := h.bound n hlive
    exact ⟨_, horder.2.2 _ hpb hmatched, (h.mem _ hpb n).mpr ⟨hlive, rfl⟩⟩

/-- No one is offered the message twice. -/
theorem flatMap_nodup (h : Registered ps lists) (hnodup : order.Nodup)
    (horder : ∀ p ∈ order, p ∈ ps.topics.bound) : (order.flatMap lists).Nodup := by
  rw [List.nodup_flatMap]
  refine ⟨fun p hp => (h.chain p (horder p hp)).nodup, ?_⟩
  refine hnodup.imp_of_mem fun hp hq hne n hn hn' => hne ?_
  rw [← ((h.mem _ (horder _ hp) n).mp hn).2, ← ((h.mem _ (horder _ hq) n).mp hn').2]

/-- The match count is the number of matching subscriptions. -/
theorem matchCount_eq (h : Registered ps lists)
    (horder : ∀ p ∈ order, p ∈ ps.topics.bound) :
    ps.matchCount order = (order.flatMap lists).length := by
  have hfold : ∀ total, order.foldl (fun total p => total + (ps.topics.value p).count) total =
      total + (order.flatMap lists).length := by
    induction order with
    | nil => exact fun total => rfl
    | cons p order ih =>
      intro total
      rw [List.foldl_cons, ih fun q hq => horder q (List.mem_cons_of_mem p hq),
        h.count p (horder p List.mem_cons_self), List.flatMap_cons, List.length_append,
        Nat.add_assoc]
  rw [LoopyPubSub.matchCount, hfold, Nat.zero_add]

/-- In whatever order the patterns are visited. -/
theorem matchCount_eq_card (h : Registered ps lists)
    (horder : ps.topics.Matches matched topic order) :
    ps.matchCount order =
      (ps.live.filter fun n => matched (ps.sub n).pattern topic = true).card := by
  have hbound : ∀ p ∈ order, p ∈ ps.topics.bound := fun p hp => (horder.2.1 p hp).1
  have hset : (order.flatMap lists).toFinset =
      ps.live.filter fun n => matched (ps.sub n).pattern topic = true := by
    ext n
    rw [List.mem_toFinset, h.mem_flatMap horder, Finset.mem_filter]
  rw [h.matchCount_eq hbound, ← hset,
    List.toFinset_card_of_nodup (h.flatMap_nodup horder.1 hbound)]

end Registered

/-- Every entry of a log is a delivery or a drop, unless it is neither. -/
theorem countP_delivery (log : List (ℕ × Delivery)) (h : ∀ x ∈ log, x.2 ≠ .neither) :
    log.countP (fun x => decide (x.2 = .delivered)) +
      log.countP (fun x => decide (x.2 = .dropped)) = log.length := by
  induction log with
  | nil => rfl
  | cons x log ih =>
    have hrest := ih fun y hy => h y (List.mem_cons_of_mem x hy)
    have hx := h x List.mem_cons_self
    rw [List.countP_cons, List.countP_cons, List.length_cons]
    cases hd : x.2 with
    | delivered =>
      simp only [decide_true, if_true, reduceCtorEq, decide_false, Bool.false_eq_true, if_false]
      omega
    | dropped =>
      simp only [decide_true, if_true, reduceCtorEq, decide_false, Bool.false_eq_true, if_false]
      omega
    | neither => exact absurd hd hx

/-- The message is delivered or dropped once at every matching subscription exactly if none of
these is asynchronous. -/
theorem Registered.account_iff (h : Registered ps lists) {order' : List CString}
    (horder : ps.topics.Matches matched topic order)
    (horder' : ps.topics.Matches matched topic order') (data : List UInt8)
    (len timestamp publisherData : ℕ) :
    AccountLaw matched ps topic (ps.publishEx order topic data len timestamp publisherData).1
        (ps.matchCount order') ↔
      ∀ n ∈ ps.live, matched (ps.sub n).pattern topic = true →
        (ps.sub n).config.deliveryMode ≠ .async := by
  have hbound : ∀ p ∈ order, p ∈ ps.topics.bound := fun p hp => (horder.2.1 p hp).1
  have hoffered := h.publishEx hbound topic data len timestamp publisherData
  obtain ⟨hdelivered, hdropped⟩ := hoffered.counted ⟨rfl, rfl⟩
  obtain ⟨log, hlog, hmap, hmode⟩ := hoffered.log
  generalize (ps.publishEx order topic data len timestamp publisherData).1 = ctx at *
  rw [List.nil_append] at hlog
  rw [← hlog] at hmap hmode
  have hmem : ∀ x ∈ ctx.log, x.1 ∈ ps.live ∧ matched (ps.sub x.1).pattern topic = true := by
    intro x hx
    rw [← h.mem_flatMap horder, ← hmap]
    exact List.mem_map_of_mem hx
  constructor
  · intro hlaw n hn hmatched hasync
    have hone := hlaw.once n hn hmatched
    -- what the log says of an asynchronous subscription is neither
    obtain ⟨x, hx⟩ := List.length_pos_iff_exists_mem.mp (hone.symm ▸ Nat.one_pos)
    obtain ⟨hxlog, hxn⟩ := List.mem_filter.mp hx
    obtain ⟨rfl, hxd⟩ := of_decide_eq_true hxn
    exact hxd ((hmode x hxlog).mpr hasync)
  · intro hsync
    have hsome : ∀ x ∈ ctx.log, x.2 ≠ .neither := by
      intro x hx hneither
      exact hsync x.1 (hmem x hx).1 (hmem x hx).2 ((hmode x hx).mp hneither)
    refine ⟨fun n hn hmatched => ?_, hmem, ?_⟩
    · -- the subscription is in the log once
      have hcount : (ctx.log.map Prod.fst).count n = 1 := by
        rw [hmap]
        exact List.count_eq_one_of_mem (h.flatMap_nodup horder.1 hbound)
          ((h.mem_flatMap horder n).mpr ⟨hn, hmatched⟩)
      -- nothing in the log is neither
      have hfilter : (ctx.log.filter fun x => decide (x.1 = n ∧ x.2 ≠ .neither)) =
          ctx.log.filter fun x => decide (x.1 = n) := by
        refine List.filter_congr fun x hx => ?_
        simp [hsome x hx]
      rw [hfilter, ← List.countP_eq_length_filter, ← hcount, List.count, List.countP_map]
      rfl
    · rw [hdelivered, hdropped, countP_delivery _ hsome, h.matchCount_eq_card horder',
        ← h.matchCount_eq_card horder, h.matchCount_eq hbound, ← hmap, List.length_map]

/-! ## The statistics -/

/-- The statistics are what they were. -/
structure SameStats (ps ps' : LoopyPubSub) : Prop where
  enableStats : ps'.enableStats = ps.enableStats
  messagesDelivered : ps'.messagesDelivered = ps.messagesDelivered
  messagesDropped : ps'.messagesDropped = ps.messagesDropped
  bytesDelivered : ps'.bytesDelivered = ps.bytesDelivered

theorem SameStats.refl (ps : LoopyPubSub) : SameStats ps ps := ⟨rfl, rfl, rfl, rfl⟩

theorem SameStats.trans (h : SameStats ps ps') (h' : SameStats ps' ps'') : SameStats ps ps'' :=
  ⟨h'.1.trans h.1, h'.2.trans h.2, h'.3.trans h.3, h'.4.trans h.4⟩

/-- Subscribing publishes nothing. -/
theorem LoopyPubSub.subscribe_stats (ps : LoopyPubSub) (pattern : CString)
    (config : Option LoopySubscriptionConfig) (luck : Luck) :
    SameStats ps (ps.subscribe pattern config luck).2 := by
  unfold subscribe
  dsimp only
  repeat' split
  all_goals exact ⟨rfl, rfl, rfl, rfl⟩

theorem LoopyPubSub.unlink_stats (ps : LoopyPubSub) (pattern : CString)
    (entry : LoopyPatternEntry) (before : Option ℕ) (n : ℕ) :
    SameStats ps (ps.unlink pattern entry before n).2 := by
  cases before <;> exact ⟨rfl, rfl, rfl, rfl⟩

/-- Neither does unsubscribing. -/
theorem LoopyPubSub.unsubscribe_stats (ps : LoopyPubSub) (n : ℕ) :
    SameStats ps (ps.unsubscribe n).2 := by
  unfold unsubscribe
  dsimp only
  split
  · exact .refl ps
  · next entry _ =>
    split
    · next before _ _ =>
      refine (ps.unlink_stats (ps.sub n).pattern entry before n).trans ?_
      split <;> exact ⟨rfl, rfl, rfl, rfl⟩
    · split <;> exact ⟨rfl, rfl, rfl, rfl⟩

/-- The loop leaves the totals to its context. -/
theorem publishLoop_stats (message : LoopyMessage) (fuel : ℕ) (p : Option ℕ)
    (s : PublishContext × LoopyPubSub) : SameStats s.2 (publishLoop message fuel p s).2 := by
  induction fuel generalizing p s with
  | zero => exact .refl s.2
  | succ fuel ih =>
    cases p with
    | none => exact .refl s.2
    | some n =>
      have hone : SameStats s.2 (s.2.setSub n ((s.2.sub n).publish message).2) :=
        ⟨rfl, rfl, rfl, rfl⟩
      rw [publishLoop_some]
      exact hone.trans (ih _ (_, _))

/-- So do the patterns together. -/
theorem foldl_publish_stats (message : LoopyMessage) (order : List CString)
    (s : PublishContext × LoopyPubSub) :
    SameStats s.2 (order.foldl (publishToPattern message) s).2 := by
  induction order generalizing s with
  | nil => exact .refl s.2
  | cons p order ih => exact (publishLoop_stats message _ _ s).trans (ih _)

/-- A publication adds what its context says. -/
structure AddsStats (ps ps' : LoopyPubSub) (ctx : PublishContext) (len : ℕ) : Prop where
  enableStats : ps'.enableStats = true
  messagesDelivered : ps'.messagesDelivered = (ps.messagesDelivered + ctx.delivered) % 2 ^ 64
  messagesDropped : ps'.messagesDropped = (ps.messagesDropped + ctx.dropped) % 2 ^ 64
  bytesDelivered : ps'.bytesDelivered = (ps.bytesDelivered + len * ctx.delivered) % 2 ^ 64

/-- A publish adds what its context has counted. -/
theorem LoopyPubSub.publishEx_stats (hstats : ps.enableStats = true) (order : List CString)
    (topic : CString) (data : List UInt8) (len timestamp publisherData : ℕ) :
    AddsStats ps (ps.publishEx order topic data len timestamp publisherData).2
      (ps.publishEx order topic data len timestamp publisherData).1 len := by
  have hfold := foldl_publish_stats
    { topic, data, len, timestamp, sequence := nextSequence ps.sequence, publisherData } order
    ({ delivered := 0, dropped := 0, log := [] },
      { ps with sequence := nextSequence ps.sequence })
  obtain ⟨henable, hdelivered, hdropped, hbytes⟩ := hfold
  dsimp only at henable hdelivered hdropped hbytes
  unfold publishEx
  dsimp only
  rw [if_pos (henable.trans hstats)]
  refine ⟨henable.trans hstats, ?_, ?_, ?_⟩
  · simp only [fetchAdd, hdelivered]
  · simp only [fetchAdd, hdropped]
  · simp only [fetchAdd, hbytes, Nat.add_mod_mod]

/-- What a call answers is what it adds to the statistics. -/
structure CallStats (ps : LoopyPubSub) (answer : HubAnswer) (ps' : LoopyPubSub) : Prop where
  enableStats : ps'.enableStats = true
  messagesDelivered : ps'.messagesDelivered = (ps.messagesDelivered + answer.delivered) % 2 ^ 64
  messagesDropped : ps'.messagesDropped = (ps.messagesDropped + answer.dropped) % 2 ^ 64
  bytesDelivered : ps'.bytesDelivered = (ps.bytesDelivered + answer.bytes) % 2 ^ 64

/-- The statistics are on and in their range. -/
structure StatsOn (ps : LoopyPubSub) : Prop where
  enableStats : ps.enableStats = true
  messagesDelivered : ps.messagesDelivered < 2 ^ 64
  messagesDropped : ps.messagesDropped < 2 ^ 64
  bytesDelivered : ps.bytesDelivered < 2 ^ 64

/-- A call that is no publication adds nothing. -/
theorem StatsOn.same (h : StatsOn ps) {answer : HubAnswer} (hs : SameStats ps ps')
    (hdelivered : answer.delivered = 0) (hdropped : answer.dropped = 0)
    (hbytes : answer.bytes = 0) : CallStats ps answer ps' := by
  refine ⟨hs.enableStats.trans h.enableStats, ?_, ?_, ?_⟩
  · rw [hs.messagesDelivered, hdelivered, Nat.add_zero, Nat.mod_eq_of_lt h.messagesDelivered]
  · rw [hs.messagesDropped, hdropped, Nat.add_zero, Nat.mod_eq_of_lt h.messagesDropped]
  · rw [hs.bytesDelivered, hbytes, Nat.add_zero, Nat.mod_eq_of_lt h.bytesDelivered]

/-- Each call adds to the totals what it did. -/
theorem StatsOn.step (h : StatsOn ps) (c : HubCall) :
    CallStats ps (ps.step c).1 (ps.step c).2 := by
  cases c with
  | subscribe pattern config luck =>
    exact h.same (ps.subscribe_stats pattern config luck) rfl rfl rfl
  | unsubscribe n => exact h.same (ps.unsubscribe_stats n) rfl rfl rfl
  | publish order topic data len timestamp publisherData =>
    obtain ⟨h1, h2, h3, h4⟩ :=
      LoopyPubSub.publishEx_stats h.enableStats order topic data len timestamp publisherData
    exact ⟨h1, h2, h3, h4⟩
  | receive n => exact h.same ⟨rfl, rfl, rfl, rfl⟩ rfl rfl rfl
  | ack n sequence => exact h.same ⟨rfl, rfl, rfl, rfl⟩ rfl rfl rfl

/-- The statistics stay switched on. -/
theorem CallStats.on {answer : HubAnswer} (h : CallStats ps answer ps') : StatsOn ps' := by
  have hpos : 0 < 2 ^ 64 := Nat.two_pow_pos 64
  refine ⟨h.enableStats, ?_, ?_, ?_⟩
  · rw [h.messagesDelivered]
    exact Nat.mod_lt _ hpos
  · rw [h.messagesDropped]
    exact Nat.mod_lt _ hpos
  · rw [h.bytesDelivered]
    exact Nat.mod_lt _ hpos

/-- Over a run the statistics are sums. -/
theorem stats_sum {ok : LoopyPubSub → HubCall → Prop} (maxSubscriptions : ℕ)
    (calls : List HubCall) (hok : Along LoopyPubSub.step ok (.new maxSubscriptions true) calls) :
    StatsLaw (after LoopyPubSub.step (.new maxSubscriptions true) calls)
      (outputs LoopyPubSub.step (.new maxSubscriptions true) calls) := by
  have hpos : 0 < 2 ^ 64 := Nat.two_pow_pos 64
  have hon : StatsOn (.new maxSubscriptions true) := ⟨rfl, hpos, hpos, hpos⟩
  have hP : ∀ ps c, StatsOn ps → ok ps c → StatsOn (ps.step c).2 := fun ps c h _ => (h.step c).on
  refine ⟨?_, ?_, ?_⟩
  · rw [counter_along hP (fun ps c h _ => (h.step c).messagesDelivered) calls hon hpos hok]
    exact congrArg (· % 2 ^ 64) (Nat.zero_add _)
  · rw [counter_along hP (fun ps c h _ => (h.step c).messagesDropped) calls hon hpos hok]
    exact congrArg (· % 2 ^ 64) (Nat.zero_add _)
  · rw [counter_along hP (fun ps c h _ => (h.step c).bytesDelivered) calls hon hpos hok]
    exact congrArg (· % 2 ^ 64) (Nat.zero_add _)

/-! ## Runs of a hub -/

/-- The registry stays sound under every call. -/
theorem Registered.hubStep {c : HubCall} (h : ∃ lists, Registered ps lists)
    (hok : HubAdmitted matched ps c) : ∃ lists, Registered (ps.step c).2 lists := by
  obtain ⟨lists, h⟩ := h
  cases c with
  | subscribe pattern config luck => exact h.subscribe pattern config luck
  | unsubscribe n => exact h.unsubscribe hok
  | publish order topic data len timestamp publisherData =>
    have hoffered := h.publishEx (fun p hp => (hok.2.1 p hp).1) topic data len timestamp
      publisherData
    exact ⟨lists, h.frame hoffered.frame⟩
  | receive n => exact ⟨lists, h.frame (ps.sub n).receive_same.frame⟩
  | ack n sequence => exact ⟨lists, h.frame ((ps.sub n).ack_same sequence).frame⟩

/-- **The accounts of a hub.** After every run, a publication is delivered or dropped exactly once
at every matching subscription, and what it returns and drops is the match count, if and only if
no matching subscription is asynchronous; and the statistics are sums over the publications. -/
theorem delivery_accounts (matched : CString → CString → Bool) (maxSubscriptions : ℕ)
    (enableStats : Bool) (calls : List HubCall) (ps : LoopyPubSub)
    (hps : ps = after LoopyPubSub.step (.new maxSubscriptions enableStats) calls)
    (hok : Along LoopyPubSub.step (HubAdmitted matched) (.new maxSubscriptions enableStats) calls) :
    (∀ topic order order' data len timestamp publisherData,
      ps.topics.Matches matched topic order → ps.topics.Matches matched topic order' →
        (AccountLaw matched ps topic
            (ps.publishEx order topic data len timestamp publisherData).1
            (ps.matchCount order') ↔
          ∀ n ∈ ps.live, matched (ps.sub n).pattern topic = true →
            (ps.sub n).config.deliveryMode ≠ .async)) ∧
      (enableStats = true →
        StatsLaw ps (outputs LoopyPubSub.step (.new maxSubscriptions enableStats) calls)) := by
  subst hps
  constructor
  · intro topic order order' data len timestamp publisherData horder horder'
    obtain ⟨lists, h⟩ := invariant_along (P := fun ps => ∃ lists, Registered ps lists)
      (fun _ _ h hok => Registered.hubStep h hok) calls ⟨_, .new maxSubscriptions enableStats⟩ hok
    exact h.account_iff horder horder' data len timestamp publisherData
  · rintro rfl
    exact stats_sum maxSubscriptions calls hok

/-- Patterns match the topics that they are equal to, and `#` matches all. -/
def exactOrAll (pattern topic : CString) : Bool := decide (pattern = topic) || decide (pattern = [35])

/-- A subscription of each of two modes, one of them with a short queue, under two patterns. -/
def hubCalls : List HubCall :=
  [.subscribe [97] none goodLuck,
    .subscribe [35] (some { manualConfig with queueSize := 1 }) goodLuck,
    .publish [[97], [35]] [97] [1, 2, 3] 3 10 0, .publish [[35], [97]] [97] [4, 5] 2 11 0,
    .receive 1, .ack 1 1, .publish [[35]] [98] [6] 1 12 0, .unsubscribe 0]

instance (matched : CString → CString → Bool) (ps : LoopyPubSub) :
    ∀ c, Decidable (HubAdmitted matched ps c)
  | .subscribe .. => isTrue trivial
  | .publish .. =>
    inferInstanceAs (Decidable (_ ∧ _))
  | .unsubscribe n | .receive n | .ack n _ => inferInstanceAs (Decidable (n ∈ ps.live))

theorem delivery_accounts_hubCalls :
    ∃ ps, ps = after LoopyPubSub.step (.new 0 true) hubCalls ∧
      (∀ topic order order' data len timestamp publisherData,
        ps.topics.Matches exactOrAll topic order → ps.topics.Matches exactOrAll topic order' →
          (AccountLaw exactOrAll ps topic
              (ps.publishEx order topic data len timestamp publisherData).1
              (ps.matchCount order') ↔
            ∀ n ∈ ps.live, exactOrAll (ps.sub n).pattern topic = true →
              (ps.sub n).config.deliveryMode ≠ .async)) ∧
        (true = true → StatsLaw ps (outputs LoopyPubSub.step (.new 0 true) hubCalls)) :=
  ⟨_, rfl, delivery_accounts exactOrAll 0 true hubCalls _ rfl (by decide +kernel)⟩

/-- One asynchronous subscription: a publication returns 0, drops nothing and matches one. -/
theorem async_message_lost :
    ¬ ∀ calls, Along LoopyPubSub.step (HubAdmitted exactOrAll) (.new 0 true) calls →
      ∀ topic order,
        (after LoopyPubSub.step (.new 0 true) calls).topics.Matches exactOrAll topic order →
        AccountLaw exactOrAll (after LoopyPubSub.step (.new 0 true) calls) topic
          ((after LoopyPubSub.step (.new 0 true) calls).publishEx order topic [1] 1 10 0).1
          ((after LoopyPubSub.step (.new 0 true) calls).matchCount order) := by
  intro hall
  have hlaw := hall [.subscribe [97] (some { defaultConfig with deliveryMode := .async }) goodLuck]
    (by decide +kernel) [97] [[97]] (by unfold RaxTopic.Matches; decide +kernel)
  have htotal := hlaw.total
  revert htotal
  decide +kernel

end Loopy.PubSub
