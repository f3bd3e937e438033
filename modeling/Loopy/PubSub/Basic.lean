import Loopy.Lib.Chain

/-!
# `loopyPubSub.c`: subscriptions and their queues

A subscription with the linked list of its queue. The `loopyMessageEntry`s of a subscription are
numbered in the order of their allocation and no number is used twice; allocation succeeds.
Callbacks are not modelled: they see a message and change nothing here. The statistics of a
subscription and its mutex are left out, so is `acked`, which nobody reads.
-/

namespace Loopy.PubSub

open Loopy.Lib

/-- The bytes of a C string. -/
abbrev CString := List UInt8

/-- `loopyDeliveryMode`. -/
inductive LoopyDeliveryMode
  | sync
  | async
  | queue
deriving DecidableEq, Repr

/-- `loopyAckMode`. -/
inductive LoopyAckMode
  | none
  | auto
  | manual
deriving DecidableEq, Repr

/-- `loopyMessage`. -/
structure LoopyMessage where
  topic : CString
  data : List UInt8
  len : ℕ
  timestamp : ℕ
  sequence : ℕ
  publisherData : ℕ
deriving DecidableEq, Repr

/-- A `loopyMessage` that `loopySubscriptionReceive` has filled in. `topic` and `data` point into
the message entry, and to nothing (`none`) once that is freed. -/
structure Received where
  topic : Option CString
  data : Option (List UInt8)
  len : ℕ
  timestamp : ℕ
  sequence : ℕ
  publisherData : ℕ
deriving DecidableEq, Repr

/-- The fields of a message entry, copied. -/
def LoopyMessage.received (message : LoopyMessage) : Received :=
  { topic := some message.topic
    data := some message.data
    len := message.len
    timestamp := message.timestamp
    sequence := message.sequence
    publisherData := message.publisherData }

/-- What `messageEntryFree` leaves of the copy. -/
def Received.freed (message : Received) : Received := { message with topic := none, data := none }

/-- `loopyMessageEntry`. -/
structure LoopyMessageEntry where
  next : Option ℕ
  message : LoopyMessage
deriving DecidableEq, Repr

/-- `loopySubscriptionConfig`. -/
structure LoopySubscriptionConfig where
  deliveryMode : LoopyDeliveryMode
  ackMode : LoopyAckMode
  queueSize : ℕ
  dropOnFull : Bool
deriving DecidableEq, Repr

/-- The configuration of a subscription without one. -/
def defaultConfig : LoopySubscriptionConfig :=
  { deliveryMode := .sync, ackMode := .auto, queueSize := 1024, dropOnFull := true }

/-- `loopySubscription`, with its message entries and how many were allocated. -/
structure LoopySubscription where
  pattern : CString
  config : LoopySubscriptionConfig
  queueHead : Option ℕ
  queueTail : Option ℕ
  queueLen : ℕ
  entry : ℕ → LoopyMessageEntry
  allocated : ℕ
  nextSamePattern : Option ℕ

/-- What `zcalloc` leaves in memory. -/
def LoopyMessageEntry.zero : LoopyMessageEntry :=
  { next := none
    message :=
      { topic := [], data := [], len := 0, timestamp := 0, sequence := 0, publisherData := 0 } }

/-- A new subscription. -/
def LoopySubscription.new (pattern : CString) (config : LoopySubscriptionConfig) :
    LoopySubscription :=
  { pattern
    config
    queueHead := none
    queueTail := none
    queueLen := 0
    entry := fun _ => .zero
    allocated := 0
    nextSamePattern := none }

/-- The link of an entry. -/
def LoopySubscription.next (sub : LoopySubscription) (n : ℕ) : Option ℕ := (sub.entry n).next

/-- A write to the link of an entry. -/
def LoopySubscription.setNext (sub : LoopySubscription) (n : ℕ) (p : Option ℕ) :
    LoopySubscription :=
  { sub with entry := Function.update sub.entry n { sub.entry n with next := p } }

/-- What a publication has come to at one subscription. -/
inductive Delivery
  | delivered
  | dropped
  /-- No branch takes the message. -/
  | neither
deriving DecidableEq, Repr

namespace LoopySubscription

/-- The message does not fit and is to be dropped. -/
def drops (sub : LoopySubscription) : Bool :=
  decide (sub.config.queueSize > 0) && decide (sub.queueLen ≥ sub.config.queueSize) &&
    sub.config.dropOnFull

/-- A new entry at the tail. -/
def enqueue (sub : LoopySubscription) (message : LoopyMessage) :
    LoopySubscription :=
  let n := sub.allocated
  let sub :=
    { sub with entry := Function.update sub.entry n { next := none, message }, allocated := n + 1 }
  let sub :=
    match sub.queueTail with
    | some tail => sub.setNext tail (some n)
    | none => { sub with queueHead := some n }
  { sub with queueTail := some n, queueLen := sub.queueLen + 1 }

/-- The body of the loop of `publishToPattern`. -/
def publish (sub : LoopySubscription) (message : LoopyMessage) :
    Delivery × LoopySubscription :=
  match sub.config.deliveryMode with
  | .sync => (.delivered, sub)
  | .queue => if sub.drops then (.dropped, sub) else (.delivered, sub.enqueue message)
  | .async => (.neither, sub)

/-- `loopySubscriptionReceive`. -/
def receive (sub : LoopySubscription) :
    Option Received × LoopySubscription :=
  if sub.config.deliveryMode ≠ .queue then (none, sub)
  else
    match sub.queueHead with
    | none => (none, sub)
    | some n =>
      let message := (sub.entry n).message.received
      if sub.config.ackMode ≠ .manual then
        -- the entry that `topic` and `data` point into is freed
        (some message.freed,
          { sub with
            queueHead := sub.next n
            queueTail := if sub.next n = none then none else sub.queueTail
            queueLen := sub.queueLen - 1 })
      -- the message stays at the head until it is acked
      else (some message, sub)

/-- The loop of `loopySubscriptionAck` visits each allocated entry at most once. -/
def find (sub : LoopySubscription) (sequence : ℕ) :
    Option (Option ℕ × ℕ) :=
  findLink sub.next (fun n => decide ((sub.entry n).message.sequence = sequence))
    (sub.allocated + 1) none sub.queueHead

/-- `*pp = entry->next`, where `pp` is the link of the entry before or the head. -/
def unlink (sub : LoopySubscription) (before : Option ℕ) (n : ℕ) :
    LoopySubscription :=
  match before with
  | none => { sub with queueHead := sub.next n }
  | some m => sub.setNext m (sub.next n)

/-- `loopySubscriptionAck`. -/
def ack (sub : LoopySubscription) (sequence : ℕ) : Bool × LoopySubscription :=
  if sub.config.ackMode ≠ .manual then (false, sub)
  else
    match sub.find sequence with
    | none => (false, sub)
    | some (before, n) =>
      let sub := sub.unlink before n
      (true,
        { sub with
          -- also when there are entries before this one
          queueTail := if sub.queueTail = some n then none else sub.queueTail
          queueLen := sub.queueLen - 1 })

/-- `loopySubscriptionNack`. -/
def nack (sub : LoopySubscription) (_sequence : ℕ) : Bool × LoopySubscription :=
  (true, sub)

end LoopySubscription

end Loopy.PubSub
