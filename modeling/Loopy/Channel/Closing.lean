import Loopy.Channel.Mutex

/-!
# Closing an SPSC channel

The producer running `loopyChannelSend` or `loopyChannelTrySend`, the consumer running
`loopyChannelRecv` and a thread that calls `loopyChannelClose`, on a blocking SPSC channel. An
attempt to send or receive is a run of the ring's machine; around the attempts stand the loads
of `closed`. A deadline may have passed at any moment.

A receive that finds the ring empty loads `closed` in a later step, so an element can be
accepted in between, or by a send that loaded `closed` before it was set. `NoLateSend` excludes
both.
-/

namespace Loopy.Channel

open Loopy.Lib

variable {α : Type}

/-- Where the producer is, outside the attempts; `blocking` is a `loopyChannelSend`. -/
inductive SendPc (α : Type)
  | idle
  | attempt (data : α) (len : ℕ) (blocking : Bool)
  | failed (data : α) (len : ℕ) (blocking : Bool)
deriving DecidableEq, Repr

/-- Where the consumer is in `loopyChannelRecv`, outside the attempts. -/
inductive RecvPc
  | idle
  | attempt (bufLen : ℕ)
  | empty (bufLen : ℕ)
deriving DecidableEq, Repr

/-- An SPSC channel and its threads. `closedReturned`: a receive has decided to return
`CLOSED`. -/
structure Closing (α : Type) where
  ring : Spsc α
  closed : Bool
  sender : SendPc α
  receiver : RecvPc
  closedReturned : Bool

/-- A new channel. -/
def Closing.fresh (α : Type) (capacity elementSize : ℕ) : Closing α :=
  { ring := .fresh α capacity elementSize
    closed := false
    sender := .idle
    receiver := .idle
    closedReturned := false }

/-- The actions: those of the ring, the loads and the store of `closed`, and returns. -/
inductive ClosingAction (α : Type)
  | send (data : α) (len : ℕ) (blocking : Bool)
  | producer (a : ProducerAction α)
  | sendLoadClosed (timedOut : Bool)
  | sendFull
  | recv (bufLen : ℕ)
  | consumer (a : ConsumerAction)
  | recvLoadClosed (timedOut : Bool)
  | close
deriving DecidableEq, Repr

/-- An attempt calls `spscTrySend` with the arguments of the send. -/
def ofAttempt (data : α) (len : ℕ) : ProducerAction α → ProducerAction α
  | .send _ _ => .send data len
  | a => a

/-- Where the sender is after an action of its attempt. -/
def afterProducer (ring : Spsc α) (data : α) (len : ℕ) (blocking : Bool) :
    ProducerAction α → SendPc α
  | .storeHead => .idle
  | _ =>
    match ring.producer with
    | .idle => .failed data len blocking
    | _ => .attempt data len blocking

/-- An attempt calls `spscTryRecv` with the buffer of the receive. -/
def ofRecv (bufLen : ℕ) : ConsumerAction → ConsumerAction
  | .recv _ => .recv bufLen
  | a => a

/-- Where the receiver is after an action of its attempt. -/
def afterConsumer (ring : Spsc α) (bufLen : ℕ) : ConsumerAction → RecvPc
  | .storeTail => .idle
  | .recv _ =>
    -- a short buffer is `INVALID`
    match ring.consumer with
    | .idle => .idle
    | _ => .attempt bufLen
  | _ =>
    match ring.consumer with
    | .idle => .empty bufLen
    | _ => .attempt bufLen

/-- One action. -/
def closingStep (m : Closing α) (a : ClosingAction α) : Option (Closing α) :=
  match a, m.sender, m.receiver with
  | .send data len blocking, .idle, _ =>
    -- the first load of `closed`
    if m.closed then some m else some { m with sender := .attempt data len blocking }
  | .producer a, .attempt data len blocking, _ =>
    (producerStep m.ring (ofAttempt data len a)).map fun ring =>
      { m with ring, sender := afterProducer ring data len blocking a }
  | .sendLoadClosed timedOut, .failed data len true, _ =>
    if m.closed ∨ timedOut then some { m with sender := .idle }
    else some { m with sender := .attempt data len true }
  | .sendFull, .failed _ _ false, _ => some { m with sender := .idle }
  | .recv bufLen, _, .idle => some { m with receiver := .attempt bufLen }
  | .consumer a, _, .attempt bufLen =>
    (consumerStep m.ring (ofRecv bufLen a)).map fun ring =>
      { m with ring, receiver := afterConsumer ring bufLen a }
  | .recvLoadClosed timedOut, _, .empty bufLen =>
    if m.closed then some { m with receiver := .idle, closedReturned := true }
    else if timedOut then some { m with receiver := .idle }
    else some { m with receiver := .attempt bufLen }
  | .close, _, _ => some { m with closed := true }
  | _, _, _ => none

/-! ## Drained -/

/-- The sender may still be accepted: it is in an attempt with an element of the right length. -/
def SendPc.canSend (elementSize : ℕ) : SendPc α → Bool
  | .attempt _ len _ => len = elementSize
  | _ => false

/-- No send that could still be accepted is under way. -/
def Closing.NoSend (m : Closing α) : Prop := m.sender.canSend m.ring.spsc.elementSize = false

/-- The receiver's load of `closed` does not race with a send: if it reads true, the ring is
still empty, and no send that loaded `closed` earlier can still be accepted. -/
def NoLateSend (m : Closing α) : ClosingAction α → Prop
  | .recvLoadClosed _ => m.closed = true → spscIsEmpty m.ring.spsc = true ∧ m.NoSend
  | _ => True

instance (m : Closing α) : ∀ a, Decidable (NoLateSend m a)
  | .recvLoadClosed _ => inferInstanceAs (Decidable (m.closed = true →
      spscIsEmpty m.ring.spsc = true ∧ m.sender.canSend m.ring.spsc.elementSize = false))
  | .send .. | .producer _ | .sendLoadClosed _ | .sendFull | .recv _ | .consumer _ | .close =>
    isTrue trivial

/-- The invariant. `quiet`: outside an attempt with an element of the right length the ring's
producer is at rest. -/
structure ClosingInv (m : Closing α) : Prop where
  ring : SpscInv m.ring
  quiet : m.NoSend → m.ring.producer = .idle
  drained : m.closedReturned = true → m.closed = true ∧
    m.ring.sent.length = m.ring.received.length ∧ m.NoSend

variable {ring ring' : Spsc α} {data : α} {len : ℕ} {a : ProducerAction α} {m : Closing α}

/-- A producer at rest does nothing with an element of the wrong length. -/
theorem producerStep_wrong_length (hidle : ring.producer = .idle)
    (hlen : len ≠ ring.spsc.elementSize)
    (hstep : producerStep ring (ofAttempt data len a) = some ring') :
    ring' = ring ∧ a ≠ .storeHead := by
  cases a with
  | send d l =>
    simp only [producerStep, ofAttempt, hidle, if_pos hlen, Option.some.injEq] at hstep
    exact ⟨hstep.symm, nofun⟩
  | _ => simp [producerStep, ofAttempt, hidle] at hstep

/-- After an attempt the producer is at rest. -/
theorem afterProducer_idle (blocking : Bool)
    (hstep : producerStep ring (ofAttempt data len a) = some ring')
    (hafter : afterProducer ring' data len blocking a ≠ .attempt data len blocking) :
    ring'.producer = .idle := by
  by_cases hstore : a = .storeHead
  · subst hstore
    simp only [ofAttempt, producerStep] at hstep
    split at hstep
    all_goals first | contradiction | (cases hstep; rfl)
  · by_contra hbusy
    refine hafter ?_
    unfold afterProducer
    split
    · exact absurd rfl hstore
    · split
      · contradiction
      · rfl

/-- A consumer of a drained ring receives nothing. -/
theorem consumerStep_drained {a : ConsumerAction} (h : SpscInv ring)
    (hlength : ring.sent.length = ring.received.length) (hstep : consumerStep ring a = some ring') :
    ring'.received = ring.received := by
  have hconsumer := h.consumer
  unfold consumerStep at hstep
  dsimp only at hstep
  split at hstep
  case h_7 tail data hc =>
    rw [hc] at hconsumer
    obtain ⟨_, ⟨n, _, hge, hle⟩, _⟩ := hconsumer
    omega
  all_goals first | (split at hstep <;> cases hstep <;> rfl) | (cases hstep <;> rfl)

theorem SpscInv.length_eq {m : Spsc α} (h : SpscInv m) (hempty : spscIsEmpty m.spsc = true) :
    m.sent.length = m.received.length := by
  have hne := h.ring.tail_ne_iff h.ring.received_le le_rfl
  have hrec := h.ring.received_le
  have heq : m.spsc.head = m.spsc.tail := by simpa [spscIsEmpty] using hempty
  rw [← h.ring.head_eq, heq] at hne
  have := mt hne.mpr (not_not.mpr rfl)
  omega

/-- A send is over, or an element of the wrong length is to be sent. -/
theorem ClosingInv.noSend {sender : SendPc α} (h : ClosingInv m) (hidle : m.ring.producer = .idle)
    (hnone : sender.canSend m.ring.spsc.elementSize = false) : ClosingInv { m with sender } := by
  refine ⟨h.ring, fun _ => hidle, fun hreturned => ?_⟩
  obtain ⟨hclosed, hlength, _⟩ := h.drained hreturned
  exact ⟨hclosed, hlength, hnone⟩

/-- Before the channel is closed a send may begin. -/
theorem ClosingInv.attempt {sender : SendPc α} (h : ClosingInv m)
    (hidle : m.ring.producer = .idle) (hopen : ¬ m.closed = true) : ClosingInv { m with sender } :=
  ⟨h.ring, fun _ => hidle, fun hreturned => absurd (h.drained hreturned).1 hopen⟩

theorem ClosingInv.producer {blocking : Bool} (h : ClosingInv m)
    (hs : m.sender = .attempt data len blocking)
    (hstep : producerStep m.ring (ofAttempt data len a) = some ring) :
    ClosingInv { m with ring, sender := afterProducer ring data len blocking a } := by
  obtain ⟨_, hsize, _, _⟩ := producerStep_frame hstep
  by_cases hlen : len = m.ring.spsc.elementSize
  · refine ⟨h.ring.producerStep hstep, fun hnone => ?_, fun hreturned => ?_⟩
    · refine afterProducer_idle blocking hstep fun he => ?_
      have hcan : (afterProducer ring data len blocking a).canSend ring.spsc.elementSize = false :=
        hnone
      rw [he, hsize] at hcan
      exact of_decide_eq_false hcan hlen
    · obtain ⟨_, _, hnone⟩ := h.drained hreturned
      rw [Closing.NoSend, hs] at hnone
      exact absurd hlen (of_decide_eq_false hnone)
  · -- an element of the wrong length: the attempt fails at once
    have hnone : m.NoSend := by
      rw [Closing.NoSend, hs]
      exact decide_eq_false hlen
    have hidle := h.quiet hnone
    obtain ⟨rfl, hstore⟩ := producerStep_wrong_length hidle hlen hstep
    have hfailed : afterProducer m.ring data len blocking a = .failed data len blocking := by
      unfold afterProducer
      split
      · exact absurd rfl hstore
      · rw [hidle]
    rw [hfailed]
    exact h.noSend hidle rfl

theorem ClosingInv.consumer {a : ConsumerAction} {receiver : RecvPc} (h : ClosingInv m)
    (hstep : consumerStep m.ring a = some ring) : ClosingInv { m with ring, receiver } := by
  obtain ⟨_, hsize, hsent, hproducer⟩ := consumerStep_frame hstep
  have hnosend : Closing.NoSend { m with ring, receiver } ↔ m.NoSend := by
    simp only [Closing.NoSend, hsize]
  refine ⟨h.ring.consumerStep hstep, fun hnone => ?_, fun hreturned => ?_⟩
  · exact hproducer.trans (h.quiet (hnosend.mp hnone))
  · obtain ⟨hclosed, hlength, hnone⟩ := h.drained hreturned
    have hreceived := consumerStep_drained h.ring hlength hstep
    refine ⟨hclosed, ?_, hnosend.mpr hnone⟩
    show ring.sent.length = ring.received.length
    rw [hsent, hreceived]
    exact hlength

theorem ClosingInv.step {m' : Closing α} {a : ClosingAction α} (h : ClosingInv m)
    (hok : NoLateSend m a) (hstep : closingStep m a = some m') : ClosingInv m' := by
  unfold closingStep at hstep
  split at hstep
  · next data len blocking hs =>
    have hidle : m.ring.producer = .idle := h.quiet (by rw [Closing.NoSend, hs]; rfl)
    by_cases hclosed : m.closed = true
    · rw [if_pos hclosed] at hstep
      cases hstep
      exact h
    · rw [if_neg hclosed] at hstep
      cases hstep
      exact h.attempt hidle hclosed
  · next a data len blocking hs =>
    obtain ⟨ring, hring, rfl⟩ := Option.map_eq_some_iff.mp hstep
    exact h.producer hs hring
  · next timedOut data len hs =>
    -- the loop of `loopyChannelSend` loads `closed` again
    have hidle : m.ring.producer = .idle := h.quiet (by rw [Closing.NoSend, hs]; rfl)
    by_cases hclosed : m.closed = true ∨ timedOut = true
    · rw [if_pos hclosed] at hstep
      cases hstep
      exact h.noSend hidle rfl
    · rw [if_neg hclosed] at hstep
      cases hstep
      exact h.attempt hidle (mt Or.inl hclosed)
  · next hs =>
    have hidle : m.ring.producer = .idle := h.quiet (by rw [Closing.NoSend, hs]; rfl)
    cases hstep
    exact h.noSend hidle rfl
  · cases hstep
    exact ⟨h.ring, h.quiet, h.drained⟩
  · next a bufLen hr =>
    obtain ⟨ring, hring, rfl⟩ := Option.map_eq_some_iff.mp hstep
    exact h.consumer hring
  · next timedOut bufLen hr =>
    -- the load that `NoLateSend` is about
    by_cases hclosed : m.closed = true
    · rw [if_pos hclosed] at hstep
      cases hstep
      obtain ⟨hempty, hnone⟩ := hok hclosed
      exact ⟨h.ring, h.quiet, fun _ => ⟨hclosed, h.ring.length_eq hempty, hnone⟩⟩
    · rw [if_neg hclosed] at hstep
      split at hstep
      · cases hstep
        exact ⟨h.ring, h.quiet, h.drained⟩
      · cases hstep
        exact ⟨h.ring, h.quiet, h.drained⟩
  · cases hstep
    exact ⟨h.ring, h.quiet, fun hreturned => ⟨rfl, (h.drained hreturned).2⟩⟩
  · cases hstep

theorem ClosingInv.fresh {capacity : ℕ} (hcap : capacity + 1 < 2 ^ 64) (elementSize : ℕ) :
    ClosingInv (.fresh α capacity elementSize) :=
  ⟨.fresh hcap elementSize, fun _ => rfl, nofun⟩

/-- Once a receive has returned `CLOSED`, everything that was or will be accepted was
received. -/
def Closing.Drained (m : Closing α) : Prop :=
  m.closedReturned = true → m.ring.received = m.ring.sent.map some

end Loopy.Channel
