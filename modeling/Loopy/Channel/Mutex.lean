import Loopy.Channel.Agreement

/-!
# Closing an MPSC or MPMC channel

Any number of senders running `loopyChannelSend` or `loopyChannelTrySend`, a receiver running
`loopyChannelRecv` and a thread that calls `loopyChannelClose`, on a blocking channel with a
mutex. The store of `closed` is outside the mutex; the tests of `count` and the loads of
`closed` that decide a call are inside. Condition waits return at any moment, and a deadline
may have passed at any moment.
-/

namespace Loopy.Channel

open Loopy.Lib
open Function (update update_of_ne update_self)

variable {α T : Type}

/-- Where a sender is in `mpmcSend`, with its element; `blocking` is a `loopyChannelSend`. -/
inductive MutexSendPc (α : Type)
  | idle
  | calling (data : α) (blocking : Bool)
  | locked (data : α) (blocking : Bool)
  | full (data : α) (blocking : Bool)
  | waiting (data : α) (blocking : Bool)
  | room (data : α)
  | copying (data : α)
  | leaving
deriving DecidableEq, Repr

/-- Where the receiver is in `mpmcRecv`. -/
inductive MutexRecvPc
  | idle
  | calling
  | locked
  | empty
  | waiting
  | copying
  | leaving
deriving DecidableEq, Repr

/-- Where the closer is in `loopyChannelClose`. -/
inductive ClosePc
  | idle
  | stored
  | broadcasting
deriving DecidableEq, Repr

/-- A thread that can hold the mutex. -/
inductive Holder (T : Type)
  | sender (t : T)
  | receiver
  | closer
deriving DecidableEq, Repr

/-- A channel with a mutex and its threads. An element is recorded as accepted or received
with its copy; `closedReturned`: a receive has decided to return `CLOSED`. -/
structure MutexChannel (α T : Type) where
  mpmc : LoopyChannelMPMC α
  closed : Bool
  mutex : Option (Holder T)
  sender : T → MutexSendPc α
  receiver : MutexRecvPc
  closer : ClosePc
  sent : List α
  received : List (Option α)
  closedReturned : Bool

/-- A new channel. -/
def MutexChannel.fresh (α T : Type) (capacity elementSize : ℕ) : MutexChannel α T :=
  { mpmc := mpmcInit α capacity elementSize
    closed := false
    mutex := none
    sender := fun _ => .idle
    receiver := .idle
    closer := .idle
    sent := []
    received := []
    closedReturned := false }

/-- The steps of a sender. `full` is the load of `closed` inside the `while`, followed by a
return or a wait. -/
inductive MutexSendAction (α : Type)
  | call (data : α) (len : ℕ) (blocking : Bool)
  | lock
  | testCount
  | full
  | wake (timedOut : Bool)
  | loadClosed
  | copy
  | unlock
deriving DecidableEq, Repr

/-- The steps of the receiver. -/
inductive MutexRecvAction
  | call (bufLen : ℕ)
  | lock
  | testCount
  | loadClosed
  | wake (timedOut : Bool)
  | copy
  | unlock
deriving DecidableEq, Repr

/-- The steps. -/
inductive MutexAction (α T : Type)
  | sender (t : T) (a : MutexSendAction α)
  | receiver (a : MutexRecvAction)
  | close
  | closeLock
  | closeUnlock
deriving DecidableEq, Repr

/-- One step of the receiver. -/
def recvStep (m : MutexChannel α T) (a : MutexRecvAction) :
    Option (MutexChannel α T) :=
  match a, m.receiver with
  | .call bufLen, .idle =>
    if bufLen < m.mpmc.elementSize then some m else some { m with receiver := .calling }
  | .lock, .calling =>
    if m.mutex = none then some { m with receiver := .locked, mutex := some .receiver } else none
  | .testCount, .locked =>
    some { m with receiver := if m.mpmc.count = 0 then .empty else .copying }
  | .loadClosed, .empty =>
    if m.closed then some { m with receiver := .leaving, closedReturned := true }
    else some { m with receiver := .waiting, mutex := none }
  | .wake timedOut, .waiting =>
    if m.mutex = none then
      some { m with
        receiver := if timedOut then .leaving else .locked
        mutex := some .receiver }
    else none
  | .copy, .copying =>
    some { m with
      receiver := .leaving
      mpmc := m.mpmc.pop.2
      received := m.received ++ [m.mpmc.pop.1] }
  | .unlock, .leaving => some { m with receiver := .idle, mutex := none }
  | _, _ => none

variable [DecidableEq T]

/-- The sender `t` moves. -/
def MutexChannel.setSender (m : MutexChannel α T) (t : T) (pc : MutexSendPc α) :
    MutexChannel α T :=
  { m with sender := update m.sender t pc }

/-- One step of a sender. -/
def sendStep (m : MutexChannel α T) (t : T) (a : MutexSendAction α) : Option (MutexChannel α T) :=
  match a, m.sender t with
  | .call data len blocking, .idle =>
    -- the load of `closed` in `loopyChannelSend`, and the length test of `mpmcSend`
    if m.closed ∨ len ≠ m.mpmc.elementSize then some m
    else some (m.setSender t (.calling data blocking))
  | .lock, .calling data blocking =>
    if m.mutex = none then
      some { m.setSender t (.locked data blocking) with mutex := some (.sender t) }
    else none
  | .testCount, .locked data blocking =>
    if m.mpmc.count ≥ m.mpmc.capacity then some (m.setSender t (.full data blocking))
    else some (m.setSender t (.room data))
  | .full, .full data blocking =>
    if m.closed ∨ blocking = false then some (m.setSender t .leaving)
    else some { m.setSender t (.waiting data blocking) with mutex := none }
  | .wake timedOut, .waiting data blocking =>
    if m.mutex = none then
      some { m.setSender t (if timedOut then .leaving else .locked data blocking) with
        mutex := some (.sender t) }
    else none
  | .loadClosed, .room data =>
    if m.closed then some (m.setSender t .leaving) else some (m.setSender t (.copying data))
  | .copy, .copying data =>
    some { m.setSender t .leaving with mpmc := m.mpmc.push data, sent := m.sent ++ [data] }
  | .unlock, .leaving => some { m.setSender t .idle with mutex := none }
  | _, _ => none

/-- One step. -/
def mutexStep (m : MutexChannel α T) : MutexAction α T → Option (MutexChannel α T)
  | .sender t a => sendStep m t a
  | .receiver a => recvStep m a
  | .close => if m.closer = .idle then some { m with closed := true, closer := .stored } else none
  | .closeLock =>
    if m.closer = .stored ∧ m.mutex = none then
      some { m with closer := .broadcasting, mutex := some .closer }
    else none
  | .closeUnlock =>
    if m.closer = .broadcasting then some { m with closer := .idle, mutex := none } else none

/-! ## Who holds the mutex -/

section Info

omit [DecidableEq T]

/-- What a sender may rely on at its place. -/
def SenderInfo (m : MutexChannel α T) (t : T) : MutexSendPc α → Prop
  | .idle | .calling .. | .waiting .. => True
  | .locked .. | .full .. | .leaving => m.mutex = some (.sender t)
  | .room _ | .copying _ => m.mutex = some (.sender t) ∧ m.mpmc.count < m.mpmc.capacity

/-- What the receiver may rely on at its place. -/
def ReceiverInfo (m : MutexChannel α T) : MutexRecvPc → Prop
  | .idle | .calling | .waiting => True
  | .locked | .leaving => m.mutex = some .receiver
  | .empty => m.mutex = some .receiver ∧ m.mpmc.count = 0
  | .copying => m.mutex = some .receiver ∧ m.mpmc.count ≠ 0

/-- What the closer may rely on at its place. -/
def CloserInfo (m : MutexChannel α T) : ClosePc → Prop
  | .idle | .stored => True
  | .broadcasting => m.mutex = some .closer

/-- A step leaves a thread alone if it changes nothing the thread relies on, or if the thread
does not hold the mutex. -/
def Leaves (m m' : MutexChannel α T) (holder : Holder T) : Prop :=
  (m'.mutex = m.mutex ∧ m'.mpmc = m.mpmc) ∨ m.mutex ≠ some holder

variable {m m' : MutexChannel α T}

theorem SenderInfo.frame {t : T} {pc : MutexSendPc α} (h : SenderInfo m t pc)
    (hl : Leaves m m' (.sender t)) : SenderInfo m' t pc := by
  rcases hl with ⟨hmutex, hmpmc⟩ | hne
  · cases pc <;> simp_all [SenderInfo]
  · cases pc <;> simp_all [SenderInfo]

theorem ReceiverInfo.frame {pc : MutexRecvPc} (h : ReceiverInfo m pc) (hl : Leaves m m' .receiver) :
    ReceiverInfo m' pc := by
  rcases hl with ⟨hmutex, hmpmc⟩ | hne
  · cases pc <;> simp_all [ReceiverInfo]
  · cases pc <;> simp_all [ReceiverInfo]

theorem CloserInfo.frame {pc : ClosePc} (h : CloserInfo m pc) (hl : Leaves m m' .closer) :
    CloserInfo m' pc := by
  rcases hl with ⟨hmutex, hmpmc⟩ | hne
  · cases pc <;> simp_all [CloserInfo]
  · cases pc <;> simp_all [CloserInfo]

/-- The FIFO of the elements that were accepted and not yet received. -/
def MutexChannel.fifo (m : MutexChannel α T) : Fifo α :=
  { capacity := m.mpmc.capacity
    elementSize := m.mpmc.elementSize
    queue := m.sent.drop m.received.length
    closed := false }

/-- The invariant. -/
structure MutexInv (m : MutexChannel α T) : Prop where
  sender : ∀ t, SenderInfo m t (m.sender t)
  receiver : ReceiverInfo m m.receiver
  closer : CloserInfo m m.closer
  rel : MpmcRel m.mpmc m.fifo
  order : m.received <+: m.sent.map some
  drained : m.closedReturned = true →
    m.closed = true ∧ m.mpmc.count = 0 ∧ ∀ t data, m.sender t ≠ .copying data

end Info

/-! ## Steps -/

variable {m m' : MutexChannel α T} {t : T}

omit [DecidableEq T] in
/-- A thread that takes, gives back, or keeps the mutex leaves the others alone. -/
theorem leaves_of_mutex (holder : Holder T) {other : Holder T} (hne : other ≠ holder)
    (hmutex : m'.mutex = m.mutex ∧ m'.mpmc = m.mpmc ∨ m.mutex = none ∨ m.mutex = some holder) :
    Leaves m m' other := by
  rcases hmutex with hsame | hnone | hholder
  · exact .inl hsame
  · exact .inr (by rw [hnone]; exact nofun)
  · refine .inr ?_
    rw [hholder]
    intro he
    injection he with he
    exact hne he.symm

theorem setSender_info {pc : MutexSendPc α} (h : MutexInv m)
    (hsender : m'.sender = update m.sender t pc) (hinfo : SenderInfo m' t pc)
    (hmutex : m'.mutex = m.mutex ∧ m'.mpmc = m.mpmc ∨ m.mutex = none ∨ m.mutex = some (.sender t))
    (u : T) : SenderInfo m' u (m'.sender u) := by
  rw [hsender]
  by_cases hu : u = t
  · subst hu
    rw [update_self]
    exact hinfo
  · rw [update_of_ne hu]
    refine (h.sender u).frame (leaves_of_mutex (.sender t) ?_ hmutex)
    intro he
    injection he with he
    exact hu he

/-- A sender moves and takes, gives back or keeps the mutex. -/
theorem MutexInv.moveSender {pc : MutexSendPc α} {mutex : Option (Holder T)} (h : MutexInv m)
    (hmutex : mutex = m.mutex ∨ m.mutex = none ∨ m.mutex = some (.sender t))
    (hinfo : SenderInfo { m.setSender t pc with mutex } t pc)
    (hcopy : ∀ data, pc = .copying data → m.closed = false) :
    MutexInv { m.setSender t pc with mutex } := by
  have hmutex' : mutex = m.mutex ∧ m.mpmc = m.mpmc ∨ m.mutex = none ∨
      m.mutex = some (.sender t) := hmutex.imp_left fun he => ⟨he, rfl⟩
  refine ⟨setSender_info h rfl hinfo hmutex',
    h.receiver.frame (leaves_of_mutex (.sender t) nofun hmutex'),
    h.closer.frame (leaves_of_mutex (.sender t) nofun hmutex'), h.rel, h.order, fun hreturned => ?_⟩
  obtain ⟨hclosed, hcount, hnone⟩ := h.drained hreturned
  refine ⟨hclosed, hcount, fun u data => ?_⟩
  show update m.sender t pc u ≠ .copying data
  by_cases hu : u = t
  · subst hu
    rw [update_self]
    intro he
    rw [hcopy data he] at hclosed
    cases hclosed
  · rw [update_of_ne hu]
    exact hnone u data

/-- A sender copies its element into the channel. -/
theorem MutexInv.sendCopy {data : α} (h : MutexInv m) (ht : m.sender t = .copying data) :
    MutexInv { m.setSender t .leaving with
      mpmc := m.mpmc.push data
      sent := m.sent ++ [data] } := by
  have hinfo := h.sender t
  rw [ht] at hinfo
  obtain ⟨hmutex, hroom⟩ := hinfo
  have hlength : m.received.length ≤ m.sent.length := by
    have := h.order.length_le
    rwa [List.length_map] at this
  have hqueue : (m.sent ++ [data]).drop m.received.length =
      m.sent.drop m.received.length ++ [data] := List.drop_append_of_le_length hlength
  have hcount := h.rel.count
  refine ⟨setSender_info h rfl hmutex (.inr (.inr hmutex)),
    h.receiver.frame (leaves_of_mutex (.sender t) nofun (.inr (.inr hmutex))),
    h.closer.frame (leaves_of_mutex (.sender t) nofun (.inr (.inr hmutex))), ?_, ?_,
      fun hreturned => ?_⟩
  · have hpush := h.rel.push (by rw [← hcount]; exact hroom) data
    show MpmcRel (m.mpmc.push data) ⟨m.mpmc.capacity, m.mpmc.elementSize,
      (m.sent ++ [data]).drop m.received.length, false⟩
    rw [hqueue]
    exact hpush
  · rw [List.map_append]
    exact h.order.trans (List.prefix_append _ _)
  · obtain ⟨_, _, hnone⟩ := h.drained hreturned
    exact absurd ht (hnone t data)

theorem MutexInv.sendStep {a : MutexSendAction α} (h : MutexInv m)
    (hstep : sendStep m t a = some m') : MutexInv m' := by
  have hinfo := h.sender t
  unfold Channel.sendStep at hstep
  split at hstep
  · next data len blocking ht =>
    split at hstep
    · cases hstep
      exact h
    · cases hstep
      exact h.moveSender (.inl rfl) trivial nofun
  · next data blocking ht =>
    -- the mutex is free and becomes the sender's
    obtain ⟨hfree, rfl⟩ := of_guard hstep
    exact h.moveSender (.inr (.inl hfree)) rfl nofun
  · next data blocking ht =>
    rw [ht] at hinfo
    split at hstep
    · cases hstep
      exact h.moveSender (.inl rfl) hinfo nofun
    · next hroom =>
      cases hstep
      exact h.moveSender (.inl rfl) ⟨hinfo, not_le.mp hroom⟩ nofun
  · next data blocking ht =>
    rw [ht] at hinfo
    split at hstep
    · cases hstep
      exact h.moveSender (.inl rfl) hinfo nofun
    · cases hstep
      exact h.moveSender (.inr (.inr hinfo)) trivial nofun
  · next timedOut data blocking ht =>
    -- `pthread_cond_timedwait` returns with the mutex
    obtain ⟨hfree, rfl⟩ := of_guard hstep
    refine h.moveSender (.inr (.inl hfree)) ?_ ?_
    · split <;> rfl
    · split <;> exact nofun
  · next data ht =>
    rw [ht] at hinfo
    split at hstep
    · cases hstep
      exact h.moveSender (.inl rfl) hinfo.1 nofun
    · next hopen =>
      -- the only step after which an element is accepted
      cases hstep
      exact h.moveSender (.inl rfl) hinfo fun _ _ => Bool.eq_false_iff.mpr hopen
  · next data ht =>
    cases hstep
    exact h.sendCopy ht
  · next ht =>
    rw [ht] at hinfo
    cases hstep
    exact h.moveSender (.inr (.inr hinfo)) trivial nofun
  · cases hstep

section Receiver

omit [DecidableEq T]

variable {m m' : MutexChannel α T} {mutex : Option (Holder T)}

/-- The receiver moves and takes, gives back or keeps the mutex. -/
theorem MutexInv.moveReceiver (h : MutexInv m) (pc : MutexRecvPc)
    (hmutex : mutex = m.mutex ∨ m.mutex = none ∨ m.mutex = some .receiver)
    (hinfo : ReceiverInfo { m with receiver := pc, mutex } pc) :
    MutexInv { m with receiver := pc, mutex } := by
  have hmutex' : mutex = m.mutex ∧ m.mpmc = m.mpmc ∨ m.mutex = none ∨
      m.mutex = some .receiver := hmutex.imp_left fun he => ⟨he, rfl⟩
  exact ⟨fun t => (h.sender t).frame (leaves_of_mutex .receiver nofun hmutex'), hinfo,
    h.closer.frame (leaves_of_mutex .receiver nofun hmutex'), h.rel, h.order, h.drained⟩

/-- The receiver copies the oldest element out of the channel. -/
theorem MutexInv.recvCopy (h : MutexInv m) (hr : m.receiver = .copying) :
    MutexInv { m with
      receiver := .leaving
      mpmc := m.mpmc.pop.2
      received := m.received ++ [m.mpmc.pop.1] } := by
  have hinfo := h.receiver
  rw [hr] at hinfo
  obtain ⟨hmutex, hcount⟩ := hinfo
  have hlt : m.received.length < m.sent.length := by
    have hlength : m.mpmc.count = (m.sent.drop m.received.length).length := h.rel.count
    rw [List.length_drop] at hlength
    omega
  have hqueue : m.fifo.queue =
      m.sent[m.received.length] :: m.sent.drop (m.received.length + 1) :=
    List.drop_eq_getElem_cons hlt
  obtain ⟨hpop, hrel⟩ := h.rel.pop hqueue
  refine ⟨fun t => (h.sender t).frame (leaves_of_mutex .receiver nofun (.inr (.inr hmutex))),
    hmutex, h.closer.frame (leaves_of_mutex .receiver nofun (.inr (.inr hmutex))), ?_, ?_,
    fun hreturned => ?_⟩
  · show MpmcRel m.mpmc.pop.2 ⟨m.mpmc.capacity, m.mpmc.elementSize,
      m.sent.drop (m.received ++ [m.mpmc.pop.1]).length, false⟩
    rw [List.length_append]
    exact hrel
  · show m.received ++ [m.mpmc.pop.1] <+: m.sent.map some
    rw [hpop]
    exact received_next h.order (List.getElem?_eq_getElem hlt)
  · obtain ⟨_, hzero, _⟩ := h.drained hreturned
    exact absurd hzero hcount

theorem MutexInv.recvStep {a : MutexRecvAction} (h : MutexInv m)
    (hstep : recvStep m a = some m') : MutexInv m' := by
  have hinfo := h.receiver
  unfold Channel.recvStep at hstep
  split at hstep
  · next bufLen hr =>
    split at hstep
    · cases hstep
      exact h
    · cases hstep
      exact h.moveReceiver _ (.inl rfl) trivial
  · next hr =>
    obtain ⟨hfree, rfl⟩ := of_guard hstep
    exact h.moveReceiver _ (.inr (.inl hfree)) rfl
  · next hr =>
    rw [hr] at hinfo
    cases hstep
    -- `count` cannot change while the receiver has the mutex
    refine h.moveReceiver _ (.inl rfl) ?_
    by_cases hzero : m.mpmc.count = 0
    · rw [if_pos hzero]
      exact ⟨hinfo, hzero⟩
    · rw [if_neg hzero]
      exact ⟨hinfo, hzero⟩
  · next hr =>
    rw [hr] at hinfo
    obtain ⟨hmutex, hzero⟩ := hinfo
    split at hstep
    · next hclosed =>
      -- the receive returns `CLOSED`
      cases hstep
      have hmoved := h.moveReceiver .leaving (.inl rfl) hmutex
      refine ⟨hmoved.sender, hmoved.receiver, hmoved.closer, hmoved.rel, hmoved.order,
        fun _ => ⟨hclosed, hzero, fun t data ht => ?_⟩⟩
      -- a sender about to copy would hold the mutex
      have hsender := h.sender t
      rw [show m.sender t = .copying data from ht] at hsender
      have hboth := hsender.1.symm.trans hmutex
      cases hboth
    · cases hstep
      exact h.moveReceiver _ (.inr (.inr hmutex)) trivial
  · next timedOut hr =>
    obtain ⟨hfree, rfl⟩ := of_guard hstep
    refine h.moveReceiver _ (.inr (.inl hfree)) ?_
    split <;> rfl
  · next hr =>
    cases hstep
    exact h.recvCopy hr
  · next hr =>
    rw [hr] at hinfo
    cases hstep
    exact h.moveReceiver _ (.inr (.inr hinfo)) trivial
  · cases hstep

end Receiver

theorem MutexInv.step {a : MutexAction α T} (h : MutexInv m) (hstep : mutexStep m a = some m') :
    MutexInv m' := by
  cases a with
  | sender t a => exact h.sendStep hstep
  | receiver a => exact h.recvStep hstep
  | close =>
    obtain ⟨hc, rfl⟩ := of_guard hstep
    exact ⟨fun t => (h.sender t).frame (.inl ⟨rfl, rfl⟩), h.receiver.frame (.inl ⟨rfl, rfl⟩),
      trivial, h.rel, h.order, fun hreturned => ⟨rfl, (h.drained hreturned).2⟩⟩
  | closeLock =>
    obtain ⟨⟨_, hfree⟩, rfl⟩ := of_guard hstep
    have hleaves : ∀ m' : MutexChannel α T, ∀ other, Leaves m m' other :=
      fun m' other => .inr (by rw [hfree]; exact nofun)
    exact ⟨fun t => (h.sender t).frame (hleaves _ _), h.receiver.frame (hleaves _ _), rfl, h.rel,
      h.order, h.drained⟩
  | closeUnlock =>
    obtain ⟨hc, hstep⟩ := Option.ite_none_right_eq_some.mp hstep
    have hinfo := h.closer
    rw [hc] at hinfo
    cases hstep
    exact ⟨fun t => (h.sender t).frame (leaves_of_mutex .closer nofun (.inr (.inr hinfo))),
      h.receiver.frame (leaves_of_mutex .closer nofun (.inr (.inr hinfo))), trivial, h.rel,
      h.order, h.drained⟩

omit [DecidableEq T] in
theorem MutexInv.fresh {capacity : ℕ} (hcap : 1 ≤ capacity) (elementSize : ℕ) :
    MutexInv (.fresh α T capacity elementSize) := by
  refine ⟨fun _ => trivial, trivial, trivial, ?_, List.nil_prefix, nofun⟩
  exact ⟨rfl, rfl, rfl, Nat.zero_le _, hcap, (Nat.zero_mod capacity).symm,
    fun _ _ hx => by simp [MutexChannel.fifo, MutexChannel.fresh] at hx⟩

/-- Once a receive has returned `CLOSED`, everything that was or will be accepted was
received. -/
def MutexChannel.Drained (m : MutexChannel α T) : Prop :=
  m.closedReturned = true → m.received = m.sent.map some

end Loopy.Channel
