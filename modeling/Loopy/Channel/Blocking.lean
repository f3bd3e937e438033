import Loopy.Channel.Mutex
import Loopy.Lib.Run
import Loopy.Lib.Total
import Loopy.Lib.Sleepers

/-!
# Any number of senders and receivers

`loopyChannelSend` and `loopyChannelRecv` on a channel with a mutex, from any number of threads,
with the two condition variables they sleep on. What a call does under the mutex is one step: it
loads `closed` at most once there, and nothing else it looks at can change. The store of `closed`
and the two broadcasts of `loopyChannelClose` are two steps. A wait ends with a signal, with a
broadcast, by itself, or at its deadline.

The signal of a call wakes one thread only, so it matters that none is wasted: `BlockingInv` keeps
the elements `Covered` by receivers, and the free slots by senders until the channel is closed.
-/

namespace Loopy.Channel

open Loopy.Lib
open Function (update update_of_ne update_self)

variable {α S R C : Type}

/-! ## The machine -/

/-- A channel with its threads. `sender s` is the element of a call in `mpmcSend` and whether it
blocks, `receiver r` whether a call in `mpmcRecv` blocks; `closing c` is between the two halves of
`loopyChannelClose`. An element is recorded as sent or received with its copy. -/
structure BlockingChannel (α S R C : Type) where
  mpmc : LoopyChannelMPMC α
  closed : Bool
  sender : S → Option (α × Bool)
  sendAsleep : S → Bool
  receiver : R → Option Bool
  recvAsleep : R → Bool
  closing : C → Bool
  sent : List α
  received : List (Option α)

/-- A new channel. -/
def BlockingChannel.fresh (α S R C : Type) (capacity elementSize : ℕ) : BlockingChannel α S R C :=
  { mpmc := mpmcInit α capacity elementSize
    closed := false
    sender := fun _ => none
    sendAsleep := fun _ => false
    receiver := fun _ => none
    recvAsleep := fun _ => false
    closing := fun _ => false
    sent := []
    received := [] }

/-- A sender that is about to take the mutex. -/
def BlockingChannel.SendReady (m : BlockingChannel α S R C) (s : S) : Prop :=
  (m.sender s).isSome ∧ m.sendAsleep s = false

/-- A receiver that is about to take the mutex. -/
def BlockingChannel.RecvReady (m : BlockingChannel α S R C) (r : R) : Prop :=
  (m.receiver r).isSome ∧ m.recvAsleep r = false

instance (m : BlockingChannel α S R C) : DecidablePred m.SendReady :=
  fun _ => inferInstanceAs (Decidable (_ ∧ _))

instance (m : BlockingChannel α S R C) : DecidablePred m.RecvReady :=
  fun _ => inferInstanceAs (Decidable (_ ∧ _))

/-- The steps. `sendSection` and `recvSection` hold the mutex; `woken` is the thread that their
signal wakes. `wakeSend` and `wakeRecv` are waits that return by themselves. -/
inductive BlockingAction (α S R C : Type)
  | send (s : S) (data : α) (len : ℕ) (blocking : Bool)
  | sendSection (s : S) (woken : Option R)
  | wakeSend (s : S)
  | timeoutSend (s : S)
  | recv (r : R) (bufLen : ℕ) (blocking : Bool)
  | recvSection (r : R) (woken : Option S)
  | wakeRecv (r : R)
  | timeoutRecv (r : R)
  | close (c : C)
  | broadcast (c : C)
deriving DecidableEq, Repr

/-- The steps that calls make by themselves. -/
def BlockingAction.Own : BlockingAction α S R C → Prop
  | .sendSection .. | .recvSection .. | .broadcast _ => True
  | _ => False

variable [DecidableEq S] [DecidableEq R] [DecidableEq C]

/-- The call of `s` returns. -/
def BlockingChannel.leaveSend (m : BlockingChannel α S R C) (s : S) : BlockingChannel α S R C :=
  { m with
    sender := update m.sender s none
    sendAsleep := update m.sendAsleep s false }

/-- The call of `r` returns. -/
def BlockingChannel.leaveRecv (m : BlockingChannel α S R C) (r : R) : BlockingChannel α S R C :=
  { m with
    receiver := update m.receiver r none
    recvAsleep := update m.recvAsleep r false }

variable [Fintype S] [Fintype R]

/-- `mpmcSend`, from the lock to the unlock or to the wait. -/
def sendSection (m : BlockingChannel α S R C) (s : S) (woken : Option R) :
    Option (BlockingChannel α S R C) :=
  match m.sender s with
  | none => none
  | some (data, blocking) =>
    if m.sendAsleep s then none
    else if m.mpmc.count ≥ m.mpmc.capacity then
      if woken = none then
        -- `CLOSED`, `FULL`, or a wait for `notFull`
        if m.closed ∨ blocking = false then some (m.leaveSend s)
        else some { m with sendAsleep := update m.sendAsleep s true }
      else none
    else if m.closed then if woken = none then some (m.leaveSend s) else none
    else
      (signal m.recvAsleep woken).map fun recvAsleep =>
        { m.leaveSend s with
          mpmc := m.mpmc.push data
          sent := m.sent ++ [data]
          recvAsleep }

/-- `mpmcRecv`, from the lock to the unlock or to the wait. -/
def recvSection (m : BlockingChannel α S R C) (r : R) (woken : Option S) :
    Option (BlockingChannel α S R C) :=
  match m.receiver r with
  | none => none
  | some blocking =>
    if m.recvAsleep r then none
    else if m.mpmc.count = 0 then
      if woken = none then
        -- `CLOSED`, `EMPTY`, or a wait for `notEmpty`
        if m.closed ∨ blocking = false then some (m.leaveRecv r)
        else some { m with recvAsleep := update m.recvAsleep r true }
      else none
    else
      (signal m.sendAsleep woken).map fun sendAsleep =>
        { m.leaveRecv r with
          mpmc := m.mpmc.pop.2
          received := m.received ++ [m.mpmc.pop.1]
          sendAsleep }

/-- One step. -/
def blockingStep (m : BlockingChannel α S R C) :
    BlockingAction α S R C → Option (BlockingChannel α S R C)
  | .send s data len blocking =>
    if m.sender s = none then
      -- the load of `closed` in `loopyChannelSend`, and the length test of `mpmcSend`
      if m.closed ∨ len ≠ m.mpmc.elementSize then some m
      else some { m with sender := update m.sender s (some (data, blocking)) }
    else none
  | .sendSection s woken => sendSection m s woken
  | .wakeSend s =>
    if m.sendAsleep s then some { m with sendAsleep := update m.sendAsleep s false }
    else none
  | .timeoutSend s => if m.sendAsleep s then some (m.leaveSend s) else none
  | .recv r bufLen blocking =>
    if m.receiver r = none then
      if bufLen < m.mpmc.elementSize then some m
      else some { m with receiver := update m.receiver r (some blocking) }
    else none
  | .recvSection r woken => recvSection m r woken
  | .wakeRecv r =>
    if m.recvAsleep r then some { m with recvAsleep := update m.recvAsleep r false }
    else none
  | .timeoutRecv r => if m.recvAsleep r then some (m.leaveRecv r) else none
  | .close c =>
    if m.closing c = false then
      some { m with closed := true, closing := update m.closing c true }
    else none
  | .broadcast c =>
    if m.closing c then
      some { m with
        closing := update m.closing c false
        sendAsleep := fun _ => false
        recvAsleep := fun _ => false }
    else none

/-! ## The invariant -/

section Inv

omit [DecidableEq S] [DecidableEq R] [DecidableEq C] [Fintype S] [Fintype R]

/-- The FIFO of the elements that were sent and not yet received. -/
def BlockingChannel.fifo (m : BlockingChannel α S R C) : Fifo α :=
  { capacity := m.mpmc.capacity
    elementSize := m.mpmc.elementSize
    queue := m.sent.drop m.received.length
    closed := false }

/-- The ring holds what was sent and not received, and what was received was sent in that order. -/
structure Queued (m : BlockingChannel α S R C) : Prop where
  rel : MpmcRel m.mpmc m.fifo
  order : m.received <+: m.sent.map some

/-- Only calls that block sleep. -/
structure Sleeping (m : BlockingChannel α S R C) : Prop where
  send : ∀ s, m.sendAsleep s → ∃ data, m.sender s = some (data, true)
  recv : ∀ r, m.recvAsleep r → m.receiver r = some true

/-- After the store of `closed`, a broadcast will come, or nobody sleeps. -/
structure Closes (m : BlockingChannel α S R C) : Prop where
  closed : ∀ c, m.closing c → m.closed = true
  awake : m.closed = true → (∀ c, m.closing c = false) →
    (∀ s, m.sendAsleep s = false) ∧ ∀ r, m.recvAsleep r = false

end Inv

/-- The invariant. -/
structure BlockingInv (m : BlockingChannel α S R C) : Prop where
  queued : Queued m
  sleeping : Sleeping m
  closes : Closes m
  elements : Covered m.recvAsleep m.RecvReady m.mpmc.count
  room : m.closed = false → Covered m.sendAsleep m.SendReady (m.mpmc.capacity - m.mpmc.count)

variable {m m' : BlockingChannel α S R C} {s : S} {r : R} {c : C}

omit [DecidableEq S] [DecidableEq R] [DecidableEq C] in
theorem BlockingInv.fresh {capacity : ℕ} (hcap : 1 ≤ capacity) (elementSize : ℕ) :
    BlockingInv (.fresh α S R C capacity elementSize) where
  queued := by
    refine ⟨⟨rfl, rfl, rfl, Nat.zero_le _, hcap, (Nat.zero_mod capacity).symm, fun i x hx => ?_⟩,
      List.nil_prefix⟩
    simp [BlockingChannel.fifo, BlockingChannel.fresh] at hx
  sleeping := ⟨nofun, nofun⟩
  closes := ⟨nofun, nofun⟩
  elements := .zero
  room _ := .awake fun _ => rfl

/-! ## The ring -/

section Ring

omit [DecidableEq S] [DecidableEq R] [DecidableEq C] [Fintype S] [Fintype R]

theorem Queued.congr (h : Queued m) (hmpmc : m'.mpmc = m.mpmc) (hsent : m'.sent = m.sent)
    (hreceived : m'.received = m.received) : Queued m' := by
  have hfifo : m'.fifo = m.fifo := by
    simp only [BlockingChannel.fifo, hmpmc, hsent, hreceived]
  refine ⟨?_, ?_⟩
  · rw [hmpmc, hfifo]
    exact h.rel
  · rw [hsent, hreceived]
    exact h.order

theorem Queued.received_le (h : Queued m) : m.received.length ≤ m.sent.length := by
  have := h.order.length_le
  rwa [List.length_map] at this

theorem Queued.push (h : Queued m) (hroom : m.mpmc.count < m.mpmc.capacity) {data : α}
    (hmpmc : m'.mpmc = m.mpmc.push data) (hsent : m'.sent = m.sent ++ [data])
    (hreceived : m'.received = m.received) : Queued m' := by
  have hqueue : (m.sent ++ [data]).drop m.received.length =
      m.sent.drop m.received.length ++ [data] := List.drop_append_of_le_length h.received_le
  have hcount := h.rel.count
  refine ⟨?_, ?_⟩
  · have hpush := h.rel.push (by rw [← hcount]; exact hroom) data
    have hfifo : m'.fifo = { m.fifo with queue := m.fifo.queue ++ [data] } := by
      simp only [BlockingChannel.fifo, hmpmc, hsent, hreceived, hqueue]
      rfl
    rw [hmpmc, hfifo]
    exact hpush
  · rw [hsent, hreceived, List.map_append]
    exact h.order.trans (List.prefix_append _ _)

theorem Queued.pop (h : Queued m) (hcount : m.mpmc.count ≠ 0)
    (hmpmc : m'.mpmc = m.mpmc.pop.2) (hsent : m'.sent = m.sent)
    (hreceived : m'.received = m.received ++ [m.mpmc.pop.1]) : Queued m' := by
  have hlt : m.received.length < m.sent.length := by
    have hlength : m.mpmc.count = (m.sent.drop m.received.length).length := h.rel.count
    rw [List.length_drop] at hlength
    omega
  have hqueue : m.fifo.queue =
      m.sent[m.received.length] :: m.sent.drop (m.received.length + 1) :=
    List.drop_eq_getElem_cons hlt
  obtain ⟨hpop, hrel⟩ := h.rel.pop hqueue
  refine ⟨?_, ?_⟩
  · have hfifo : m'.fifo = { m.fifo with queue := m.sent.drop (m.received.length + 1) } := by
      simp only [BlockingChannel.fifo, hmpmc, hsent, hreceived, List.length_append,
        List.length_singleton]
      rfl
    rw [hmpmc, hfifo]
    exact hrel
  · rw [hsent, hreceived, hpop]
    exact received_next h.order (List.getElem?_eq_getElem hlt)

theorem Queued.count_le (h : Queued m) : m.mpmc.count ≤ m.mpmc.capacity := by
  rw [h.rel.count]
  exact h.rel.count_le

end Ring

/-! ## Steps that leave the ring alone -/

omit [DecidableEq S] [DecidableEq R] [DecidableEq C] [Fintype S] [Fintype R] in
theorem Closes.of_fewer (h : Closes m) (hclosed : m'.closed = m.closed)
    (hclosing : m'.closing = m.closing) (hsend : ∀ s, m'.sendAsleep s → m.sendAsleep s)
    (hrecv : ∀ r, m'.recvAsleep r → m.recvAsleep r) : Closes m' := by
  refine ⟨fun c hc => ?_, fun hc hnone => ?_⟩
  · rw [hclosed]
    exact h.closed c (hclosing ▸ hc)
  · rw [hclosed] at hc
    rw [hclosing] at hnone
    obtain ⟨hs, hr⟩ := h.awake hc hnone
    exact ⟨fun s => awake_of_fewer hsend (hs s), fun r => awake_of_fewer hrecv (hr r)⟩

variable {sendAsleep : S → Bool} {recvAsleep : R → Bool} {data : α} {woken : Option R}
  {a : BlockingAction α S R C} {as : List (BlockingAction α S R C)}

omit [DecidableEq S] [DecidableEq R] [DecidableEq C] in
/-- Threads call, return and wake; no thread that could still take something leaves. -/
theorem BlockingInv.threads (h : BlockingInv m) {sender : S → Option (α × Bool)}
    {receiver : R → Option Bool}
    (hsleeping : Sleeping { m with sender, sendAsleep, receiver, recvAsleep })
    (hsend : ∀ s, sendAsleep s → m.sendAsleep s) (hrecv : ∀ r, recvAsleep r → m.recvAsleep r)
    (helements : ∀ r, m.RecvReady r → (receiver r).isSome ∧ recvAsleep r = false)
    (hroom : m.closed = false → ∀ s, m.SendReady s → (sender s).isSome ∧ sendAsleep s = false) :
    BlockingInv { m with sender, sendAsleep, receiver, recvAsleep } := by
  refine ⟨h.queued.congr rfl rfl rfl, hsleeping, h.closes.of_fewer rfl rfl hsend hrecv,
    h.elements.mono hrecv helements le_rfl, fun hopen => ?_⟩
  exact (h.room hopen).mono hsend (hroom hopen) le_rfl

omit [DecidableEq R] [DecidableEq C] in
/-- A sender calls. -/
theorem BlockingInv.send (h : BlockingInv m) (hs : m.sender s = none) (data : α) (blocking : Bool) :
    BlockingInv { m with sender := update m.sender s (some (data, blocking)) } := by
  refine h.threads ⟨fun u hu => ?_, h.sleeping.recv⟩ (fun _ hu => hu) (fun _ hu => hu)
    (fun _ hu => hu) fun _ u hu => ?_
  · have hne : u ≠ s := by
      rintro rfl
      obtain ⟨_, hu⟩ := h.sleeping.send u hu
      rw [hs] at hu
      cases hu
    simpa only [update_of_ne hne] using h.sleeping.send u hu
  · refine ⟨?_, hu.2⟩
    by_cases hne : u = s
    · simp [hne]
    · simpa only [update_of_ne hne] using hu.1

omit [DecidableEq S] [DecidableEq C] in
/-- A receiver calls. -/
theorem BlockingInv.recv (h : BlockingInv m) (hr : m.receiver r = none) (blocking : Bool) :
    BlockingInv { m with receiver := update m.receiver r (some blocking) } := by
  refine h.threads ⟨h.sleeping.send, fun u hu => ?_⟩ (fun _ hu => hu) (fun _ hu => hu)
    (fun u hu => ?_) fun _ _ hu => hu
  · have hne : u ≠ r := by
      rintro rfl
      have hu := h.sleeping.recv u hu
      rw [hr] at hu
      cases hu
    simpa only [update_of_ne hne] using h.sleeping.recv u hu
  · refine ⟨?_, hu.2⟩
    by_cases hne : u = r
    · simp [hne]
    · simpa only [update_of_ne hne] using hu.1

omit [DecidableEq R] [DecidableEq C] [Fintype S] [Fintype R] in
theorem Sleeping.leaveSend (h : Sleeping m) (s : S) : Sleeping (m.leaveSend s) := by
  refine ⟨fun u hu => ?_, h.recv⟩
  obtain ⟨hne, hu⟩ := update_false_of hu
  simpa only [BlockingChannel.leaveSend, update_of_ne hne] using h.send u hu

omit [DecidableEq S] [DecidableEq C] [Fintype S] [Fintype R] in
theorem Sleeping.leaveRecv (h : Sleeping m) (r : R) : Sleeping (m.leaveRecv r) := by
  refine ⟨h.send, fun u hu => ?_⟩
  obtain ⟨hne, hu⟩ := update_false_of hu
  simpa only [BlockingChannel.leaveRecv, update_of_ne hne] using h.recv u hu

omit [DecidableEq R] [DecidableEq C] in
/-- A wait returns by itself, or at its deadline. -/
theorem BlockingInv.endSendWait (h : BlockingInv m) (hs : m.sendAsleep s) :
    BlockingInv { m with sendAsleep := update m.sendAsleep s false } ∧
      BlockingInv (m.leaveSend s) := by
  constructor
  · exact h.threads ⟨fun u hu => h.sleeping.send u (asleep_of_update u hu), h.sleeping.recv⟩
      asleep_of_update (fun _ hu => hu) (fun _ hu => hu)
      fun _ u hu => ⟨hu.1, awake_of_fewer asleep_of_update hu.2⟩
  · refine h.threads (h.sleeping.leaveSend s) asleep_of_update (fun _ hu => hu) (fun _ hu => hu)
      fun _ u hu => ?_
    have hne : u ≠ s := by
      rintro rfl
      -- who leaves was asleep, so no free slot has counted on it
      rw [hu.2] at hs
      cases hs
    exact ⟨by simpa only [update_of_ne hne] using hu.1,
      awake_of_fewer asleep_of_update hu.2⟩

omit [DecidableEq S] [DecidableEq C] in
theorem BlockingInv.endRecvWait (h : BlockingInv m) (hr : m.recvAsleep r) :
    BlockingInv { m with recvAsleep := update m.recvAsleep r false } ∧
      BlockingInv (m.leaveRecv r) := by
  constructor
  · exact h.threads ⟨h.sleeping.send, fun u hu => h.sleeping.recv u (asleep_of_update u hu)⟩
      (fun _ hu => hu) asleep_of_update
      (fun u hu => ⟨hu.1, awake_of_fewer asleep_of_update hu.2⟩) fun _ _ hu => hu
  · refine h.threads (h.sleeping.leaveRecv r) (fun _ hu => hu) asleep_of_update (fun u hu => ?_)
      fun _ _ hu => hu
    have hne : u ≠ r := by
      rintro rfl
      rw [hu.2] at hr
      cases hr
    exact ⟨by simpa only [update_of_ne hne] using hu.1,
      awake_of_fewer asleep_of_update hu.2⟩

/-! ## What a call does under the mutex -/

omit [DecidableEq R] [DecidableEq C] in
/-- A send returns `CLOSED` or `FULL`: the slots that are free then are of no use to senders. -/
theorem BlockingInv.leaveSend (h : BlockingInv m)
    (hno : m.closed = true ∨ m.mpmc.capacity ≤ m.mpmc.count) : BlockingInv (m.leaveSend s) := by
  refine ⟨h.queued.congr rfl rfl rfl, h.sleeping.leaveSend s,
    h.closes.of_fewer rfl rfl asleep_of_update fun _ hu => hu,
    h.elements.mono (fun _ hu => hu) (fun _ hu => hu) le_rfl, fun hopen => ?_⟩
  rcases hno with hclosed | hfull
  · exact absurd (hopen.symm.trans hclosed) nofun
  · have hzero : (m.leaveSend s).mpmc.capacity - (m.leaveSend s).mpmc.count = 0 :=
      Nat.sub_eq_zero_of_le hfull
    rw [hzero]
    exact .zero

omit [DecidableEq S] [DecidableEq C] in
/-- A receive returns `CLOSED` or `EMPTY`. -/
theorem BlockingInv.leaveRecv (h : BlockingInv m) (hno : m.mpmc.count = 0) :
    BlockingInv (m.leaveRecv r) := by
  refine ⟨h.queued.congr rfl rfl rfl, h.sleeping.leaveRecv r,
    h.closes.of_fewer rfl rfl (fun _ hu => hu) asleep_of_update, ?_,
    fun hopen => (h.room hopen).mono (fun _ hu => hu) (fun _ hu => hu) le_rfl⟩
  have hzero : (m.leaveRecv r).mpmc.count = 0 := hno
  rw [hzero]
  exact .zero

omit [DecidableEq R] [DecidableEq C] in
/-- A send waits for `notFull`. -/
theorem BlockingInv.sleepSend (h : BlockingInv m) (hs : m.sender s = some (data, true))
    (hopen : m.closed = false) (hfull : m.mpmc.capacity ≤ m.mpmc.count) :
    BlockingInv { m with sendAsleep := update m.sendAsleep s true } := by
  refine ⟨h.queued.congr rfl rfl rfl, ⟨fun u hu => ?_, h.sleeping.recv⟩,
    ⟨h.closes.closed, fun hclosed => absurd (hopen.symm.trans hclosed) nofun⟩,
    h.elements.mono (fun _ hu => hu) (fun _ hu => hu) le_rfl, fun _ => ?_⟩
  · by_cases hne : u = s
    · subst hne
      exact ⟨data, hs⟩
    · simp only [update_of_ne hne] at hu
      exact h.sleeping.send u hu
  · simp only [Nat.sub_eq_zero_of_le hfull]
    exact .zero

omit [DecidableEq S] [DecidableEq C] in
/-- A receive waits for `notEmpty`. -/
theorem BlockingInv.sleepRecv (h : BlockingInv m) (hr : m.receiver r = some true)
    (hopen : m.closed = false) (hempty : m.mpmc.count = 0) :
    BlockingInv { m with recvAsleep := update m.recvAsleep r true } := by
  refine ⟨h.queued.congr rfl rfl rfl, ⟨h.sleeping.send, fun u hu => ?_⟩,
    ⟨h.closes.closed, fun hclosed => absurd (hopen.symm.trans hclosed) nofun⟩, ?_,
    fun hopen => (h.room hopen).mono (fun _ hu => hu) (fun _ hu => hu) le_rfl⟩
  · by_cases hne : u = r
    · subst hne
      exact hr
    · simp only [update_of_ne hne] at hu
      exact h.sleeping.recv u hu
  · simp only [hempty]
    exact .zero

/-- Whom a signal wakes is ready, since it sleeps in a call. -/
theorem ready_of_signal {T : Type} [DecidableEq T] [Fintype T] {asleep asleep' : T → Bool}
    {woken : Option T} (call : T → Prop) (hsignal : signal asleep woken = some asleep')
    (hcall : ∀ t, asleep t → call t) :
    (∀ t, asleep t → ¬ (call t ∧ asleep t = false)) ∧
      (∀ t, call t ∧ asleep t = false → call t ∧ asleep' t = false) ∧
      ∀ t, asleep t → asleep' t = false → call t ∧ asleep' t = false := by
  refine ⟨fun t ht hready => ?_,
    fun t ht => ⟨ht.1, awake_of_fewer (asleep_of_signal hsignal) ht.2⟩,
    fun t ht ht' => ⟨hcall t ht, ht'⟩⟩
  rw [hready.2] at ht
  cases ht

omit [DecidableEq C] in
/-- A send copies its element and signals `notEmpty`. -/
theorem BlockingInv.push (h : BlockingInv m) (hroom : m.mpmc.count < m.mpmc.capacity)
    (hsignal : signal m.recvAsleep woken = some recvAsleep) :
    BlockingInv { m.leaveSend s with
      mpmc := m.mpmc.push data
      sent := m.sent ++ [data]
      recvAsleep } := by
  have hfewer := asleep_of_signal hsignal
  obtain ⟨hnot, hkeep, hnew⟩ := ready_of_signal (fun r => (m.receiver r).isSome) hsignal
    fun r hr => by rw [h.sleeping.recv r hr]; rfl
  refine ⟨h.queued.push hroom rfl rfl rfl,
    ⟨(h.sleeping.leaveSend s).send, fun u hu => h.sleeping.recv u (hfewer u hu)⟩,
    h.closes.of_fewer rfl rfl asleep_of_update hfewer,
    h.elements.signal hsignal hnot hkeep hnew, fun hopen => ?_⟩
  -- one slot fewer, and one sender fewer that could take it
  have hcovered := h.room hopen
  have hcount : m.mpmc.capacity - m.mpmc.count =
      m.mpmc.capacity - (m.mpmc.push data).count + 1 := by
    show m.mpmc.capacity - m.mpmc.count = m.mpmc.capacity - (m.mpmc.count + 1) + 1
    omega
  rw [hcount] at hcovered
  refine hcovered.take (t := s) asleep_of_update fun u hne hu => ?_
  exact ⟨by simpa only [BlockingChannel.leaveSend, update_of_ne hne] using hu.1,
    awake_of_fewer asleep_of_update hu.2⟩

omit [DecidableEq C] in
/-- A receive copies the oldest element and signals `notFull`. -/
theorem BlockingInv.pop (h : BlockingInv m) {woken : Option S} (hcount : m.mpmc.count ≠ 0)
    (hsignal : signal m.sendAsleep woken = some sendAsleep) :
    BlockingInv { m.leaveRecv r with
      mpmc := m.mpmc.pop.2
      received := m.received ++ [m.mpmc.pop.1]
      sendAsleep } := by
  have hfewer := asleep_of_signal hsignal
  obtain ⟨hnot, hkeep, hnew⟩ := ready_of_signal (fun s => (m.sender s).isSome) hsignal
    fun s hs => by
      obtain ⟨_, hs⟩ := h.sleeping.send s hs
      rw [hs]
      rfl
  refine ⟨h.queued.pop hcount rfl rfl rfl,
    ⟨fun u hu => h.sleeping.send u (hfewer u hu), (h.sleeping.leaveRecv r).recv⟩,
    h.closes.of_fewer rfl rfl hfewer asleep_of_update, ?_, fun hopen => ?_⟩
  · -- one element fewer, and one receiver fewer that could take it
    have hcovered := h.elements
    have hone : m.mpmc.count = m.mpmc.pop.2.count + 1 := by
      show m.mpmc.count = m.mpmc.count - 1 + 1
      omega
    rw [hone] at hcovered
    refine hcovered.take (t := r) asleep_of_update fun u hne hu => ?_
    exact ⟨by simpa only [BlockingChannel.leaveRecv, update_of_ne hne] using hu.1,
      awake_of_fewer asleep_of_update hu.2⟩
  · have hle := h.queued.count_le
    have hslots : m.mpmc.pop.2.capacity - m.mpmc.pop.2.count =
        m.mpmc.capacity - m.mpmc.count + 1 := by
      show m.mpmc.capacity - (m.mpmc.count - 1) = m.mpmc.capacity - m.mpmc.count + 1
      omega
    show Covered sendAsleep _ (m.mpmc.pop.2.capacity - m.mpmc.pop.2.count)
    rw [hslots]
    exact (h.room hopen).signal hsignal hnot hkeep hnew

/-! ## Every step keeps the invariant -/

/-- What `mpmcSend` does under the mutex. -/
inductive SendSection (m : BlockingChannel α S R C) (s : S) : BlockingChannel α S R C → Prop
  | leave (hno : m.closed = true ∨ m.mpmc.capacity ≤ m.mpmc.count) : SendSection m s (m.leaveSend s)
  | sleep (data : α) (hs : m.sender s = some (data, true)) (hopen : m.closed = false)
    (hfull : m.mpmc.capacity ≤ m.mpmc.count) :
    SendSection m s { m with sendAsleep := update m.sendAsleep s true }
  | push (data : α) (recvAsleep : R → Bool) (woken : Option R) (hopen : m.closed = false)
    (hroom : m.mpmc.count < m.mpmc.capacity)
    (hsignal : signal m.recvAsleep woken = some recvAsleep) :
    SendSection m s { m.leaveSend s with
      mpmc := m.mpmc.push data
      sent := m.sent ++ [data]
      recvAsleep }

/-- What `mpmcRecv` does under the mutex. -/
inductive RecvSection (m : BlockingChannel α S R C) (r : R) : BlockingChannel α S R C → Prop
  | leave (hno : m.mpmc.count = 0) : RecvSection m r (m.leaveRecv r)
  | sleep (hr : m.receiver r = some true) (hopen : m.closed = false) (hempty : m.mpmc.count = 0) :
    RecvSection m r { m with recvAsleep := update m.recvAsleep r true }
  | pop (sendAsleep : S → Bool) (woken : Option S) (hcount : m.mpmc.count ≠ 0)
    (hsignal : signal m.sendAsleep woken = some sendAsleep) :
    RecvSection m r { m.leaveRecv r with
      mpmc := m.mpmc.pop.2
      received := m.received ++ [m.mpmc.pop.1]
      sendAsleep }

omit [DecidableEq C] [Fintype S] in
theorem sendSection_spec (h : sendSection m s woken = some m') :
    SendSection m s m' ∧ (m.sender s).isSome ∧ m.sendAsleep s = false := by
  unfold sendSection at h
  split at h
  · cases h
  · next data blocking hs =>
    obtain ⟨hawake, h⟩ := Option.ite_none_left_eq_some.mp h
    refine ⟨?_, by rw [hs]; rfl, by simpa using hawake⟩
    split at h
    · next hfull =>
      obtain ⟨_, h⟩ := Option.ite_none_right_eq_some.mp h
      split at h
      · cases h
        exact .leave (.inr hfull)
      · next hwait =>
        cases h
        push Not at hwait
        obtain ⟨hopen, hblocking⟩ := hwait
        have hblocking : blocking = true := by simpa using hblocking
        subst hblocking
        exact .sleep data hs (by simpa using hopen) hfull
    · next hroom =>
      split at h
      · next hclosed =>
        obtain ⟨_, rfl⟩ := of_guard h
        exact .leave (.inl hclosed)
      · next hopen =>
        obtain ⟨recvAsleep, hsignal, rfl⟩ := Option.map_eq_some_iff.mp h
        exact .push data recvAsleep woken (by simpa using hopen) (by omega) hsignal

omit [DecidableEq C] [Fintype R] in
theorem recvSection_spec {woken : Option S} (h : recvSection m r woken = some m') :
    RecvSection m r m' ∧ (m.receiver r).isSome ∧ m.recvAsleep r = false := by
  unfold recvSection at h
  split at h
  · cases h
  · next blocking hr =>
    obtain ⟨hawake, h⟩ := Option.ite_none_left_eq_some.mp h
    refine ⟨?_, by rw [hr]; rfl, by simpa using hawake⟩
    split at h
    · next hempty =>
      obtain ⟨_, h⟩ := Option.ite_none_right_eq_some.mp h
      split at h
      · cases h
        exact .leave hempty
      · next hwait =>
        cases h
        push Not at hwait
        obtain ⟨hopen, hblocking⟩ := hwait
        have hblocking : blocking = true := by simpa using hblocking
        subst hblocking
        exact .sleep hr (by simpa using hopen) hempty
    · next hcount =>
      obtain ⟨sendAsleep, hsignal, rfl⟩ := Option.map_eq_some_iff.mp h
      exact .pop sendAsleep woken hcount hsignal

theorem BlockingInv.step (h : BlockingInv m) (hstep : blockingStep m a = some m') :
    BlockingInv m' := by
  cases a with
  | send s data len blocking =>
    obtain ⟨hs, hstep⟩ := Option.ite_none_right_eq_some.mp hstep
    split at hstep
    · cases hstep
      exact h
    · cases hstep
      exact h.send hs data blocking
  | sendSection s woken =>
    obtain ⟨hsection, _⟩ := sendSection_spec hstep
    cases hsection with
    | leave hno => exact h.leaveSend hno
    | sleep data hs hopen hfull => exact h.sleepSend hs hopen hfull
    | push data recvAsleep woken _ hroom hsignal => exact h.push hroom hsignal
  | wakeSend s =>
    obtain ⟨hs, rfl⟩ := of_guard hstep
    exact (h.endSendWait hs).1
  | timeoutSend s =>
    obtain ⟨hs, rfl⟩ := of_guard hstep
    exact (h.endSendWait hs).2
  | recv r bufLen blocking =>
    obtain ⟨hr, hstep⟩ := Option.ite_none_right_eq_some.mp hstep
    split at hstep
    · cases hstep
      exact h
    · cases hstep
      exact h.recv hr blocking
  | recvSection r woken =>
    obtain ⟨hsection, _⟩ := recvSection_spec hstep
    cases hsection with
    | leave hno => exact h.leaveRecv hno
    | sleep hr hopen hempty => exact h.sleepRecv hr hopen hempty
    | pop sendAsleep woken hcount hsignal => exact h.pop hcount hsignal
  | wakeRecv r =>
    obtain ⟨hr, rfl⟩ := of_guard hstep
    exact (h.endRecvWait hr).1
  | timeoutRecv r =>
    obtain ⟨hr, rfl⟩ := of_guard hstep
    exact (h.endRecvWait hr).2
  | close c =>
    obtain ⟨hc, rfl⟩ := of_guard hstep
    refine ⟨h.queued.congr rfl rfl rfl, ⟨h.sleeping.send, h.sleeping.recv⟩,
      ⟨fun _ _ => rfl, fun _ hnone => ?_⟩, h.elements, nofun⟩
    -- this closer still has its broadcast before it
    have hself := hnone c
    simp only [update_self] at hself
    cases hself
  | broadcast c =>
    obtain ⟨hc, rfl⟩ := of_guard hstep
    -- everybody is awake, and the free slots of a closed channel are of no use to senders
    have hclosed := h.closes.closed c hc
    exact ⟨h.queued.congr rfl rfl rfl, ⟨nofun, nofun⟩,
      ⟨fun _ _ => hclosed, fun _ _ => ⟨fun _ => rfl, fun _ => rfl⟩⟩, .awake fun _ => rfl,
      fun hopen => absurd (hclosed.symm.trans hopen) nofun⟩

theorem BlockingInv.run (h : BlockingInv m) {ok : BlockingChannel α S R C → _ → Prop}
    (hrun : Run blockingStep ok m as m') : BlockingInv m' :=
  hrun.invariant (fun _ _ _ h _ hstep => h.step hstep) h

/-- What a channel guarantees to its threads. -/
structure BlockingLaw (capacity : ℕ) (m : BlockingChannel α S R C) : Prop where
  /-- What was received is what was sent first, in the order of the copies. -/
  order : m.received <+: m.sent.map some
  buffered : m.sent.length = m.received.length + m.mpmc.count ∧ m.mpmc.count ≤ capacity
  /-- As long as a receiver sleeps, every element has a receiver of its own that is awake. -/
  elements : (∃ r, m.recvAsleep r) → m.mpmc.count ≤ (Finset.univ.filter m.RecvReady).card
  /-- As long as a sender sleeps, every free slot has a sender of its own that is awake. -/
  room : m.closed = false → (∃ s, m.sendAsleep s) →
    capacity - m.mpmc.count ≤ (Finset.univ.filter m.SendReady).card
  /-- When `loopyChannelClose` has returned nobody sleeps. -/
  closed : m.closed = true → (∀ c, m.closing c = false) →
    (∀ s, m.sendAsleep s = false) ∧ ∀ r, m.recvAsleep r = false

omit [DecidableEq C] [Fintype S] in
theorem SendSection.capacity (h : SendSection m s m') : m'.mpmc.capacity = m.mpmc.capacity := by
  cases h <;> rfl

omit [DecidableEq C] [Fintype R] in
theorem RecvSection.capacity (h : RecvSection m r m') : m'.mpmc.capacity = m.mpmc.capacity := by
  cases h <;> rfl

theorem blockingStep_capacity (hstep : blockingStep m a = some m') :
    m'.mpmc.capacity = m.mpmc.capacity := by
  cases a with
  | sendSection s woken => exact (sendSection_spec hstep).1.capacity
  | recvSection r woken => exact (recvSection_spec hstep).1.capacity
  | send | recv =>
    obtain ⟨_, hstep⟩ := Option.ite_none_right_eq_some.mp hstep
    split at hstep
    · cases hstep
      rfl
    · cases hstep
      rfl
  | wakeSend | timeoutSend | wakeRecv | timeoutRecv | close | broadcast =>
    obtain ⟨_, rfl⟩ := of_guard hstep
    rfl

omit [DecidableEq S] [DecidableEq R] [DecidableEq C] in
theorem BlockingInv.law {capacity : ℕ} (h : BlockingInv m) (hcap : m.mpmc.capacity = capacity) :
    BlockingLaw capacity m := by
  subst hcap
  refine ⟨h.queued.order, ⟨?_, h.queued.count_le⟩, h.elements, h.room, h.closes.awake⟩
  have hcount : m.mpmc.count = (m.sent.drop m.received.length).length := h.queued.rel.count
  have hle := h.queued.received_le
  rw [List.length_drop] at hcount
  omega

theorem run_capacity {capacity elementSize : ℕ}
    (hrun : Run blockingStep (fun _ _ => True) (.fresh α S R C capacity elementSize) as m) :
    m.mpmc.capacity = capacity := by
  refine hrun.invariant (P := fun m => m.mpmc.capacity = capacity) ?_ rfl
  intro m a m' hm _ hstep
  rw [blockingStep_capacity hstep, hm]

/-- **Senders and receivers in any number.** In every run, what was received is what was sent
first, each element once; nobody sleeps while there is something to do that is not taken care of;
and when `loopyChannelClose` has returned, nobody sleeps. -/
theorem blocking_channel {capacity : ℕ} (hcap : 1 ≤ capacity) (elementSize : ℕ)
    (as : List (BlockingAction α S R C)) (m : BlockingChannel α S R C)
    (hrun : Run blockingStep (fun _ _ => True) (.fresh α S R C capacity elementSize) as m) :
    BlockingLaw capacity m := by
  have hinv := (BlockingInv.fresh hcap elementSize).run hrun
  exact hinv.law (run_capacity hrun)

/-- Two receivers sleep, a sender wakes one of them; before it runs, a third receiver takes the
element, and it goes to sleep again. -/
theorem blocking_channel_stolen :
    ∃ m : BlockingChannel ℕ (Fin 2) (Fin 3) Unit, Run blockingStep (fun _ _ => True)
        (.fresh ℕ (Fin 2) (Fin 3) Unit 1 8)
        [.recv 0 8 true, .recvSection 0 none, .recv 1 8 true, .recvSection 1 none, .send 0 7 8 true,
          .sendSection 0 (some 1), .recv 2 8 false, .recvSection 2 none, .recvSection 1 none,
          .send 1 9 8 true] m ∧
      (m.received, m.recvAsleep 0, m.recvAsleep 1) = ([some 7], true, true) ∧
      BlockingLaw 1 m := by
  refine Run.exists_of_exec (f := fun m => (m.received, m.recvAsleep 0, m.recvAsleep 1))
    (b := ([some 7], true, true)) (by decide +kernel) fun m hrun hval => ⟨hval, ?_⟩
  exact blocking_channel (by decide) 8 _ m hrun

end Loopy.Channel
