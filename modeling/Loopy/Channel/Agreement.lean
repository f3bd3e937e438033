import Loopy.Lib.Transducer
import Loopy.Channel.Spsc

/-!
# SPSC and MPMC channels on one thread

Both implementations against one bounded FIFO with a closed flag. The MPMC channel is that
FIFO. The SPSC channel keeps the same queue, but answers two kinds of calls differently: a send
of the wrong length on an open channel is `FULL`, and a receive from a closed and drained
channel is `EMPTY`. The byte sizes of both buffers wrap, so that slots may lie outside.
`channels_agree_iff`: the answers of the two are the same on a sequence of calls, and all copies
within the buffers, if and only if none of its calls is of these kinds and the slots of the
accepted elements are there.
-/

namespace Loopy.Channel

open Loopy.Lib

variable {α : Type}

/-! ## Calls -/

/-- The non-blocking calls on a channel. -/
inductive Call (α : Type)
  | trySend (data : α) (len : ℕ)
  | tryRecv (bufLen : ℕ)
  | close
  | len
  | isFull
  | isEmpty
deriving DecidableEq, Repr

/-- What a call returns. -/
inductive Output (α : Type)
  | status (status : LoopyChannelStatus)
  | recv (result : RecvResult α)
  | closed
  | len (n : ℕ)
  | flag (b : Bool)
deriving DecidableEq, Repr

/-- One call on a channel. -/
def callStep (ch : LoopyChannel α) : Call α → Output α × LoopyChannel α
  | .trySend data len =>
    let (status, ch) := loopyChannelTrySend ch data len
    (.status status, ch)
  | .tryRecv bufLen =>
    let (result, ch) := loopyChannelTryRecv ch bufLen
    (.recv result, ch)
  | .close => (.closed, loopyChannelClose ch)
  | .len => (.len (loopyChannelLen ch), ch)
  | .isFull => (.flag (loopyChannelIsFull ch), ch)
  | .isEmpty => (.flag (loopyChannelIsEmpty ch), ch)

/-! ## The bounded FIFO -/

/-- A bounded FIFO with a closed flag. -/
structure Fifo (α : Type) where
  capacity : ℕ
  elementSize : ℕ
  queue : List α
  closed : Bool
deriving DecidableEq, Repr

/-- An empty, open FIFO. -/
def Fifo.fresh (α : Type) (capacity elementSize : ℕ) : Fifo α :=
  { capacity, elementSize, queue := [], closed := false }

/-- The status of a send. -/
def Fifo.sendStatus (f : Fifo α) (len : ℕ) : LoopyChannelStatus :=
  if f.closed then .CLOSED
  else if len ≠ f.elementSize then .INVALID
  else if f.capacity ≤ f.queue.length then .FULL
  else .OK

/-- The result of a receive. -/
def Fifo.recvResult (f : Fifo α) (bufLen : ℕ) : RecvResult α :=
  if bufLen < f.elementSize then .status .INVALID
  else
    match f.queue with
    | [] => .status (if f.closed then .CLOSED else .EMPTY)
    | x :: _ => .element (some x) f.elementSize

/-- The FIFO after a call. -/
def Fifo.next (f : Fifo α) : Call α → Fifo α
  | .trySend data len =>
    if f.sendStatus len = .OK then { f with queue := f.queue ++ [data] } else f
  | .tryRecv bufLen => if bufLen < f.elementSize then f else { f with queue := f.queue.tail }
  | .close => { f with closed := true }
  | .len | .isFull | .isEmpty => f

/-- What the FIFO answers. -/
def Fifo.answer (f : Fifo α) : Call α → Output α
  | .trySend _ len => .status (f.sendStatus len)
  | .tryRecv bufLen => .recv (f.recvResult bufLen)
  | .close => .closed
  | .len => .len f.queue.length
  | .isFull => .flag (f.capacity ≤ f.queue.length)
  | .isEmpty => .flag (f.queue.length = 0)

/-- The two kinds of calls that the SPSC channel answers in its own way do not occur. -/
def Agreeable (f : Fifo α) : Call α → Prop
  | .trySend _ len => f.closed = true ∨ len = f.elementSize
  | .tryRecv bufLen => ¬ (f.closed = true ∧ f.queue = [] ∧ f.elementSize ≤ bufLen)
  | .close | .len | .isFull | .isEmpty => True

/-- What the SPSC channel answers. -/
def Fifo.spscAnswer (f : Fifo α) : Call α → Output α
  | .trySend data len =>
    if f.closed = false ∧ len ≠ f.elementSize then .status .FULL else f.answer (.trySend data len)
  | .tryRecv bufLen =>
    if f.closed = true ∧ f.queue = [] ∧ f.elementSize ≤ bufLen then .recv (.status .EMPTY)
    else f.answer (.tryRecv bufLen)
  | c => f.answer c

/-- The FIFO as a machine with outputs. -/
def Fifo.step (f : Fifo α) (c : Call α) : Output α × Fifo α := (f.answer c, f.next c)

/-- The FIFO with the answers of the SPSC channel. -/
def Fifo.spscStep (f : Fifo α) (c : Call α) : Output α × Fifo α := (f.spscAnswer c, f.next c)

/-- Where an SPSC channel answers as the queue does. -/
theorem spscAnswer_eq_iff (f : Fifo α) (c : Call α) :
    (f.spscStep c).1 = (f.step c).1 ↔ Agreeable f c := by
  show f.spscAnswer c = f.answer c ↔ _
  cases c with
  | trySend data len =>
    simp only [Fifo.spscAnswer, Fifo.answer, Fifo.sendStatus, Agreeable]
    by_cases hclosed : f.closed = true
    · simp [hclosed]
    · by_cases hlen : len = f.elementSize
      · simp [hlen]
      · simp [hclosed, hlen]
  | tryRecv bufLen =>
    simp only [Fifo.spscAnswer, Fifo.answer, Fifo.recvResult, Agreeable]
    by_cases hdrained : f.closed = true ∧ f.queue = [] ∧ f.elementSize ≤ bufLen
    · obtain ⟨hclosed, hqueue, hle⟩ := hdrained
      have hlong : ¬ bufLen < f.elementSize := by omega
      simp [hclosed, hqueue, hle, hlong]
    · simp [hdrained]
  | close | len | isFull | isEmpty => simp [Fifo.spscAnswer, Agreeable]

/-! ## The SPSC channel -/

section SpscCalls

variable {spsc : LoopyChannelSPSC α} {sent : List α} {received : List (Option α)}

/-- A slot behind the sent elements can be written. -/
theorem RingInv.push (h : RingInv spsc sent received) (hroom : Room spsc sent received) (data : α) :
    RingInv (spsc.push data spsc.head) (sent ++ [data]) received :=
  (h.write (some data)).publish hroom (Function.update_self _ _ _)

/-- A refreshed tail is exact. -/
theorem RingInv.looksFull_tail (h : RingInv spsc sent received) :
    spsc.looksFull spsc.head spsc.tail ↔ received.length + spsc.capacity ≤ sent.length := by
  have hsent := h.sent_le
  have hcap := h.capacity_le
  rw [h.head_eq, h.tail_eq]
  exact h.toShape.looksFull_iff h.received_le (by omega)

/-- A send finds the ring full or has room. -/
theorem spscTrySend_spec (h : RingInv spsc sent received) (data : α) :
    (received.length + spsc.capacity ≤ sent.length ∧
        (spscTrySend spsc data spsc.elementSize).1 = false ∧
        RingInv (spscTrySend spsc data spsc.elementSize).2 sent received) ∨
      (sent.length < received.length + spsc.capacity ∧
        (spscTrySend spsc data spsc.elementSize).1 = true ∧
        RingInv (spscTrySend spsc data spsc.elementSize).2 (sent ++ [data]) received) := by
  simp only [spscTrySend, ne_eq, not_true_eq_false, if_false]
  by_cases hcached : spsc.looksFull spsc.head spsc.cachedTail
  · have hfresh : RingInv { spsc with cachedTail := spsc.tail } sent received := by
      have := h.cacheTail le_rfl h.sent_le
      rwa [← h.tail_eq] at this
    have hiff : LoopyChannelSPSC.looksFull { spsc with cachedTail := spsc.tail } spsc.head
        spsc.tail ↔ received.length + spsc.capacity ≤ sent.length := hfresh.looksFull_tail
    simp only [if_pos hcached]
    by_cases hfull : received.length + spsc.capacity ≤ sent.length
    · left
      rw [if_pos (hiff.mpr hfull)]
      exact ⟨hfull, rfl, hfresh⟩
    · right
      rw [if_neg (mt hiff.mp hfull)]
      refine ⟨by omega, rfl, hfresh.push ⟨received.length, h.tail_eq, le_rfl, ?_⟩ data⟩
      show sent.length + 1 ≤ received.length + spsc.capacity
      omega
  · right
    have hroom := h.room_of_not_looksFull hcached
    simp only [if_neg hcached]
    refine ⟨?_, trivial, h.push hroom data⟩
    obtain ⟨n, _, hle, hlt⟩ := hroom
    omega

/-- A receive finds it empty or has an element. -/
theorem spscTryRecv_spec (h : RingInv spsc sent received) {bufLen : ℕ}
    (hbuf : spsc.elementSize ≤ bufLen) :
    (sent.length = received.length ∧ (spscTryRecv spsc bufLen).1 = .status .EMPTY ∧
        RingInv (spscTryRecv spsc bufLen).2 sent received) ∨
      ∃ x, sent[received.length]? = some x ∧
        (spscTryRecv spsc bufLen).1 = .element (some x) spsc.elementSize ∧
        RingInv (spscTryRecv spsc bufLen).2 sent (received ++ [some x]) := by
  have hlong : ¬ bufLen < spsc.elementSize := by omega
  simp only [spscTryRecv, if_neg hlong]
  by_cases hcached : spsc.tail = spsc.cachedHead
  · have hfresh : RingInv { spsc with cachedHead := spsc.head } sent received := by
      have := h.cacheHead h.received_le le_rfl
      rwa [← h.head_eq] at this
    have hne := h.tail_ne_iff h.received_le le_rfl
    rw [← h.head_eq] at hne
    simp only [if_pos hcached]
    by_cases hempty : spsc.tail = spsc.head
    · left
      have hrec := h.received_le
      have hnot : ¬ received.length + 1 ≤ sent.length := fun hge => hne.mpr hge hempty
      rw [if_pos hempty]
      exact ⟨by omega, rfl, hfresh⟩
    · right
      have hunread : Unread { spsc with cachedHead := spsc.head } sent received :=
        ⟨sent.length, h.head_eq, hne.mp hempty, le_rfl⟩
      obtain ⟨x, hx, hslot⟩ := hfresh.next hunread
      rw [if_neg hempty]
      refine ⟨x, hx, ?_, hfresh.take hunread hx⟩
      rw [← hslot]
      rfl
  · right
    obtain ⟨n, hn, hge, hle⟩ := h.cachedHead
    have hunread : Unread spsc sent received :=
      ⟨n, hn, (h.tail_ne_iff hge hle).mp (hn ▸ hcached), hle⟩
    obtain ⟨x, hx, hslot⟩ := h.next hunread
    simp only [if_neg hcached]
    refine ⟨x, hx, ?_, h.take hunread hx⟩
    rw [← hslot]
    rfl

/-- A send stores the cached tail at most, or fills the slot of `head` and moves `head`. -/
theorem spscTrySend_cases (spsc : LoopyChannelSPSC α) (data : α) (len : ℕ) :
    ∃ t, spscTrySend spsc data len = (false, { spsc with cachedTail := t }) ∨
      spscTrySend spsc data len =
        (true, LoopyChannelSPSC.push { spsc with cachedTail := t } data spsc.head) := by
  unfold spscTrySend
  dsimp only
  split
  · exact ⟨spsc.cachedTail, .inl rfl⟩
  · split
    · split
      · exact ⟨spsc.tail, .inl rfl⟩
      · exact ⟨spsc.tail, .inr rfl⟩
    · exact ⟨spsc.cachedTail, .inr rfl⟩

/-- A receive stores the cached head at most, or takes the slot of `tail` and moves `tail`. -/
theorem spscTryRecv_cases (spsc : LoopyChannelSPSC α) (bufLen : ℕ) :
    ∃ h, (∃ status, spscTryRecv spsc bufLen = (.status status, { spsc with cachedHead := h })) ∨
      spscTryRecv spsc bufLen = LoopyChannelSPSC.pop { spsc with cachedHead := h } spsc.tail := by
  unfold spscTryRecv
  dsimp only
  split
  · exact ⟨spsc.cachedHead, .inl ⟨_, rfl⟩⟩
  · split
    · split
      · exact ⟨spsc.head, .inl ⟨_, rfl⟩⟩
      · exact ⟨spsc.head, .inr rfl⟩
    · exact ⟨spsc.cachedHead, .inr rfl⟩

/-- No send changes the dimensions of a ring. -/
theorem spscTrySend_frame (spsc : LoopyChannelSPSC α) (data : α) (len : ℕ) :
    (spscTrySend spsc data len).2.capacity = spsc.capacity ∧
      (spscTrySend spsc data len).2.elementSize = spsc.elementSize := by
  obtain ⟨t, h | h⟩ := spscTrySend_cases spsc data len <;> rw [h] <;> exact ⟨rfl, rfl⟩

/-- No receive changes the dimensions of a ring. -/
theorem spscTryRecv_frame (spsc : LoopyChannelSPSC α) (bufLen : ℕ) :
    (spscTryRecv spsc bufLen).2.capacity = spsc.capacity ∧
      (spscTryRecv spsc bufLen).2.elementSize = spsc.elementSize := by
  obtain ⟨t, ⟨_, h⟩ | h⟩ := spscTryRecv_cases spsc bufLen <;> rw [h] <;> exact ⟨rfl, rfl⟩

end SpscCalls

/-- The ring of an SPSC channel holds the queue of the FIFO. -/
structure SpscRel (spsc : LoopyChannelSPSC α) (f : Fifo α) : Prop where
  capacity : spsc.capacity = f.capacity
  elementSize : spsc.elementSize = f.elementSize
  ring : ∃ sent received, RingInv spsc sent received ∧ f.queue = sent.drop received.length

variable {spsc : LoopyChannelSPSC α} {f : Fifo α} {n : ℕ}

/-- **A send is one of the queue**, with FULL for every refusal. -/
theorem SpscRel.trySend (h : SpscRel spsc f) (data : α) (len : ℕ) (hclosed : f.closed = false) :
    (if (spscTrySend spsc data len).1 then LoopyChannelStatus.OK else .FULL) =
        (if len ≠ f.elementSize then .FULL else f.sendStatus len) ∧
      SpscRel (spscTrySend spsc data len).2 (f.next (.trySend data len)) := by
  obtain ⟨sent, received, hring, hqueue⟩ := h.ring
  have hframe := spscTrySend_frame spsc data len
  have hlength : f.queue.length = sent.length - received.length := by
    rw [hqueue, List.length_drop]
  have hrec := hring.received_le
  have hcap := h.capacity
  by_cases hlen : len = f.elementSize
  · rw [hlen, ← h.elementSize] at hframe ⊢
    rw [if_neg (not_not.mpr rfl)]
    rcases spscTrySend_spec hring data with ⟨hfull, hresult, hring'⟩ | ⟨hroom, hresult, hring'⟩
    · have hstatus : f.sendStatus spsc.elementSize = .FULL := by
        simp only [Fifo.sendStatus, hclosed, h.elementSize]
        rw [if_neg (by simp), if_neg (by simp), if_pos (by omega)]
      rw [hresult, hstatus, Fifo.next, hstatus]
      exact ⟨rfl, hframe.1.trans h.capacity, hframe.2.trans h.elementSize, sent, received, hring',
        hqueue⟩
    · have hstatus : f.sendStatus spsc.elementSize = .OK := by
        simp only [Fifo.sendStatus, hclosed, h.elementSize]
        rw [if_neg (by simp), if_neg (by simp), if_neg (by omega)]
      rw [hresult, hstatus, Fifo.next, hstatus]
      refine ⟨rfl, hframe.1.trans h.capacity, hframe.2.trans h.elementSize, sent ++ [data],
        received, hring', ?_⟩
      show f.queue ++ [data] = _
      rw [hqueue, List.drop_append_of_le_length hrec]
  · have hne : len ≠ spsc.elementSize := fun he => hlen (he.trans h.elementSize)
    have hstatus : f.sendStatus len = .INVALID := by
      simp [Fifo.sendStatus, hclosed, hlen]
    rw [spscTrySend, if_pos hne, if_pos hlen, Fifo.next, hstatus]
    exact ⟨rfl, h⟩

/-- **A receive is one of the queue.**. -/
theorem SpscRel.tryRecv (h : SpscRel spsc f) (bufLen : ℕ) :
    (spscTryRecv spsc bufLen).1 =
        (if f.queue = [] ∧ f.elementSize ≤ bufLen then .status .EMPTY else f.recvResult bufLen) ∧
      SpscRel (spscTryRecv spsc bufLen).2 (f.next (.tryRecv bufLen)) := by
  obtain ⟨sent, received, hring, hqueue⟩ := h.ring
  have hframe := spscTryRecv_frame spsc bufLen
  have hsize := h.elementSize
  by_cases hshort : bufLen < f.elementSize
  · rw [spscTryRecv, if_pos (by omega), if_neg (by omega), Fifo.recvResult, if_pos hshort, Fifo.next,
      if_pos hshort]
    exact ⟨rfl, h⟩
  · rw [Fifo.next, if_neg hshort]
    rcases spscTryRecv_spec hring (by omega : spsc.elementSize ≤ bufLen) with
      ⟨hempty, hresult, hring'⟩ | ⟨x, hx, hresult, hring'⟩
    · have hnil : f.queue = [] := by
        rw [hqueue]
        exact List.drop_eq_nil_of_le hempty.le
      rw [hresult, if_pos ⟨hnil, by omega⟩]
      refine ⟨rfl, hframe.1.trans h.capacity, hframe.2.trans h.elementSize, sent, received, hring',
        ?_⟩
      show f.queue.tail = _
      rw [← hqueue, hnil]
      rfl
    · obtain ⟨hlt, hget⟩ := List.getElem?_eq_some_iff.mp hx
      have hcons : f.queue = x :: sent.drop (received.length + 1) := by
        rw [hqueue, List.drop_eq_getElem_cons hlt, hget]
      rw [hresult, if_neg (by simp [hcons]), Fifo.recvResult, if_neg hshort, hcons, hsize]
      refine ⟨rfl, hframe.1.trans h.capacity, hframe.2.trans h.elementSize, sent,
        received ++ [some x], hring', ?_⟩
      rw [List.length_append]
      rfl

/-- The length is that of the queue. -/
theorem SpscRel.len (h : SpscRel spsc f) : spscLen spsc = f.queue.length := by
  obtain ⟨sent, received, hring, hqueue⟩ := h.ring
  have hsent := hring.sent_le
  have hcap := hring.capacity_le
  have hmask := hring.toShape.mask_lt
  rw [hqueue, List.length_drop, spscLen, hring.head_eq, hring.tail_eq,
    sizeSub_mod hring.received_le (by omega)]

theorem SpscRel.isEmpty (h : SpscRel spsc f) : spscIsEmpty spsc = decide (f.queue.length = 0) := by
  obtain ⟨sent, received, hring, hqueue⟩ := h.ring
  have hrec := hring.received_le
  have hne := hring.tail_ne_iff hrec le_rfl
  rw [← hring.head_eq] at hne
  rw [hqueue, List.length_drop, spscIsEmpty, decide_eq_decide]
  constructor
  · intro heq
    have := mt hne.mpr (not_not.mpr heq.symm)
    omega
  · intro hzero
    by_contra hneq
    have := hne.mp fun he => hneq he.symm
    omega

/-- An SPSC channel and its FIFO. -/
def SpscChannelRel (ch : LoopyChannel α) (f : Fifo α) : Prop :=
  ch.closed = f.closed ∧ ∃ spsc, ch.impl = .spsc spsc ∧ SpscRel spsc f

/-- **Every call of an SPSC channel is a call of its queue.**. -/
theorem spscChannel_simulates (ch : LoopyChannel α) (f : Fifo α) (c : Call α)
    (h : SpscChannelRel ch f) :
    (callStep ch c).1 = (f.spscStep c).1 ∧ SpscChannelRel (callStep ch c).2 (f.spscStep c).2 := by
  show (callStep ch c).1 = f.spscAnswer c ∧ SpscChannelRel (callStep ch c).2 (f.next c)
  obtain ⟨impl, closed⟩ := ch
  obtain ⟨hclosed, spsc, himpl, hrel⟩ := h
  obtain rfl : impl = .spsc spsc := himpl
  obtain rfl : closed = f.closed := hclosed
  cases c with
  | trySend data len =>
    by_cases hshut : f.closed = true
    · have hstatus : f.sendStatus len = .CLOSED := by simp [Fifo.sendStatus, hshut]
      simp only [callStep, loopyChannelTrySend, hshut, if_true, Fifo.spscAnswer, Fifo.answer,
        Fifo.next, hstatus]
      exact ⟨rfl, hshut.symm, spsc, rfl, hrel⟩
    · have hopen : f.closed = false := Bool.eq_false_iff.mpr hshut
      obtain ⟨hstatus, hnext⟩ := hrel.trySend data len hopen
      simp only [callStep, loopyChannelTrySend, hopen, Fifo.spscAnswer, Fifo.answer,
        true_and, Bool.false_eq_true, if_false, hstatus]
      refine ⟨?_, ?_, _, rfl, hnext⟩
      · split <;> rfl
      · simp only [Fifo.next]
        split
        · exact hopen.symm
        · exact hopen.symm
  | tryRecv bufLen =>
    obtain ⟨hresult, hnext⟩ := hrel.tryRecv bufLen
    simp only [callStep, loopyChannelTryRecv, Fifo.spscAnswer, Fifo.answer, hresult]
    refine ⟨?_, ?_, _, rfl, hnext⟩
    · by_cases hdrained : f.queue = [] ∧ f.elementSize ≤ bufLen
      · rw [if_pos hdrained]
        by_cases hshut : f.closed = true
        · rw [if_pos ⟨hshut, hdrained⟩]
        · have hlong : ¬ bufLen < f.elementSize := by omega
          rw [if_neg fun hand => hshut hand.1, Fifo.recvResult, if_neg hlong, hdrained.1]
          simp [hshut]
      · rw [if_neg hdrained, if_neg fun hand => hdrained hand.2]
    · simp only [Fifo.next]
      split <;> rfl
  | close => exact ⟨rfl, rfl, spsc, rfl, hrel.capacity, hrel.elementSize, hrel.ring⟩
  | len => exact ⟨congrArg Output.len hrel.len, rfl, spsc, rfl, hrel⟩
  | isFull =>
    refine ⟨?_, rfl, spsc, rfl, hrel⟩
    have hlen : sizeSub spsc.head spsc.tail = f.queue.length := hrel.len
    simp only [callStep, loopyChannelIsFull, spscIsFull, Fifo.spscAnswer, Fifo.answer, hlen,
      hrel.capacity, ge_iff_le]
  | isEmpty => exact ⟨congrArg Output.flag hrel.isEmpty, rfl, spsc, rfl, hrel⟩

/-! ## The MPMC channel -/

/-- The ring of an MPMC channel holds the queue of the FIFO. -/
structure MpmcRel (mpmc : LoopyChannelMPMC α) (f : Fifo α) : Prop where
  capacity : mpmc.capacity = f.capacity
  elementSize : mpmc.elementSize = f.elementSize
  count : mpmc.count = f.queue.length
  count_le : f.queue.length ≤ f.capacity
  tail_lt : mpmc.tail < mpmc.capacity
  head_eq : mpmc.head = (mpmc.tail + mpmc.count) % mpmc.capacity
  slots : ∀ i x, f.queue[i]? = some x → mpmc.buffer ((mpmc.tail + i) % mpmc.capacity) = some x

/-- Positions less than a ring apart have different slots. -/
theorem mod_slot_ne {t i c : ℕ} (hi : i < n) (hn : n < c) : (t + i) % c ≠ (t + n) % c := by
  intro heq
  have hmod : i ≡ n [MOD c] := Nat.ModEq.add_left_cancel' t heq
  have := hmod.eq_of_lt_of_lt (by omega) hn
  omega

variable {mpmc : LoopyChannelMPMC α} {out : Output α} {c : Call α} {capacity : ℕ}

/-- What is written last is last in the queue. -/
theorem MpmcRel.push (h : MpmcRel mpmc f) (hroom : f.queue.length < f.capacity) (data : α) :
    MpmcRel (mpmc.push data) { f with queue := f.queue ++ [data] } := by
  have hcap := h.capacity
  have hcount := h.count
  refine ⟨h.capacity, h.elementSize, ?_, ?_, h.tail_lt, ?_, fun i x hx => ?_⟩
  · simp [LoopyChannelMPMC.push, hcount]
  · rw [List.length_append, List.length_singleton]
    exact hroom
  · show (mpmc.head + 1) % mpmc.capacity = (mpmc.tail + (mpmc.count + 1)) % mpmc.capacity
    rw [h.head_eq, Nat.mod_add_mod, Nat.add_assoc]
  · show Function.update mpmc.buffer mpmc.head (some data) ((mpmc.tail + i) % mpmc.capacity) = some x
    rw [h.head_eq, hcount]
    by_cases hi : i < f.queue.length
    · rw [List.getElem?_append_left hi] at hx
      rw [Function.update_of_ne (mod_slot_ne hi (by omega))]
      exact h.slots i x hx
    · rw [List.getElem?_append_right (by omega), List.getElem?_singleton] at hx
      split at hx
      · obtain rfl : i = f.queue.length := by omega
        rw [Function.update_self]
        exact hx
      · cases hx

/-- What is taken was first. -/
theorem MpmcRel.pop (h : MpmcRel mpmc f) {x : α} {rest : List α} (hqueue : f.queue = x :: rest) :
    mpmc.pop.1 = some x ∧ MpmcRel mpmc.pop.2 { f with queue := rest } := by
  have hpos : 0 < mpmc.capacity := lt_of_le_of_lt (Nat.zero_le _) h.tail_lt
  have hcount := h.count
  have hle := h.count_le
  rw [hqueue, List.length_cons] at hcount hle
  refine ⟨?_, h.capacity, h.elementSize, ?_, by show rest.length ≤ f.capacity; omega,
    Nat.mod_lt _ hpos, ?_, fun i y hy => ?_⟩
  · have hslot := h.slots 0 x (by rw [hqueue]; rfl)
    rw [Nat.add_zero, Nat.mod_eq_of_lt h.tail_lt] at hslot
    exact hslot
  · show mpmc.count - 1 = rest.length
    omega
  · show mpmc.head = ((mpmc.tail + 1) % mpmc.capacity + (mpmc.count - 1)) % mpmc.capacity
    rw [h.head_eq, Nat.mod_add_mod]
    congr 1
    omega
  · show mpmc.buffer (((mpmc.tail + 1) % mpmc.capacity + i) % mpmc.capacity) = some y
    have hslot := h.slots (i + 1) y (by rw [hqueue, List.getElem?_cons_succ]; exact hy)
    rw [Nat.mod_add_mod, show mpmc.tail + 1 + i = mpmc.tail + (i + 1) by omega]
    exact hslot

/-- An MPMC channel and its FIFO. -/
def MpmcChannelRel (ch : LoopyChannel α) (f : Fifo α) : Prop :=
  ch.closed = f.closed ∧ ∃ mpmc, ch.impl = .mpmc mpmc ∧ MpmcRel mpmc f

/-- **Every call of an MPMC channel is the call of the queue.**. -/
theorem mpmcChannel_simulates (ch : LoopyChannel α) (f : Fifo α) (c : Call α)
    (h : MpmcChannelRel ch f) :
    (callStep ch c).1 = (f.step c).1 ∧ MpmcChannelRel (callStep ch c).2 (f.step c).2 := by
  show (callStep ch c).1 = f.answer c ∧ MpmcChannelRel (callStep ch c).2 (f.next c)
  obtain ⟨impl, closed⟩ := ch
  obtain ⟨hclosed, mpmc, himpl, hrel⟩ := h
  obtain rfl : impl = .mpmc mpmc := himpl
  obtain rfl : closed = f.closed := hclosed
  have hcap := hrel.capacity
  have hcount := hrel.count
  have hsize := hrel.elementSize
  cases c with
  | trySend data len =>
    simp only [callStep, loopyChannelTrySend, mpmcTrySend, Fifo.answer, Fifo.next, Fifo.sendStatus,
      hcap, hcount, hsize]
    by_cases hshut : f.closed = true
    · simp only [hshut, if_true]
      exact ⟨trivial, hshut.symm, mpmc, rfl, hrel⟩
    · have hopen : f.closed = false := Bool.eq_false_iff.mpr hshut
      simp only [hopen, Bool.false_eq_true, if_false]
      by_cases hlen : len ≠ f.elementSize
      · simp only [if_pos hlen]
        exact ⟨trivial, hopen.symm, mpmc, rfl, hrel⟩
      · simp only [if_neg hlen]
        by_cases hfull : f.capacity ≤ f.queue.length
        · simp only [ge_iff_le, if_pos hfull]
          exact ⟨trivial, hopen.symm, mpmc, rfl, hrel⟩
        · have hpush := hrel.push (not_le.mp hfull) data
          rw [hopen] at hpush
          simp only [ge_iff_le, if_neg hfull, if_true]
          exact ⟨trivial, rfl, _, rfl, hpush⟩
  | tryRecv bufLen =>
    simp only [callStep, loopyChannelTryRecv, mpmcTryRecv, Fifo.answer, Fifo.next, Fifo.recvResult,
      hcount, hsize]
    by_cases hshort : bufLen < f.elementSize
    · simp only [if_pos hshort]
      exact ⟨trivial, rfl, mpmc, rfl, hrel⟩
    · simp only [if_neg hshort]
      cases hqueue : f.queue with
      | nil =>
        refine ⟨rfl, rfl, mpmc, rfl, ?_⟩
        have : { f with queue := [] } = f := by rw [← hqueue]
        rw [List.tail_nil, this]
        exact hrel
      | cons x rest =>
        obtain ⟨hpop, hrel'⟩ := hrel.pop hqueue
        simp only [List.length_cons, Nat.add_one_ne_zero, if_false, hpop, List.tail_cons]
        exact ⟨trivial, rfl, _, rfl, hrel'⟩
  | close => exact ⟨rfl, rfl, mpmc, rfl, ⟨hcap, hsize, hcount, hrel.count_le, hrel.tail_lt,
      hrel.head_eq, hrel.slots⟩⟩
  | len => exact ⟨congrArg Output.len hcount, rfl, mpmc, rfl, hrel⟩
  | isFull =>
    refine ⟨?_, rfl, mpmc, rfl, hrel⟩
    simp only [callStep, loopyChannelIsFull, mpmcIsFull, Fifo.answer, hcap, hcount, ge_iff_le]
  | isEmpty =>
    refine ⟨?_, rfl, mpmc, rfl, hrel⟩
    simp only [callStep, loopyChannelIsEmpty, mpmcIsEmpty, Fifo.answer, hcount]

/-! ## The copies -/

/-- The slots of a ring: one more than the mask of an SPSC channel. -/
def Impl.slots : Impl α → ℕ
  | .spsc ring => ring.mask + 1
  | .mpmc ring => ring.capacity

/-- The bytes allocated. -/
def Impl.bufferSize : Impl α → ℕ
  | .spsc ring => ring.bufferSize
  | .mpmc ring => ring.bufferSize

def Impl.elementSize : Impl α → ℕ
  | .spsc ring => ring.elementSize
  | .mpmc ring => ring.elementSize

/-- The slot that a send copies to. -/
def Impl.headSlot : Impl α → ℕ
  | .spsc ring => ring.slot ring.head
  | .mpmc ring => ring.head

/-- The slot that a receive copies from. -/
def Impl.tailSlot : Impl α → ℕ
  | .spsc ring => ring.slot ring.tail
  | .mpmc ring => ring.tail

/-- The answer to a send that was accepted. -/
def Output.sends : Output α → Bool
  | .status .OK => true
  | _ => false

/-- The answer to a receive that took an element. -/
def Output.receives : Output α → Bool
  | .recv (.element _ _) => true
  | _ => false

/-- What a call copies, it copies to or from a slot within the buffer. -/
def CopyInBuffer (ch : LoopyChannel α) (c : Call α) : Prop :=
  ((callStep ch c).1.sends = true →
      InBuffer ch.impl.bufferSize ch.impl.elementSize ch.impl.headSlot) ∧
    ((callStep ch c).1.receives = true →
      InBuffer ch.impl.bufferSize ch.impl.elementSize ch.impl.tailSlot)

/-- The sends that a FIFO accepts. -/
def Fifo.accepted (f : Fifo α) (cs : List (Call α)) : ℕ :=
  (outputs Fifo.step f cs).countP Output.sends

/-- The slots that `n` accepted elements use are within the `slots * elementSize` bytes, a
`size_t`, of the buffer. -/
def SlotsFit (slots elementSize n : ℕ) : Prop :=
  min n slots * elementSize ≤ slots * elementSize % 2 ^ 64

instance (slots elementSize n : ℕ) : Decidable (SlotsFit slots elementSize n) :=
  inferInstanceAs (Decidable (_ ≤ _))

/-- All slots are within a buffer whose size does not wrap. -/
theorem slotsFit_of_lt {slots elementSize : ℕ} (h : slots * elementSize < 2 ^ 64) (n : ℕ) :
    SlotsFit slots elementSize n := by
  rw [SlotsFit, Nat.mod_eq_of_lt h]
  exact Nat.mul_le_mul_right _ (min_le_right _ _)

/-- Fewer elements fit where more did. -/
theorem SlotsFit.mono {slots elementSize m : ℕ} (h : SlotsFit slots elementSize n) (hle : m ≤ n) :
    SlotsFit slots elementSize m :=
  (Nat.mul_le_mul_right _ (min_le_min_right _ hle)).trans h

/-- Where they fit, every slot that is used is in the buffer. -/
theorem SlotsFit.inBuffer {slots elementSize p : ℕ} (h : SlotsFit slots elementSize n)
    (hpos : 0 < slots) (hlt : p < n) :
    InBuffer (slots * elementSize % 2 ^ 64) elementSize (p % slots) := by
  have hle := Nat.mod_le p slots
  have hmod := Nat.mod_lt p hpos
  exact (Nat.mul_le_mul_right _ (by omega)).trans h

/-- One element more fits exactly if its slot does. -/
theorem SlotsFit.succ_iff {slots elementSize : ℕ} (h : SlotsFit slots elementSize n)
    (hpos : 0 < slots) : InBuffer (slots * elementSize % 2 ^ 64) elementSize (n % slots) ↔
      SlotsFit slots elementSize (n + 1) := by
  constructor
  · intro hin
    by_cases hlt : n < slots
    · rw [Nat.mod_eq_of_lt hlt] at hin
      rw [SlotsFit, min_eq_left (by omega)]
      exact hin
    · rw [SlotsFit, min_eq_right (by omega)] at h ⊢
      exact h
  · exact fun hfit => hfit.inBuffer hpos (Nat.lt_succ_self n)

/-- What a call that answers `out` does to the dimensions and the indices of a channel. -/
structure Advances (impl : Impl α) (out : Output α) (impl' : Impl α) : Prop where
  slots : impl'.slots = impl.slots
  bufferSize : impl'.bufferSize = impl.bufferSize
  elementSize : impl'.elementSize = impl.elementSize
  head : impl'.headSlot =
    if out.sends = true then (impl.headSlot + 1) % impl.slots else impl.headSlot
  tail : impl'.tailSlot =
    if out.receives = true then (impl.tailSlot + 1) % impl.slots else impl.tailSlot

/-- A call that copies nothing advances nothing. -/
theorem Advances.refl (impl : Impl α) (hs : out.sends = false) (hr : out.receives = false) :
    Advances impl out impl :=
  ⟨rfl, rfl, rfl, by rw [if_neg (by simp [hs])], by rw [if_neg (by simp [hr])]⟩

/-- The slot after that of a running index. -/
theorem Shape.slot_succ (h : Shape spsc) (i : ℕ) :
    spsc.slot ((i + 1) % 2 ^ 64) = (spsc.slot i + 1) % (spsc.mask + 1) := by
  obtain ⟨k, hk, hmask⟩ := h.pow
  have hdvd : 2 ^ k ∣ 2 ^ 64 := Nat.pow_dvd_pow 2 hk
  have hpos : 0 < 2 ^ k := Nat.two_pow_pos k
  rw [LoopyChannelSPSC.slot, LoopyChannelSPSC.slot, hmask, and_mask, and_mask,
    Nat.mod_mod_of_dvd _ hdvd, Nat.sub_add_cancel hpos, Nat.mod_add_mod]

/-- An SPSC call copies at its index, or not at all. -/
theorem spscCall_advances (h : Shape spsc) (closed : Bool) (c : Call α) :
    Advances (.spsc spsc) (callStep ⟨.spsc spsc, closed⟩ c).1
      (callStep ⟨.spsc spsc, closed⟩ c).2.impl := by
  cases c with
  | trySend data len =>
    by_cases hshut : closed = true
    · simp only [callStep, loopyChannelTrySend, if_pos hshut]
      exact .refl _ rfl rfl
    · simp only [callStep, loopyChannelTrySend, if_neg hshut]
      obtain ⟨t, hcall | hcall⟩ := spscTrySend_cases spsc data len
      · rw [hcall]
        exact ⟨rfl, rfl, rfl, rfl, rfl⟩
      · rw [hcall]
        exact ⟨rfl, rfl, rfl, h.slot_succ spsc.head, rfl⟩
  | tryRecv bufLen =>
    simp only [callStep, loopyChannelTryRecv]
    obtain ⟨t, ⟨status, hcall⟩ | hcall⟩ := spscTryRecv_cases spsc bufLen
    · rw [hcall]
      exact ⟨rfl, rfl, rfl, rfl, rfl⟩
    · rw [hcall]
      exact ⟨rfl, rfl, rfl, rfl, h.slot_succ spsc.tail⟩
  | close | len | isFull | isEmpty => exact .refl _ rfl rfl

/-- So does an MPMC call. -/
theorem mpmcCall_advances (mpmc : LoopyChannelMPMC α) (closed : Bool) (c : Call α) :
    Advances (.mpmc mpmc) (callStep ⟨.mpmc mpmc, closed⟩ c).1
      (callStep ⟨.mpmc mpmc, closed⟩ c).2.impl := by
  cases c with
  | trySend data len =>
    simp only [callStep, loopyChannelTrySend, mpmcTrySend]
    split
    · exact .refl _ rfl rfl
    · split
      · exact .refl _ rfl rfl
      · split
        · exact .refl _ rfl rfl
        · exact ⟨rfl, rfl, rfl, rfl, rfl⟩
  | tryRecv bufLen =>
    simp only [callStep, loopyChannelTryRecv, mpmcTryRecv]
    split
    · exact .refl _ rfl rfl
    · split
      · exact .refl _ rfl rfl
      · exact ⟨rfl, rfl, rfl, rfl, rfl⟩
  | close | len | isFull | isEmpty => exact .refl _ rfl rfl

/-- A call adds what it sends to the queue and removes what it receives. -/
theorem Fifo.length_next (f : Fifo α) (c : Call α) :
    (f.next c).queue.length + (f.answer c).receives.toNat =
      f.queue.length + (f.answer c).sends.toNat := by
  cases c with
  | trySend data len =>
    by_cases hok : f.sendStatus len = .OK
    · simp [Fifo.next, Fifo.answer, hok, Output.sends, Output.receives]
    · have hsends : (f.answer (.trySend data len)).sends = false := by
        simp only [Fifo.answer, Output.sends]
        split
        · next heq => exact absurd (Output.status.inj heq) hok
        · rfl
      have hnext : f.next (.trySend data len) = f := if_neg hok
      rw [hsends, hnext]
      rfl
  | tryRecv bufLen =>
    by_cases hshort : bufLen < f.elementSize
    · simp [Fifo.next, Fifo.answer, Fifo.recvResult, hshort, Output.sends, Output.receives]
    · cases hqueue : f.queue with
      | nil => simp [Fifo.next, Fifo.answer, Fifo.recvResult, hshort, hqueue, Output.sends,
          Output.receives]
      | cons x rest => simp [Fifo.next, Fifo.answer, Fifo.recvResult, hshort, hqueue,
          Output.sends, Output.receives]
  | close | len | isFull | isEmpty => rfl

/-- What is received was in the queue. -/
theorem Fifo.receives_pos (h : (f.answer c).receives = true) : 0 < f.queue.length := by
  cases c with
  | tryRecv bufLen =>
    by_cases hshort : bufLen < f.elementSize
    · simp [Fifo.answer, Fifo.recvResult, hshort, Output.receives] at h
    · cases hqueue : f.queue with
      | nil => simp [Fifo.answer, Fifo.recvResult, hshort, hqueue, Output.receives] at h
      | cons x rest => exact Nat.succ_pos _
  | trySend | close | len | isFull | isEmpty => cases h

/-- The indices of a channel that has accepted `n` elements. -/
structure Placed (slots elementSize : ℕ) (impl : Impl α) (f : Fifo α) (n : ℕ) : Prop where
  slots_eq : impl.slots = slots
  bufferSize_eq : impl.bufferSize = slots * elementSize % 2 ^ 64
  elementSize_eq : impl.elementSize = elementSize
  head : impl.headSlot = n % slots
  tail : impl.tailSlot = (n - f.queue.length) % slots
  length_le : f.queue.length ≤ n

/-- The indices follow the elements that were sent and received. -/
theorem Placed.step {slots elementSize : ℕ} {impl impl' : Impl α}
    (h : Placed slots elementSize impl f n) (hadv : Advances impl out impl')
    (hsends : out.sends = (f.answer c).sends) (hrecvs : out.receives = (f.answer c).receives) :
    Placed slots elementSize impl' (f.next c) (n + (f.answer c).sends.toNat) := by
  have hlength := f.length_next c
  have hpos := @Fifo.receives_pos _ f c
  have hle := h.length_le
  refine ⟨hadv.slots.trans h.slots_eq, hadv.bufferSize.trans h.bufferSize_eq,
    hadv.elementSize.trans h.elementSize_eq, ?_, ?_, by omega⟩
  · rw [hadv.head, hsends, h.slots_eq, h.head]
    cases (f.answer c).sends
    · rfl
    · exact Nat.mod_add_mod n slots 1
  · rw [hadv.tail, hrecvs, h.slots_eq, h.tail]
    cases hrecv : (f.answer c).receives
    · rw [hrecv, Bool.toNat_false] at hlength
      rw [if_neg (by simp)]
      congr 1
      omega
    · rw [hrecv, Bool.toNat_true] at hlength
      have := hpos hrecv
      rw [if_pos rfl, Nat.mod_add_mod]
      congr 1
      omega

/-- A channel whose answers send and receive what its FIFO does copies within its buffer exactly
as long as the slots of the accepted elements are there. -/
theorem copies_iff {R : LoopyChannel α → Fifo α → Prop} {slots elementSize : ℕ} (hpos : 0 < slots)
    (hsim : ∀ ch f c, R ch f → (callStep ch c).1.sends = (f.answer c).sends ∧
      (callStep ch c).1.receives = (f.answer c).receives ∧
      Advances ch.impl (callStep ch c).1 (callStep ch c).2.impl ∧ R (callStep ch c).2 (f.next c))
    (cs : List (Call α)) {ch : LoopyChannel α} (h : R ch f)
    (hplaced : Placed slots elementSize ch.impl f n) (hfit : SlotsFit slots elementSize n) :
    Along callStep CopyInBuffer ch cs ↔ SlotsFit slots elementSize (n + f.accepted cs) := by
  induction cs generalizing ch f n with
  | nil => exact iff_of_true trivial hfit
  | cons c cs ih =>
    obtain ⟨hsends, hrecvs, hadv, hrel⟩ := hsim ch f c h
    have hnext := hplaced.step hadv hsends hrecvs
    have hcount : f.accepted (c :: cs) = (f.answer c).sends.toNat + (f.next c).accepted cs := by
      show (f.answer c :: outputs Fifo.step (f.next c) cs).countP Output.sends = _
      rw [List.countP_cons, Nat.add_comm, Fifo.accepted]
      cases (f.answer c).sends <;> rfl
    have hsend : CopyInBuffer ch c ↔
        SlotsFit slots elementSize (n + (f.answer c).sends.toNat) := by
      rw [CopyInBuffer, hsends, hrecvs, hplaced.bufferSize_eq, hplaced.elementSize_eq, hplaced.head,
        hplaced.tail]
      have hread : (f.answer c).receives = true → InBuffer (slots * elementSize % 2 ^ 64)
          elementSize ((n - f.queue.length) % slots) := by
        intro hrecv
        have := Fifo.receives_pos hrecv
        have := hplaced.length_le
        exact hfit.inBuffer hpos (by omega)
      cases (f.answer c).sends
      · exact iff_of_true ⟨by simp, hread⟩ hfit
      · rw [and_iff_left hread, forall_prop_of_true rfl]
        exact hfit.succ_iff hpos
    rw [Along, hsend, hcount, ← Nat.add_assoc]
    constructor
    · rintro ⟨hone, hrest⟩
      exact (ih hrel hnext hone).mp hrest
    · intro hall
      have hone := hall.mono (Nat.le_add_right _ _)
      exact ⟨hone, (ih hrel hnext hone).mpr hall⟩

/-- The answers of the SPSC channel send and receive what those of the FIFO do. -/
theorem spscAnswer_moves (f : Fifo α) (c : Call α) :
    (f.spscAnswer c).sends = (f.answer c).sends ∧
      (f.spscAnswer c).receives = (f.answer c).receives := by
  cases c with
  | trySend data len =>
    by_cases hwrong : f.closed = false ∧ len ≠ f.elementSize
    · simp [Fifo.spscAnswer, Fifo.answer, Fifo.sendStatus, hwrong, Output.sends, Output.receives]
    · simp [Fifo.spscAnswer, hwrong]
  | tryRecv bufLen =>
    by_cases hdrained : f.closed = true ∧ f.queue = [] ∧ f.elementSize ≤ bufLen
    · have hlong : ¬ bufLen < f.elementSize := by omega
      simp [Fifo.spscAnswer, Fifo.answer, Fifo.recvResult, hdrained, hlong, Output.sends,
        Output.receives]
    · simp [Fifo.spscAnswer, hdrained]
  | close | len | isFull | isEmpty => exact ⟨rfl, rfl⟩

/-- An SPSC channel copies when its queue does. -/
theorem spscChannel_copies (ch : LoopyChannel α) (f : Fifo α) (c : Call α)
    (h : SpscChannelRel ch f) :
    (callStep ch c).1.sends = (f.answer c).sends ∧
      (callStep ch c).1.receives = (f.answer c).receives ∧
      Advances ch.impl (callStep ch c).1 (callStep ch c).2.impl ∧
      SpscChannelRel (callStep ch c).2 (f.next c) := by
  obtain ⟨hout, hrel⟩ := spscChannel_simulates ch f c h
  obtain ⟨hsends, hrecvs⟩ := spscAnswer_moves f c
  refine ⟨(congrArg _ hout).trans hsends, (congrArg _ hout).trans hrecvs, ?_, hrel⟩
  obtain ⟨impl, closed⟩ := ch
  obtain ⟨_, spsc, himpl, hspsc⟩ := h
  obtain rfl : impl = .spsc spsc := himpl
  obtain ⟨_, _, hring, _⟩ := hspsc.ring
  exact spscCall_advances hring.toShape closed c

/-- So does an MPMC channel. -/
theorem mpmcChannel_copies (ch : LoopyChannel α) (f : Fifo α) (c : Call α)
    (h : MpmcChannelRel ch f) :
    (callStep ch c).1.sends = (f.answer c).sends ∧
      (callStep ch c).1.receives = (f.answer c).receives ∧
      Advances ch.impl (callStep ch c).1 (callStep ch c).2.impl ∧
      MpmcChannelRel (callStep ch c).2 (f.next c) := by
  obtain ⟨hout, hrel⟩ := mpmcChannel_simulates ch f c h
  refine ⟨congrArg _ hout, congrArg _ hout, ?_, hrel⟩
  obtain ⟨impl, closed⟩ := ch
  obtain ⟨_, mpmc, himpl, _⟩ := h
  obtain rfl : impl = .mpmc mpmc := himpl
  exact mpmcCall_advances mpmc closed c

/-! ## Agreement -/

/-- A new SPSC channel is an empty queue. -/
theorem SpscChannelRel.new (hcap : capacity + 1 < 2 ^ 64) (elementSize : ℕ) :
    SpscChannelRel (loopyChannelNew α .SPSC capacity elementSize) (.fresh α capacity elementSize) :=
  ⟨rfl, _, rfl, rfl, rfl, [], [], .init hcap elementSize, rfl⟩

/-- So is a new MPMC channel. -/
theorem MpmcChannelRel.new (hcap : 1 ≤ capacity) (elementSize : ℕ) :
    MpmcChannelRel (loopyChannelNew α .MPMC capacity elementSize) (.fresh α capacity elementSize) :=
  ⟨rfl, _, rfl, rfl, rfl, rfl, Nat.zero_le _, hcap, (Nat.zero_mod capacity).symm,
    fun _ _ hx => by simp [Fifo.fresh] at hx⟩

/-- The slots of the ring that `spscInit` allocates; `2 ^ 64` where `actualCapacity` is 0. -/
def spscSlots (capacity : ℕ) : ℕ := sizeSub (actualCapacity capacity) 1 + 1

theorem Placed.newSpsc (capacity elementSize : ℕ) :
    Placed (spscSlots capacity) elementSize (loopyChannelNew α .SPSC capacity elementSize).impl
      (.fresh α capacity elementSize) 0 := by
  refine ⟨rfl, ?_, rfl, ?_, ?_, le_rfl⟩
  · show actualCapacity capacity * elementSize % 2 ^ 64 = _
    have hmod : actualCapacity capacity ≡ spscSlots capacity [MOD 2 ^ 64] := by
      unfold spscSlots sizeSub Nat.ModEq
      omega
    exact hmod.mul_right elementSize
  · exact (Nat.zero_and _).trans (Nat.zero_mod _).symm
  · exact (Nat.zero_and _).trans (Nat.zero_mod _).symm

theorem Placed.newMpmc (capacity elementSize : ℕ) :
    Placed capacity elementSize (loopyChannelNew α .MPMC capacity elementSize).impl
      (.fresh α capacity elementSize) 0 :=
  ⟨rfl, rfl, rfl, (Nat.zero_mod _).symm, (Nat.zero_mod _).symm, le_rfl⟩

/-- The answers of the two channels on `cs` are the same, and all that is copied lies in their
buffers. -/
def Agree (α : Type) (capacity elementSize : ℕ) (cs : List (Call α)) : Prop :=
  outputs callStep (loopyChannelNew α .SPSC capacity elementSize) cs =
      outputs callStep (loopyChannelNew α .MPMC capacity elementSize) cs ∧
    Along callStep CopyInBuffer (loopyChannelNew α .SPSC capacity elementSize) cs ∧
    Along callStep CopyInBuffer (loopyChannelNew α .MPMC capacity elementSize) cs

/-- **The two channels agree** on a sequence of calls if and only if it sends no element of the
wrong length while the channel is open, receives nothing, with a buffer that is long enough,
from a channel that is closed and drained, and the slots of the elements it gets accepted are in
both buffers, whose byte sizes wrap. `capacity + 1` is a `size_t`: an MPMC channel of
`2 ^ 64 - 1` elements cannot be allocated. -/
theorem channels_agree_iff (capacity elementSize : ℕ) (hcap : 1 ≤ capacity)
    (hcap64 : capacity + 1 < 2 ^ 64) (cs : List (Call α)) :
    Agree α capacity elementSize cs ↔
      Along Fifo.step Agreeable (.fresh α capacity elementSize) cs ∧
        SlotsFit (spscSlots capacity) elementSize
          (Fifo.accepted (.fresh α capacity elementSize) cs) ∧
        SlotsFit capacity elementSize (Fifo.accepted (.fresh α capacity elementSize) cs) := by
  have hnewSpsc := SpscChannelRel.new (α := α) hcap64 elementSize
  have hnewMpmc := MpmcChannelRel.new (α := α) hcap elementSize
  have hspsc := outputs_simulates spscChannel_simulates cs hnewSpsc
  have hmpmc := outputs_simulates mpmcChannel_simulates cs hnewMpmc
  have hnext : ∀ (f : Fifo α) c, (f.spscStep c).2 = (f.step c).2 := fun _ _ => rfl
  have hnone : ∀ slots, SlotsFit slots elementSize 0 := fun slots => by simp [SlotsFit]
  have hcopySpsc := copies_iff (Nat.succ_pos _) spscChannel_copies cs hnewSpsc
    (.newSpsc capacity elementSize) (hnone _)
  have hcopyMpmc := copies_iff hcap mpmcChannel_copies cs hnewMpmc
    (.newMpmc capacity elementSize) (hnone _)
  rw [Nat.zero_add] at hcopySpsc hcopyMpmc
  rw [Agree, hspsc, hmpmc, outputs_eq_iff hnext, along_congr spscAnswer_eq_iff _ cs, hcopySpsc,
    hcopyMpmc]
  rfl

/-- Two sends, one of them too many, the drain of the closed channel, and a short buffer. -/
def drainCalls : List (Call ℕ) :=
  [.trySend 7 8, .trySend 9 8, .isFull, .close, .trySend 9 3, .tryRecv 8, .tryRecv 2, .len,
    .isEmpty]

theorem channels_agree_drainCalls : Agree ℕ 1 8 drainCalls := by
  refine (channels_agree_iff 1 8 (by decide) (by decide) drainCalls).mpr ⟨?_, ?_, ?_⟩
  · simp [drainCalls, Along, Agreeable, Fifo.step, Fifo.next, Fifo.fresh, Fifo.sendStatus]
  · exact slotsFit_of_lt (by decide) _
  · exact slotsFit_of_lt (by decide) _

/-- An element of the wrong length is `FULL` for an SPSC channel and `INVALID` for an MPMC
channel; a receive from the closed and drained channel is `EMPTY` for one and `CLOSED` for the
other. -/
theorem channels_disagree : ¬ ∀ cs : List (Call ℕ), Agree ℕ 1 8 cs := by
  intro hall
  have hlists := (hall [.trySend 7 3, .close, .tryRecv 8]).1
  revert hlists
  decide +kernel

end Loopy.Channel
