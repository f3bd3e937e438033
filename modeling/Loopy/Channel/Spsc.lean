import Mathlib.Data.Nat.ModEq
import Loopy.Lib.Bits
import Loopy.Lib.Run
import Loopy.Channel.Basic

/-!
# The SPSC ring under every interleaving

One producer running `spscTrySend` and one consumer running `spscTryRecv`, as a machine whose
steps are their atomic actions: loads and stores of `head` and `tail`, reads and writes of the
cached indices, and the copies, each with a beginning and an end. Ghost state records the
elements accepted (at the store of `head`) and received (at the store of `tail`).

`RingInv` holds at every point of both routines. It reads `head`, `tail` and the cached
indices as counts of accepted and received elements modulo `2 ^ 64`; a cached index may lag,
but never so far that the masked difference of the indices is wrong.
-/

namespace Loopy.Channel

open Loopy.Lib
open Function (update update_of_ne update_self)

variable {α : Type}

/-! ## Index arithmetic -/

variable {n capacity a b : ℕ} {spsc : LoopyChannelSPSC α}

/-- `nextPowerOf2` fills the bits below the highest one of `n - 1`. -/
theorem nextPowerOf2_eq (hn : 1 ≤ n) (hn64 : n < 2 ^ 64) :
    nextPowerOf2 n = 2 ^ (n - 1).size % 2 ^ 64 := by
  have hsmear := ((((((Smeared.self (n - 1)).double).double).double).double).double).double
  have heq := hsmear.eq_two_pow (by omega : n - 1 < 2 ^ 64)
  have hpos : 0 < 2 ^ (n - 1).size := Nat.two_pow_pos _
  rw [nextPowerOf2, if_neg (by omega)]
  simp only [orShift]
  rw [heq]
  congr 1
  omega

/-- `nextPowerOf2` on `[1, 2 ^ 63]`, where the last increment does not wrap. -/
theorem nextPowerOf2_eq_two_pow (hn : 1 ≤ n) (hn63 : n ≤ 2 ^ 63) :
    nextPowerOf2 n = 2 ^ (n - 1).size := by
  have hle : 2 ^ (n - 1).size ≤ 2 ^ 63 :=
    Nat.pow_le_pow_right (by omega) (Nat.size_le.mpr (by omega))
  rw [nextPowerOf2_eq hn (by omega), Nat.mod_eq_of_lt (by omega)]

/-- `nextPowerOf2` rounds up; `2 ^ 64` itself is 0 as a `size_t`. -/
theorem nextPowerOf2_spec (hn : 1 ≤ n) (hn64 : n < 2 ^ 64) :
    ∃ k ≤ 64, n ≤ 2 ^ k ∧ nextPowerOf2 n = 2 ^ k % 2 ^ 64 := by
  have hsize : n - 1 < 2 ^ (n - 1).size := Nat.lt_size_self _
  exact ⟨(n - 1).size, Nat.size_le.mpr (by omega), by omega, nextPowerOf2_eq hn hn64⟩

/-- The mask of a ring is a power of two less one, and covers the capacity. -/
theorem spscInit_mask (hcap : capacity + 1 < 2 ^ 64) (elementSize : ℕ) :
    ∃ k ≤ 64, (spscInit α capacity elementSize).mask = 2 ^ k - 1 ∧ capacity ≤ 2 ^ k - 1 := by
  obtain ⟨k, hk, hle, heq⟩ := nextPowerOf2_spec (n := capacity + 1) (by omega) hcap
  have hpow : 2 ^ k ≤ 2 ^ 64 := Nat.pow_le_pow_right (by omega) hk
  have hmask : (spscInit α capacity elementSize).mask =
      sizeSub (nextPowerOf2 ((capacity + 1) % 2 ^ 64)) 1 := rfl
  refine ⟨k, hk, ?_, by omega⟩
  rw [hmask, Nat.mod_eq_of_lt hcap, heq, sizeSub]
  omega

/-- The difference of two running indices is the difference of what they count. -/
theorem sizeSub_mod (hba : b ≤ a) (hlt : a - b < 2 ^ 64) :
    sizeSub (a % 2 ^ 64) (b % 2 ^ 64) = a - b := by
  unfold sizeSub
  omega

theorem and_mask {k : ℕ} : n &&& (2 ^ k - 1) = n % 2 ^ k := Nat.and_two_pow_sub_one_eq_mod n k

/-- A ring of `2 ^ k` slots, `k ≤ 64`, with room for the capacity. -/
structure Shape (spsc : LoopyChannelSPSC α) : Prop where
  pow : ∃ k ≤ 64, spsc.mask = 2 ^ k - 1
  capacity_le : spsc.capacity ≤ spsc.mask

theorem Shape.mask_lt (h : Shape spsc) : spsc.mask < 2 ^ 64 := by
  obtain ⟨k, hk, hmask⟩ := h.pow
  have hpow : 2 ^ k ≤ 2 ^ 64 := Nat.pow_le_pow_right (by omega) hk
  have hpos : 0 < 2 ^ k := Nat.two_pow_pos k
  omega

/-- The masked difference is exact up to the mask. -/
theorem Shape.looksFull_iff (h : Shape spsc) (hba : b ≤ a) (hle : a ≤ b + spsc.mask) :
    spsc.looksFull (a % 2 ^ 64) (b % 2 ^ 64) ↔ b + spsc.capacity ≤ a := by
  have hlt := h.mask_lt
  obtain ⟨k, _, hmask⟩ := h.pow
  have hpos : 0 < 2 ^ k := Nat.two_pow_pos k
  rw [LoopyChannelSPSC.looksFull, sizeSub_mod hba (by omega), hmask, and_mask,
    Nat.mod_eq_of_lt (by omega)]
  omega

/-- Positions at most a mask apart have different slots. -/
theorem Shape.slot_ne (h : Shape spsc) (hab : a < b) (hle : b ≤ a + spsc.mask) :
    spsc.slot (a % 2 ^ 64) ≠ spsc.slot (b % 2 ^ 64) := by
  obtain ⟨k, hk, hmask⟩ := h.pow
  have hdvd : 2 ^ k ∣ 2 ^ 64 := Nat.pow_dvd_pow 2 hk
  have hpos : 0 < 2 ^ k := Nat.two_pow_pos k
  rw [LoopyChannelSPSC.slot, LoopyChannelSPSC.slot, hmask, and_mask, and_mask,
    Nat.mod_mod_of_dvd _ hdvd, Nat.mod_mod_of_dvd _ hdvd]
  intro heq
  have hmod : 0 ≡ b - a [MOD 2 ^ k] := by
    apply Nat.ModEq.add_left_cancel' a
    rw [Nat.add_zero, show a + (b - a) = b by omega]
    exact heq
  have := hmod.eq_of_lt_of_lt hpos (by omega)
  omega

/-! ## The ring -/

/-- The ring after `sent` was accepted and `received` was received. -/
structure RingInv (spsc : LoopyChannelSPSC α) (sent : List α) (received : List (Option α)) :
    Prop extends Shape spsc where
  head_eq : spsc.head = sent.length % 2 ^ 64
  tail_eq : spsc.tail = received.length % 2 ^ 64
  order : received <+: sent.map some
  cachedTail : ∃ n, spsc.cachedTail = n % 2 ^ 64 ∧ n ≤ received.length ∧
    sent.length ≤ n + spsc.capacity
  cachedHead : ∃ n, spsc.cachedHead = n % 2 ^ 64 ∧ received.length ≤ n ∧ n ≤ sent.length
  slots : ∀ p x, received.length ≤ p → sent[p]? = some x →
    spsc.buffer (spsc.slot (p % 2 ^ 64)) = some x

theorem RingInv.init (hcap : capacity + 1 < 2 ^ 64) (elementSize : ℕ) :
    RingInv (spscInit α capacity elementSize) [] [] := by
  obtain ⟨k, hk, hmask, hle⟩ := spscInit_mask (α := α) hcap elementSize
  refine ⟨⟨⟨k, hk, hmask⟩, ?_⟩, rfl, rfl, List.nil_prefix, ⟨0, rfl, le_rfl, Nat.zero_le _⟩,
    ⟨0, rfl, le_rfl, le_rfl⟩, fun p x _ hx => ?_⟩
  · rw [hmask]
    exact hle
  · simp at hx

theorem RingInv.received_le {sent : List α} {received : List (Option α)}
    (h : RingInv spsc sent received) : received.length ≤ sent.length := by
  have := h.order.length_le
  rwa [List.length_map] at this

/-- At most `capacity` elements are unread. -/
theorem RingInv.sent_le {sent : List α} {received : List (Option α)}
    (h : RingInv spsc sent received) : sent.length ≤ received.length + spsc.capacity := by
  obtain ⟨n, _, hn, hle⟩ := h.cachedTail
  omega

section Operations

variable {spsc : LoopyChannelSPSC α} {sent : List α} {received : List (Option α)}

/-- The producer sees a free slot with the tail it has cached. -/
def Room (spsc : LoopyChannelSPSC α) (sent : List α) (received : List (Option α)) : Prop :=
  ∃ n, spsc.cachedTail = n % 2 ^ 64 ∧ n ≤ received.length ∧ sent.length + 1 ≤ n + spsc.capacity

/-- The consumer sees an unread element with the head it has cached. -/
def Unread (spsc : LoopyChannelSPSC α) (sent : List α) (received : List (Option α)) : Prop :=
  ∃ n, spsc.cachedHead = n % 2 ^ 64 ∧ received.length + 1 ≤ n ∧ n ≤ sent.length

/-- The first test of `spscTrySend`. -/
theorem RingInv.room_of_not_looksFull (h : RingInv spsc sent received)
    (hfull : ¬ spsc.looksFull spsc.head spsc.cachedTail) : Room spsc sent received := by
  obtain ⟨n, hn, hle, hsent⟩ := h.cachedTail
  have hrec := h.received_le
  have hcap := h.capacity_le
  refine ⟨n, hn, hle, ?_⟩
  rw [h.head_eq, hn, h.toShape.looksFull_iff (by omega) (by omega)] at hfull
  omega

variable {n : ℕ}

/-- The test `tail == cachedHead` tells whether the cached head shows an unread element. -/
theorem RingInv.tail_ne_iff (h : RingInv spsc sent received) (hge : received.length ≤ n)
    (hle : n ≤ sent.length) : spsc.tail ≠ n % 2 ^ 64 ↔ received.length + 1 ≤ n := by
  have hsent := h.sent_le
  have hcap := h.capacity_le
  have hmask := h.toShape.mask_lt
  rw [h.tail_eq]
  omega

/-- A new value of the cached tail. -/
theorem RingInv.cacheTail (h : RingInv spsc sent received) (hle : n ≤ received.length)
    (hsent : sent.length ≤ n + spsc.capacity) :
    RingInv { spsc with cachedTail := n % 2 ^ 64 } sent received :=
  ⟨⟨h.pow, h.capacity_le⟩, h.head_eq, h.tail_eq, h.order, ⟨n, rfl, hle, hsent⟩, h.cachedHead,
    h.slots⟩

/-- A new value of the cached head. -/
theorem RingInv.cacheHead (h : RingInv spsc sent received) (hge : received.length ≤ n)
    (hle : n ≤ sent.length) : RingInv { spsc with cachedHead := n % 2 ^ 64 } sent received :=
  ⟨⟨h.pow, h.capacity_le⟩, h.head_eq, h.tail_eq, h.order, h.cachedTail, ⟨n, rfl, hge, hle⟩,
    h.slots⟩

/-- No unread element is in the slot of `head`. -/
theorem RingInv.slot_ne_head (h : RingInv spsc sent received) {p : ℕ} (hge : received.length ≤ p)
    (hlt : p < sent.length) : spsc.slot (p % 2 ^ 64) ≠ spsc.slot spsc.head := by
  have hsent := h.sent_le
  have hcap := h.capacity_le
  rw [h.head_eq]
  exact h.toShape.slot_ne hlt (by omega)

/-- Writing the slot of `head` touches no unread element. -/
theorem RingInv.write (h : RingInv spsc sent received) (content : Option α) :
    RingInv { spsc with buffer := update spsc.buffer (spsc.slot spsc.head) content }
      sent received := by
  refine ⟨⟨h.pow, h.capacity_le⟩, h.head_eq, h.tail_eq, h.order, h.cachedTail, h.cachedHead,
    fun p x hge hx => ?_⟩
  obtain ⟨hlt, _⟩ := List.getElem?_eq_some_iff.mp hx
  show update spsc.buffer (spsc.slot spsc.head) content (spsc.slot (p % 2 ^ 64)) = some x
  rw [update_of_ne (h.slot_ne_head hge hlt)]
  exact h.slots p x hge hx

/-- Publishing the written slot accepts its element. -/
theorem RingInv.publish (h : RingInv spsc sent received) (hroom : Room spsc sent received)
    {data : α} (hdata : spsc.buffer (spsc.slot spsc.head) = some data) :
    RingInv { spsc with head := (spsc.head + 1) % 2 ^ 64 } (sent ++ [data]) received := by
  obtain ⟨n, hn, hnle, hsent⟩ := hroom
  refine ⟨⟨h.pow, h.capacity_le⟩, ?_, h.tail_eq, ?_, ?_, ?_, fun p x hge hx => ?_⟩
  · show (spsc.head + 1) % 2 ^ 64 = _
    rw [List.length_append, List.length_singleton, h.head_eq]
    omega
  · rw [List.map_append]
    exact h.order.trans (List.prefix_append _ _)
  · refine ⟨n, hn, hnle, ?_⟩
    rw [List.length_append, List.length_singleton]
    exact hsent
  · obtain ⟨m, hm, hge, hle⟩ := h.cachedHead
    refine ⟨m, hm, hge, ?_⟩
    rw [List.length_append, List.length_singleton]
    omega
  · by_cases hp : p < sent.length
    · rw [List.getElem?_append_left hp] at hx
      exact h.slots p x hge hx
    · rw [List.getElem?_append_right (by omega), List.getElem?_singleton] at hx
      split at hx
      · next hzero =>
        have hlast : p = sent.length := by omega
        cases hx
        rw [hlast, ← h.head_eq]
        exact hdata
      · cases hx

/-- The element the consumer reads. -/
theorem RingInv.next (h : RingInv spsc sent received) (hunread : Unread spsc sent received) :
    ∃ x, sent[received.length]? = some x ∧ spsc.buffer (spsc.slot spsc.tail) = some x := by
  obtain ⟨n, _, hge, hle⟩ := hunread
  have hlt : received.length < sent.length := by omega
  refine ⟨sent[received.length], List.getElem?_eq_getElem hlt, ?_⟩
  rw [h.tail_eq]
  exact h.slots _ _ le_rfl (List.getElem?_eq_getElem hlt)

/-- Receiving the next element keeps the order. -/
theorem received_next {received : List (Option α)} {x : α} (h : received <+: sent.map some)
    (hx : sent[received.length]? = some x) : received ++ [some x] <+: sent.map some := by
  have htake : received = (sent.map some).take received.length := List.prefix_iff_eq_take.mp h
  have hnext : (sent.map some)[received.length]? = some (some x) := by
    rw [List.getElem?_map, hx]
    rfl
  rw [List.prefix_iff_eq_take, List.length_append, List.length_singleton, List.take_add_one,
    hnext, ← htake]
  rfl

/-- Storing `tail` receives the oldest unread element. -/
theorem RingInv.take (h : RingInv spsc sent received) (hunread : Unread spsc sent received)
    {x : α} (hx : sent[received.length]? = some x) :
    RingInv { spsc with tail := (spsc.tail + 1) % 2 ^ 64 } sent (received ++ [some x]) := by
  obtain ⟨n, hn, hge, hle⟩ := hunread
  have hlength : (received ++ [some x]).length = received.length + 1 := by simp
  refine ⟨⟨h.pow, h.capacity_le⟩, h.head_eq, ?_, ?_, ?_, ?_, fun p y hp hy => ?_⟩
  · show (spsc.tail + 1) % 2 ^ 64 = _
    rw [hlength, h.tail_eq]
    omega
  · exact received_next h.order hx
  · obtain ⟨m, hm, hmle, hsent⟩ := h.cachedTail
    exact ⟨m, hm, by omega, hsent⟩
  · exact ⟨n, hn, by omega, hle⟩
  · exact h.slots p y (by omega) hy

end Operations

/-! ## The machine -/

/-- Where the producer is in `spscTrySend`. After the load of `tail`, `unread` is the number of
accepted elements that were unread at that moment. -/
inductive Producer (α : Type)
  | idle
  | loadedHead (data : α) (head : ℕ)
  | full (data : α) (head : ℕ)
  | loadedTail (data : α) (head tail unread : ℕ)
  | ready (data : α) (head : ℕ)
  | writing (data : α) (head : ℕ)
  | written (data : α) (head : ℕ)
deriving DecidableEq, Repr

/-- Where the consumer is in `spscTryRecv`. -/
inductive Consumer (α : Type)
  | idle
  | loadedTail (tail : ℕ)
  | stale (tail : ℕ)
  | loadedHead (tail head : ℕ)
  | ready (tail : ℕ)
  | reading (tail : ℕ)
  | copied (tail : ℕ) (data : Option α)
deriving DecidableEq, Repr

/-- The ring, its two threads, and the record of what happened. `failed` has an entry for each
failed send: the number of unread elements when it loaded `tail`. -/
structure Spsc (α : Type) where
  spsc : LoopyChannelSPSC α
  producer : Producer α
  consumer : Consumer α
  sent : List α
  received : List (Option α)
  failed : List ℕ

/-- A new ring. -/
def Spsc.fresh (α : Type) (capacity elementSize : ℕ) : Spsc α :=
  { spsc := spscInit α capacity elementSize
    producer := .idle
    consumer := .idle
    sent := []
    received := []
    failed := [] }

/-- The atomic actions of the producer. A call with a wrong length returns at once. -/
inductive ProducerAction (α : Type)
  | send (data : α) (len : ℕ)
  | checkCachedTail
  | loadTail
  | storeCachedTail
  | beginWrite
  | endWrite
  | storeHead
deriving DecidableEq, Repr

/-- The atomic actions of the consumer. A call with a short buffer returns at once. -/
inductive ConsumerAction
  | recv (bufLen : ℕ)
  | checkCachedHead
  | loadHead
  | storeCachedHead
  | beginRead
  | endRead
  | storeTail
deriving DecidableEq, Repr

/-- Overwrite the slot of `head`. -/
def Spsc.setSlot (m : Spsc α) (head : ℕ) (content : Option α) : Spsc α :=
  { m with spsc := { m.spsc with
      buffer := update m.spsc.buffer (m.spsc.slot head) content } }

/-- One action of the producer. -/
def producerStep (m : Spsc α) (a : ProducerAction α) : Option (Spsc α) :=
  match a, m.producer with
  | .send data len, .idle =>
    if len ≠ m.spsc.elementSize then some m
    else some { m with producer := .loadedHead data m.spsc.head }
  | .checkCachedTail, .loadedHead data head =>
    if m.spsc.looksFull head m.spsc.cachedTail then some { m with producer := .full data head }
    else some { m with producer := .ready data head }
  | .loadTail, .full data head =>
    let unread := m.sent.length - m.received.length
    some { m with producer := .loadedTail data head m.spsc.tail unread }
  | .storeCachedTail, .loadedTail data head tail unread =>
    let m := { m with spsc := { m.spsc with cachedTail := tail } }
    if m.spsc.looksFull head tail then
      some { m with producer := .idle, failed := m.failed ++ [unread] }
    else some { m with producer := .ready data head }
  | .beginWrite, .ready data head => some { m.setSlot head none with producer := .writing data head }
  | .endWrite, .writing data head =>
    some { m.setSlot head (some data) with producer := .written data head }
  | .storeHead, .written data head =>
    some { m with
      spsc := { m.spsc with head := (head + 1) % 2 ^ 64 }
      producer := .idle
      sent := m.sent ++ [data] }
  | _, _ => none

/-- One action of the consumer. -/
def consumerStep (m : Spsc α) (a : ConsumerAction) : Option (Spsc α) :=
  match a, m.consumer with
  | .recv bufLen, .idle =>
    if bufLen < m.spsc.elementSize then some m
    else some { m with consumer := .loadedTail m.spsc.tail }
  | .checkCachedHead, .loadedTail tail =>
    if tail = m.spsc.cachedHead then some { m with consumer := .stale tail }
    else some { m with consumer := .ready tail }
  | .loadHead, .stale tail => some { m with consumer := .loadedHead tail m.spsc.head }
  | .storeCachedHead, .loadedHead tail head =>
    let m := { m with spsc := { m.spsc with cachedHead := head } }
    if tail = head then some { m with consumer := .idle }
    else some { m with consumer := .ready tail }
  | .beginRead, .ready tail => some { m with consumer := .reading tail }
  | .endRead, .reading tail =>
    some { m with consumer := .copied tail (m.spsc.buffer (m.spsc.slot tail)) }
  | .storeTail, .copied tail data =>
    some { m with
      spsc := { m.spsc with tail := (tail + 1) % 2 ^ 64 }
      consumer := .idle
      received := m.received ++ [data] }
  | _, _ => none

/-- An action of one of the threads. -/
inductive Action (α : Type)
  | producer (a : ProducerAction α)
  | consumer (a : ConsumerAction)
deriving DecidableEq, Repr

def step (m : Spsc α) : Action α → Option (Spsc α)
  | .producer a => producerStep m a
  | .consumer a => consumerStep m a

/-! ## What the threads know -/

/-- What the producer may rely on at its place. -/
def ProducerInv (m : Spsc α) : Producer α → Prop
  | .idle => True
  | .loadedHead _ head | .full _ head => head = m.spsc.head
  | .loadedTail _ head tail unread => head = m.spsc.head ∧
    ∃ n, tail = n % 2 ^ 64 ∧ n ≤ m.received.length ∧ m.sent.length ≤ n + m.spsc.capacity ∧
      unread = m.sent.length - n
  | .ready _ head | .writing _ head => head = m.spsc.head ∧ Room m.spsc m.sent m.received
  | .written data head => head = m.spsc.head ∧ Room m.spsc m.sent m.received ∧
    m.spsc.buffer (m.spsc.slot head) = some data

/-- What the consumer may rely on at its place. -/
def ConsumerInv (m : Spsc α) : Consumer α → Prop
  | .idle => True
  | .loadedTail tail | .stale tail => tail = m.spsc.tail
  | .loadedHead tail head => tail = m.spsc.tail ∧
    ∃ n, head = n % 2 ^ 64 ∧ m.received.length ≤ n ∧ n ≤ m.sent.length
  | .ready tail | .reading tail => tail = m.spsc.tail ∧ Unread m.spsc m.sent m.received
  | .copied tail data => tail = m.spsc.tail ∧ Unread m.spsc m.sent m.received ∧
    ∃ x, data = some x ∧ m.sent[m.received.length]? = some x

/-- The invariant of the machine. -/
structure SpscInv (m : Spsc α) : Prop where
  ring : RingInv m.spsc m.sent m.received
  producer : ProducerInv m m.producer
  consumer : ConsumerInv m m.consumer
  failed : ∀ unread ∈ m.failed, unread = m.spsc.capacity

variable {m m' : Spsc α}

/-- The producer does not disturb the consumer. -/
theorem ConsumerInv.frame {c : Consumer α} (h : ConsumerInv m c)
    (htail : m'.spsc.tail = m.spsc.tail) (hcached : m'.spsc.cachedHead = m.spsc.cachedHead)
    (hreceived : m'.received = m.received) (hsent : m.sent <+: m'.sent) : ConsumerInv m' c := by
  have hlength := hsent.length_le
  have hunread : Unread m.spsc m.sent m.received → Unread m'.spsc m'.sent m'.received := by
    rintro ⟨n, hn, hge, hle⟩
    exact ⟨n, by rw [hcached, hn], by rw [hreceived]; exact hge, by omega⟩
  cases c with
  | idle => trivial
  | loadedTail tail | stale tail => exact h.trans htail.symm
  | loadedHead tail head =>
    obtain ⟨hl, n, hn, hge, hle⟩ := h
    exact ⟨hl.trans htail.symm, n, hn, by rw [hreceived]; exact hge, by omega⟩
  | ready tail | reading tail => exact ⟨h.1.trans htail.symm, hunread h.2⟩
  | copied tail data =>
    obtain ⟨hl, hu, x, hx, hget⟩ := h
    obtain ⟨hlt, _⟩ := List.getElem?_eq_some_iff.mp hget
    obtain ⟨rest, hrest⟩ := hsent
    refine ⟨hl.trans htail.symm, hunread hu, x, hx, ?_⟩
    rw [hreceived, ← hrest, List.getElem?_append_left hlt]
    exact hget

/-- The consumer does not disturb the producer. -/
theorem ProducerInv.frame {p : Producer α} (h : ProducerInv m p)
    (hhead : m'.spsc.head = m.spsc.head) (hcached : m'.spsc.cachedTail = m.spsc.cachedTail)
    (hcapacity : m'.spsc.capacity = m.spsc.capacity) (hmask : m'.spsc.mask = m.spsc.mask)
    (hbuffer : m'.spsc.buffer = m.spsc.buffer) (hsent : m'.sent = m.sent)
    (hreceived : m.received.length ≤ m'.received.length) : ProducerInv m' p := by
  have hroom : Room m.spsc m.sent m.received → Room m'.spsc m'.sent m'.received := by
    rintro ⟨n, hn, hle, hlt⟩
    exact ⟨n, by rw [hcached, hn], by omega, by rw [hsent, hcapacity]; exact hlt⟩
  cases p with
  | idle => trivial
  | loadedHead data head | full data head => exact h.trans hhead.symm
  | loadedTail data head tail unread =>
    obtain ⟨hl, n, hn, hle, hlt, hunread⟩ := h
    exact ⟨hl.trans hhead.symm, n, hn, by omega, by rw [hsent, hcapacity]; exact hlt,
      by rw [hsent]; exact hunread⟩
  | ready data head | writing data head => exact ⟨h.1.trans hhead.symm, hroom h.2⟩
  | written data head =>
    obtain ⟨hl, hr, hslot⟩ := h
    refine ⟨hl.trans hhead.symm, hroom hr, ?_⟩
    rw [LoopyChannelSPSC.slot, hmask, hbuffer]
    exact hslot

/-! ## Steps -/

theorem SpscInv.producerStep {a : ProducerAction α} (h : SpscInv m)
    (hstep : producerStep m a = some m') : SpscInv m' := by
  obtain ⟨hring, hproducer, hconsumer, hfailed⟩ := h
  unfold Channel.producerStep at hstep
  split at hstep
  · next data len hp =>
    split at hstep
    · cases hstep
      exact ⟨hring, hproducer, hconsumer, hfailed⟩
    · cases hstep
      exact ⟨hring, rfl, hconsumer.frame rfl rfl rfl (List.prefix_refl _), hfailed⟩
  · next data head hp =>
    -- a stale tail is a lower bound: room with respect to it is room
    rw [hp] at hproducer
    obtain rfl : head = m.spsc.head := hproducer
    split at hstep
    · cases hstep
      exact ⟨hring, rfl, hconsumer.frame rfl rfl rfl (List.prefix_refl _), hfailed⟩
    · next hfull =>
      cases hstep
      exact ⟨hring, ⟨rfl, hring.room_of_not_looksFull hfull⟩,
        hconsumer.frame rfl rfl rfl (List.prefix_refl _), hfailed⟩
  · next data head hp =>
    rw [hp] at hproducer
    cases hstep
    exact ⟨hring, ⟨hproducer, m.received.length, hring.tail_eq, le_rfl, hring.sent_le, rfl⟩,
      hconsumer.frame rfl rfl rfl (List.prefix_refl _), hfailed⟩
  · next data head tail unread hp =>
    -- the test against the tail that was loaded
    rw [hp] at hproducer
    obtain ⟨rfl, n, rfl, hle, hsent, hunread⟩ := hproducer
    have hcached := hring.cacheTail hle hsent
    have hrec := hring.received_le
    have hcap := hring.capacity_le
    have hiff := hring.toShape.looksFull_iff (a := m.sent.length) (b := n) (by omega) (by omega)
    rw [← hring.head_eq] at hiff
    dsimp only at hstep
    split at hstep
    · next hfull =>
      cases hstep
      refine ⟨hcached, trivial, hconsumer.frame rfl rfl rfl (List.prefix_refl _), ?_⟩
      have hge : n + m.spsc.capacity ≤ m.sent.length := hiff.mp hfull
      intro u hu
      rcases List.mem_append.mp hu with hold | hnew
      · exact hfailed u hold
      · rw [List.mem_singleton.mp hnew, hunread]
        show m.sent.length - n = m.spsc.capacity
        omega
    · next hfull =>
      cases hstep
      have hlt : ¬ n + m.spsc.capacity ≤ m.sent.length := fun hge => hfull (hiff.mpr hge)
      refine ⟨hcached, ⟨rfl, n, rfl, hle, ?_⟩,
        hconsumer.frame rfl rfl rfl (List.prefix_refl _), hfailed⟩
      show m.sent.length + 1 ≤ n + m.spsc.capacity
      omega
  · next data head hp =>
    -- from here on the slot belongs to the producer
    rw [hp] at hproducer
    obtain ⟨rfl, hroom⟩ := hproducer
    cases hstep
    exact ⟨hring.write none, ⟨rfl, hroom⟩, hconsumer.frame rfl rfl rfl (List.prefix_refl _),
      hfailed⟩
  · next data head hp =>
    rw [hp] at hproducer
    obtain ⟨rfl, hroom⟩ := hproducer
    cases hstep
    exact ⟨hring.write (some data), ⟨rfl, hroom, update_self _ _ _⟩,
      hconsumer.frame rfl rfl rfl (List.prefix_refl _), hfailed⟩
  · next data head hp =>
    rw [hp] at hproducer
    obtain ⟨rfl, hroom, hslot⟩ := hproducer
    cases hstep
    exact ⟨hring.publish hroom hslot, trivial,
      hconsumer.frame rfl rfl rfl (List.prefix_append _ _), hfailed⟩
  · cases hstep

theorem SpscInv.consumerStep {a : ConsumerAction} (h : SpscInv m)
    (hstep : consumerStep m a = some m') : SpscInv m' := by
  obtain ⟨hring, hproducer, hconsumer, hfailed⟩ := h
  unfold Channel.consumerStep at hstep
  split at hstep
  · next bufLen hc =>
    split at hstep
    · cases hstep
      exact ⟨hring, hproducer, hconsumer, hfailed⟩
    · cases hstep
      exact ⟨hring, hproducer.frame rfl rfl rfl rfl rfl rfl le_rfl, rfl, hfailed⟩
  · next tail hc =>
    -- a stale head is a lower bound: an element before it is there
    rw [hc] at hconsumer
    obtain rfl : tail = m.spsc.tail := hconsumer
    split at hstep
    · cases hstep
      exact ⟨hring, hproducer.frame rfl rfl rfl rfl rfl rfl le_rfl, rfl, hfailed⟩
    · next hne =>
      cases hstep
      obtain ⟨n, hn, hge, hle⟩ := hring.cachedHead
      have hunread := (hring.tail_ne_iff hge hle).mp (hn ▸ hne)
      exact ⟨hring, hproducer.frame rfl rfl rfl rfl rfl rfl le_rfl, ⟨rfl, n, hn, hunread, hle⟩,
        hfailed⟩
  · next tail hc =>
    rw [hc] at hconsumer
    cases hstep
    exact ⟨hring, hproducer.frame rfl rfl rfl rfl rfl rfl le_rfl,
      ⟨hconsumer, m.sent.length, hring.head_eq, hring.received_le, le_rfl⟩, hfailed⟩
  · next tail head hc =>
    -- the test against the head that was loaded
    rw [hc] at hconsumer
    obtain ⟨rfl, n, rfl, hge, hle⟩ := hconsumer
    have hcached := hring.cacheHead hge hle
    dsimp only at hstep
    split at hstep
    · cases hstep
      exact ⟨hcached, hproducer.frame rfl rfl rfl rfl rfl rfl le_rfl, trivial, hfailed⟩
    · next hne =>
      cases hstep
      have hunread := (hring.tail_ne_iff hge hle).mp hne
      exact ⟨hcached, hproducer.frame rfl rfl rfl rfl rfl rfl le_rfl, ⟨rfl, n, rfl, hunread, hle⟩,
        hfailed⟩
  · next tail hc =>
    rw [hc] at hconsumer
    cases hstep
    exact ⟨hring, hproducer.frame rfl rfl rfl rfl rfl rfl le_rfl, hconsumer, hfailed⟩
  · next tail hc =>
    rw [hc] at hconsumer
    obtain ⟨rfl, hunread⟩ := hconsumer
    cases hstep
    -- the producer does not write to a slot that is still to be read
    obtain ⟨x, hx, hslot⟩ := hring.next hunread
    exact ⟨hring, hproducer.frame rfl rfl rfl rfl rfl rfl le_rfl, ⟨rfl, hunread, x, hslot, hx⟩,
      hfailed⟩
  · next tail data hc =>
    rw [hc] at hconsumer
    obtain ⟨rfl, hunread, x, rfl, hx⟩ := hconsumer
    cases hstep
    refine ⟨hring.take hunread hx, hproducer.frame rfl rfl rfl rfl rfl rfl ?_, trivial, hfailed⟩
    show m.received.length ≤ (m.received ++ [some x]).length
    simp
  · cases hstep

theorem SpscInv.step {a : Action α} (h : SpscInv m) (hstep : step m a = some m') : SpscInv m' := by
  cases a with
  | producer a => exact h.producerStep hstep
  | consumer a => exact h.consumerStep hstep

theorem SpscInv.fresh (hcap : capacity + 1 < 2 ^ 64) (elementSize : ℕ) :
    SpscInv (.fresh α capacity elementSize) :=
  ⟨.init hcap elementSize, trivial, trivial, fun _ h => nomatch h⟩

/-- What the actions of one thread leave alone. -/
theorem producerStep_frame {a : ProducerAction α} (hstep : producerStep m a = some m') :
    m'.spsc.capacity = m.spsc.capacity ∧ m'.spsc.elementSize = m.spsc.elementSize ∧
      m'.received = m.received ∧ m'.consumer = m.consumer := by
  unfold producerStep at hstep
  dsimp only at hstep
  split at hstep <;> (try split at hstep) <;> cases hstep <;> exact ⟨rfl, rfl, rfl, rfl⟩

theorem consumerStep_frame {a : ConsumerAction} (hstep : consumerStep m a = some m') :
    m'.spsc.capacity = m.spsc.capacity ∧ m'.spsc.elementSize = m.spsc.elementSize ∧
      m'.sent = m.sent ∧ m'.producer = m.producer := by
  unfold consumerStep at hstep
  dsimp only at hstep
  split at hstep <;> (try split at hstep) <;> cases hstep <;> exact ⟨rfl, rfl, rfl, rfl⟩

/-- The buffer of a ring holds all its slots. -/
def AllSlots (spsc : LoopyChannelSPSC α) : Prop :=
  (spsc.mask + 1) * spsc.elementSize ≤ spsc.bufferSize

theorem AllSlots.inBuffer (h : AllSlots spsc) (i : ℕ) :
    InBuffer spsc.bufferSize spsc.elementSize (spsc.slot i) := by
  have hle : spsc.slot i ≤ spsc.mask := Nat.and_le_right
  exact (Nat.mul_le_mul_right _ (by omega)).trans h

/-- The size in bytes is the product, as long as that is a `size_t`. -/
theorem AllSlots.spscInit {elementSize : ℕ} (hcap : capacity < 2 ^ 63)
    (hfit : nextPowerOf2 (capacity + 1) * elementSize < 2 ^ 64) :
    AllSlots (spscInit α capacity elementSize) := by
  have hactual : actualCapacity capacity = nextPowerOf2 (capacity + 1) := by
    rw [actualCapacity, Nat.mod_eq_of_lt (by omega)]
  have hpow := nextPowerOf2_eq_two_pow (n := capacity + 1) (by omega) (by omega)
  have hpos : 0 < 2 ^ (capacity + 1 - 1).size := Nat.two_pow_pos _
  have hle : 2 ^ (capacity + 1 - 1).size ≤ 2 ^ 63 :=
    Nat.pow_le_pow_right (by omega) (Nat.size_le.mpr (by omega))
  have hmask : (Channel.spscInit α capacity elementSize).mask + 1 = actualCapacity capacity := by
    show sizeSub (actualCapacity capacity) 1 + 1 = actualCapacity capacity
    rw [hactual, hpow, sizeSub]
    omega
  show _ * elementSize ≤ actualCapacity capacity * elementSize % 2 ^ 64
  rw [hmask, Nat.mod_eq_of_lt (by rw [hactual]; exact hfit)]

/-- No step changes the slots of a ring. -/
theorem AllSlots.step (h : AllSlots m.spsc) {a : Action α} (hstep : step m a = some m') :
    AllSlots m'.spsc := by
  cases a with
  | producer a =>
    change producerStep m a = some m' at hstep
    unfold producerStep at hstep
    dsimp only at hstep
    split at hstep <;> (try split at hstep) <;> cases hstep <;> exact h
  | consumer a =>
    change consumerStep m a = some m' at hstep
    unfold consumerStep at hstep
    dsimp only at hstep
    split at hstep <;> (try split at hstep) <;> cases hstep <;> exact h

theorem step_capacity {a : Action α} (hstep : step m a = some m') :
    m'.spsc.capacity = m.spsc.capacity := by
  cases a with
  | producer a => exact (producerStep_frame hstep).1
  | consumer a => exact (consumerStep_frame hstep).1

/-! ## Correctness -/

/-- The producer is writing into the slot of `head`. -/
def WritesAt (m : Spsc α) (head : ℕ) : Prop :=
  ∃ data, m.producer = .ready data head ∨ m.producer = .writing data head

/-- The consumer is reading the slot of `tail`. -/
def ReadsAt (m : Spsc α) (tail : ℕ) : Prop :=
  m.consumer = .ready tail ∨ m.consumer = .reading tail

/-- What the ring promises of a state. -/
structure RingLaw (capacity : ℕ) (m : Spsc α) : Prop where
  fifo : m.received <+: m.sent.map some
  bounded : m.sent.length ≤ m.received.length + capacity
  /-- The producer writes slots of the buffer, and none that holds an unread element. -/
  write_free : ∀ head, WritesAt m head →
    InBuffer m.spsc.bufferSize m.spsc.elementSize (m.spsc.slot head) ∧
      ∀ p, m.received.length ≤ p → p < m.sent.length →
        m.spsc.slot (p % 2 ^ 64) ≠ m.spsc.slot head
  /-- The consumer reads slots of the buffer that the producer has finished. -/
  read_finished : ∀ tail, ReadsAt m tail →
    InBuffer m.spsc.bufferSize m.spsc.elementSize (m.spsc.slot tail) ∧
      ∃ x, m.sent[m.received.length]? = some x ∧ m.spsc.buffer (m.spsc.slot tail) = some x ∧
        ∀ head, WritesAt m head → m.spsc.slot tail ≠ m.spsc.slot head
  failed_full : ∀ unread ∈ m.failed, unread = capacity

theorem SpscInv.head_of_writesAt (h : SpscInv m) {head : ℕ} (hw : WritesAt m head) :
    head = m.spsc.head := by
  have hproducer := h.producer
  obtain ⟨data, hw | hw⟩ := hw
  · rw [hw] at hproducer
    exact hproducer.1
  · rw [hw] at hproducer
    exact hproducer.1

theorem SpscInv.tail_of_readsAt (h : SpscInv m) {tail : ℕ} (hr : ReadsAt m tail) :
    tail = m.spsc.tail ∧ Unread m.spsc m.sent m.received := by
  have hconsumer := h.consumer
  rcases hr with hr | hr
  · rw [hr] at hconsumer
    exact hconsumer
  · rw [hr] at hconsumer
    exact hconsumer

theorem SpscInv.law (h : SpscInv m) (hslots : AllSlots m.spsc) :
    RingLaw m.spsc.capacity m where
  fifo := h.ring.order
  bounded := h.ring.sent_le
  write_free head hw := by
    refine ⟨hslots.inBuffer head, fun p hge hlt => ?_⟩
    rw [h.head_of_writesAt hw]
    exact h.ring.slot_ne_head hge hlt
  read_finished tail hr := by
    obtain ⟨rfl, hunread⟩ := h.tail_of_readsAt hr
    obtain ⟨x, hx, hslot⟩ := h.ring.next hunread
    obtain ⟨hlt, _⟩ := List.getElem?_eq_some_iff.mp hx
    refine ⟨hslots.inBuffer _, x, hx, hslot, fun head hw => ?_⟩
    rw [h.head_of_writesAt hw, h.ring.tail_eq]
    exact h.ring.slot_ne_head le_rfl hlt
  failed_full := h.failed

/-- **The SPSC ring is a bounded FIFO.** For every capacity and element size for which the size
of the buffer is a `size_t`, and every interleaving of the atomic actions of the producer and the
consumer: what was received is a prefix of what was accepted, at most `capacity` accepted elements
are unread, the producer writes slots of the buffer and none of an unread element, the consumer
reads only finished slots, and a send fails only if `capacity` elements were unread when it loaded
`tail`. -/
theorem spsc_ring_correct (capacity elementSize : ℕ) (hcap : capacity < 2 ^ 63)
    (hfit : nextPowerOf2 (capacity + 1) * elementSize < 2 ^ 64) (as : List (Action α)) (m : Spsc α)
    (hrun : Run step (fun _ _ => True) (.fresh α capacity elementSize) as m) :
    RingLaw capacity m := by
  have hinv : SpscInv m ∧ AllSlots m.spsc ∧ m.spsc.capacity = capacity :=
    hrun.invariant (P := fun m => SpscInv m ∧ AllSlots m.spsc ∧ m.spsc.capacity = capacity)
      (fun _ _ _ h _ hstep =>
        ⟨h.1.step hstep, h.2.1.step hstep, (step_capacity hstep).trans h.2.2⟩)
      ⟨.fresh (by omega) elementSize, .spscInit hcap hfit, rfl⟩
  have hlaw := hinv.1.law hinv.2.1
  rw [hinv.2.2] at hlaw
  exact hlaw

/-- Capacity 1: a send, a second one that overtakes the consumer's copy and fails, the receive,
and a third send into the slot that is free again. -/
def overtakingRun : List (Action ℕ) :=
  [.producer (.send 7 8), .producer .checkCachedTail, .producer .beginWrite, .producer .endWrite,
    .producer .storeHead, .consumer (.recv 8), .consumer .checkCachedHead, .consumer .loadHead,
    .consumer .storeCachedHead, .consumer .beginRead, .producer (.send 9 8),
    .producer .checkCachedTail, .producer .loadTail, .consumer .endRead, .consumer .storeTail,
    .producer .storeCachedTail, .producer (.send 9 8), .producer .checkCachedTail,
    .producer .loadTail, .producer .storeCachedTail, .producer .beginWrite, .producer .endWrite,
    .producer .storeHead]

theorem spsc_ring_correct_overtaking :
    ∃ m, Run step (fun _ _ => True) (.fresh ℕ 1 8) overtakingRun m ∧ RingLaw 1 m ∧
      m.sent = [7, 9] ∧ m.received = [some 7] ∧ m.failed = [1] := by
  have hexec : (exec step (fun _ _ => True) (.fresh ℕ 1 8) overtakingRun).map
      (fun m => (m.sent, m.received, m.failed)) = some ([7, 9], [some 7], [1]) := by decide +kernel
  obtain ⟨m, hrun, hval⟩ := Run.of_exec_map hexec
  simp only [Prod.mk.injEq] at hval
  exact ⟨m, hrun, spsc_ring_correct 1 8 (by decide) (by decide) overtakingRun m hrun, hval⟩

/-- A ring of `2 ^ 61` slots of 8 bytes gets no byte at all, and the first send writes its slot. -/
theorem spsc_ring_outside :
    ¬ ∀ capacity elementSize, 1 ≤ capacity → capacity < 2 ^ 63 → 1 ≤ elementSize →
      elementSize < 2 ^ 64 → ∀ (as : List (Action ℕ)) (m : Spsc ℕ),
      Run step (fun _ _ => True) (.fresh ℕ capacity elementSize) as m → RingLaw capacity m := by
  intro hall
  have hexec : (exec step (fun _ _ => True) (.fresh ℕ (2 ^ 61 - 1) 8)
      [.producer (.send 7 8), .producer .checkCachedTail]).map (fun m => (m.producer,
        decide (InBuffer m.spsc.bufferSize m.spsc.elementSize (m.spsc.slot 0)))) =
      some (.ready 7 0, false) := by decide +kernel
  obtain ⟨m, hrun, hval⟩ := Run.of_exec_map hexec
  obtain ⟨hready, houtside⟩ := Prod.mk.inj hval
  have hlaw := hall _ _ (by decide) (by decide) (by decide) (by decide) _ m hrun
  exact of_decide_eq_false houtside (hlaw.write_free 0 ⟨7, .inl hready⟩).1

end Loopy.Channel
