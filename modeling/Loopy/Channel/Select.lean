import Loopy.Channel.Agreement
import Loopy.Lib.Loops

/-!
# `loopyChannel.c`: select

`loopyChannelSelect` on any channels, while other threads make any calls on them between its
attempts; an attempt, a `loopyChannelTrySend` or a `loopyChannelTryRecv`, is one step. What it finds
before each attempt, and the time after each round, are the `Round`s; the attempts are recorded.

An SPSC channel answers `FULL` to an element of the wrong length and `EMPTY` when it is closed and
drained, where nothing would have blocked, so that a poll can find that all cases would block when
they would not. `select_sound_iff` says that nothing else goes wrong.
-/

namespace Loopy.Channel

open Loopy.Lib
open Function (update update_of_ne update_self)

variable {α C : Type}

/-! ## What is in a channel -/

namespace LoopyChannel

/-- The elements in a channel, the oldest one first. -/
def contents (ch : LoopyChannel α) : List (Option α) :=
  match ch.impl with
  | .spsc spsc => (List.range (spscLen spsc)).map fun i =>
      spsc.buffer (spsc.slot ((spsc.tail + i) % 2 ^ 64))
  | .mpmc mpmc => (List.range mpmc.count).map fun i =>
      mpmc.buffer ((mpmc.tail + i) % mpmc.capacity)

def capacity (ch : LoopyChannel α) : ℕ :=
  match ch.impl with
  | .spsc spsc => spsc.capacity
  | .mpmc mpmc => mpmc.capacity

def elementSize (ch : LoopyChannel α) : ℕ :=
  match ch.impl with
  | .spsc spsc => spsc.elementSize
  | .mpmc mpmc => mpmc.elementSize

/-- A channel that holds the queue of a FIFO, as one that `loopyChannelNew` has made does after any
calls. -/
def Usable (ch : LoopyChannel α) : Prop := ∃ f, SpscChannelRel ch f ∨ MpmcChannelRel ch f

end LoopyChannel

/-! ## Cases -/

/-- `loopyChannelCase` without its result; `none` is a null pointer. -/
structure LoopyChannelCase (α C : Type) where
  ch : Option C
  send : Bool
  data : Option α
  len : ℕ
deriving DecidableEq, Repr

/-- The result of a case: a number of bytes or a status. -/
inductive CaseResult
  | count (n : ℕ)
  | status (status : LoopyChannelStatus)
deriving DecidableEq, Repr

/-- An attempt, with the channels before and after it. -/
structure Attempt (α C : Type) where
  index : ℕ
  before : C → LoopyChannel α
  after : C → LoopyChannel α

/-- The channels, and the attempts so far. -/
structure Selecting (α C : Type) where
  channels : C → LoopyChannel α
  attempts : List (Attempt α C)

/-- What the other threads call before each case, and the time when the round is over. -/
structure Round (α C : Type) where
  others : ℕ → List (C × Call α)
  time : UInt64

section select

variable [DecidableEq C]

/-- A call of another thread. -/
def otherCall (channels : C → LoopyChannel α) (c : C × Call α) : C → LoopyChannel α :=
  update channels c.1 (callStep (channels c.1) c.2).2

/-- The attempt with a case: `none` says that it would block. -/
def tryCase (channels : C → LoopyChannel α) (c : LoopyChannelCase α C) :
    Option CaseResult × (C → LoopyChannel α) :=
  match c.ch, c.data with
  | some ch, some data =>
    if c.send then
      let (status, channel) := loopyChannelTrySend (channels ch) data c.len
      let channels := update channels ch channel
      match status with
      | .OK => (some (.count c.len), channels)
      | .FULL => (none, channels)
      | status => (some (.status status), channels)
    else
      let (n, channel) := loopyChannelTryRecv (channels ch) c.len
      let channels := update channels ch channel
      match n with
      | .element _ n => (some (.count n), channels)
      | .status .EMPTY => (none, channels)
      | .status status => (some (.status status), channels)
  | _, _ => (some (.status .INVALID), channels)

/-- The body of the loop over the cases. -/
def attemptCase (others : ℕ → List (C × Call α)) (s : Selecting α C)
    (c : LoopyChannelCase α C × ℕ) : Option (ℕ × CaseResult) × Selecting α C :=
  let channels := (others c.2).foldl otherCall s.channels
  let (result, after) := tryCase channels c.1
  (result.map fun r => (c.2, r),
    { channels := after, attempts := s.attempts ++ [⟨c.2, channels, after⟩] })

/-- What `loopyChannelSelect` returns, and the result that it stores. -/
structure Selected where
  ret : ℤ
  stored : Option (ℕ × CaseResult)
deriving DecidableEq, Repr

/-- The rounds; `none` says that they are not enough. -/
def selectLoop (cases : List (LoopyChannelCase α C)) (timeoutUs : ℤ) (deadline : UInt64) :
    List (Round α C) → Selecting α C → Option Selected × Selecting α C
  | [], s => (none, s)
  | r :: rs, s =>
    match tryEach (attemptCase r.others) s cases.zipIdx with
    -- `(int)i`
    | (some (i, result), s) => (some ⟨(i : ℤ).bmod (2 ^ 32), some (i, result)⟩, s)
    | (none, s) =>
      if timeoutUs = 0 then (some ⟨-1, none⟩, s)
      else if r.time < deadline then selectLoop cases timeoutUs deadline rs s
      else (some ⟨-1, none⟩, s)

/-- `loopyChannelSelect`, from the time `startTime`. -/
def loopyChannelSelect (cases : List (LoopyChannelCase α C)) (timeoutUs : ℤ) (startTime : UInt64)
    (rounds : List (Round α C)) (channels : C → LoopyChannel α) :
    Option Selected × Selecting α C :=
  if cases = [] then (some ⟨-1, none⟩, ⟨channels, []⟩)
  else
    let deadline :=
      if timeoutUs < 0 then UInt64.ofNat (2 ^ 64 - 1)
      else if timeoutUs = 0 then 0
      else startTime + UInt64.ofNat timeoutUs.toNat
    selectLoop cases timeoutUs deadline rounds ⟨channels, []⟩

end select

/-! ## The law -/

/-- A channel holds the same elements, and is open or closed as before. -/
def Same (ch ch' : LoopyChannel α) : Prop :=
  ch'.contents = ch.contents ∧ ch'.closed = ch.closed

/-- An attempt has not changed any channel. -/
def Attempt.Idle (a : Attempt α C) : Prop := ∀ ch, Same (a.before ch) (a.after ch)

/-- An attempt has sent the element of a case, or received one element. -/
def Attempt.Performs (a : Attempt α C) (c : LoopyChannelCase α C) : Prop :=
  ∃ ch, c.ch = some ch ∧ (∀ ch' ≠ ch, Same (a.before ch') (a.after ch')) ∧
    (a.after ch).closed = (a.before ch).closed ∧
    if c.send then (a.after ch).contents = (a.before ch).contents ++ [c.data]
    else ∃ x, (a.before ch).contents = some x :: (a.after ch).contents

/-- A case would block: the channel is open, and it is full, or it is empty. -/
def WouldBlock (channels : C → LoopyChannel α) (c : LoopyChannelCase α C) : Prop :=
  ∃ ch data, c.ch = some ch ∧ c.data = some data ∧ (channels ch).closed = false ∧
    if c.send then
      c.len = (channels ch).elementSize ∧ (channels ch).capacity ≤ (channels ch).contents.length
    else (channels ch).elementSize ≤ c.len ∧ (channels ch).contents = []

/-- An attempt has changed a channel. -/
def Attempt.Changes (a : Attempt α C) (ch : C) : Prop := ¬ Same (a.before ch) (a.after ch)

/-- At most one channel is changed, by one operation, which is the last attempt and is the one that
is returned. -/
structure SelectLaw (cases : List (LoopyChannelCase α C)) (timeoutUs : ℤ)
    (r : Option Selected × Selecting α C) : Prop where
  once : ∀ a ∈ r.2.attempts, ∀ ch, a.Changes ch →
    ∀ a' ∈ r.2.attempts, ∀ ch', a'.Changes ch' → ch' = ch
  performed : ∀ selected ∈ r.1, ∀ i n, selected.stored = some (i, .count n) →
    selected.ret = i ∧ ∃ c, cases[i]? = some c ∧ ∃ idle last, r.2.attempts = idle ++ [last] ∧
      (∀ a ∈ idle, a.Idle) ∧ last.index = i ∧ last.Performs c
  nothing : ∀ selected ∈ r.1, (∀ i n, selected.stored ≠ some (i, .count n)) →
    ∀ a ∈ r.2.attempts, a.Idle
  blocked : timeoutUs = 0 → ∀ selected ∈ r.1, selected.ret = -1 →
    r.2.attempts.map Attempt.index = List.range cases.length ∧
      ∀ a ∈ r.2.attempts, ∀ c ∈ cases[a.index]?, WouldBlock a.before c

/-- The SPSC channel of a case says that it would block, where it would not: an element of the wrong
length is sent to it, or it is closed and drained. -/
def Misleads (channels : C → LoopyChannel α) (c : LoopyChannelCase α C) : Prop :=
  ∃ ch data, c.ch = some ch ∧ c.data = some data ∧ (∃ spsc, (channels ch).impl = .spsc spsc) ∧
    if c.send then (channels ch).closed = false ∧ c.len ≠ (channels ch).elementSize
    else (channels ch).closed = true ∧ (channels ch).contents = [] ∧
      (channels ch).elementSize ≤ c.len

/-- A case says that it would block. -/
def Refused (channels : C → LoopyChannel α) (c : LoopyChannelCase α C) : Prop :=
  WouldBlock channels c ∨ Misleads channels c

/-! ## One call -/

section calls

variable {ch : LoopyChannel α} {f : Fifo α}

/-- An SPSC channel holds what is in its queue. -/
theorem SpscRel.contents {spsc : LoopyChannelSPSC α} (h : SpscRel spsc f) (closed : Bool) :
    LoopyChannel.contents ⟨.spsc spsc, closed⟩ = f.queue.map some := by
  have hlen := h.len
  obtain ⟨sent, received, hring, hqueue⟩ := h.ring
  unfold LoopyChannel.contents
  dsimp only
  rw [hlen]
  refine List.ext_getElem (by simp) fun i hi hi' => ?_
  have hlt : i < f.queue.length := by simpa using hi
  have hslot := hring.slots (received.length + i) f.queue[i] (Nat.le_add_right _ _) (by
    rw [← List.getElem?_drop, ← hqueue, List.getElem?_eq_getElem hlt])
  rw [List.getElem_map, List.getElem_range, List.getElem_map, hring.tail_eq, Nat.mod_add_mod, hslot]

/-- So does an MPMC channel. -/
theorem MpmcRel.contents {mpmc : LoopyChannelMPMC α} (h : MpmcRel mpmc f) (closed : Bool) :
    LoopyChannel.contents ⟨.mpmc mpmc, closed⟩ = f.queue.map some := by
  unfold LoopyChannel.contents
  dsimp only
  rw [h.count]
  refine List.ext_getElem (by simp) fun i hi hi' => ?_
  have hlt : i < f.queue.length := by simpa using hi
  rw [List.getElem_map, List.getElem_range, List.getElem_map,
    h.slots i f.queue[i] (List.getElem?_eq_getElem hlt)]

/-- What a FIFO says of its channel. -/
structure Reads (ch : LoopyChannel α) (f : Fifo α) : Prop where
  contents : ch.contents = f.queue.map some
  capacity : ch.capacity = f.capacity
  elementSize : ch.elementSize = f.elementSize
  closed : ch.closed = f.closed

theorem SpscChannelRel.reads (h : SpscChannelRel ch f) : Reads ch f := by
  obtain ⟨impl, closed⟩ := ch
  obtain ⟨hclosed, spsc, himpl, hrel⟩ := h
  obtain rfl : impl = .spsc spsc := himpl
  exact ⟨hrel.contents closed, hrel.capacity, hrel.elementSize, hclosed⟩

theorem MpmcChannelRel.reads (h : MpmcChannelRel ch f) : Reads ch f := by
  obtain ⟨impl, closed⟩ := ch
  obtain ⟨hclosed, mpmc, himpl, hrel⟩ := h
  obtain rfl : impl = .mpmc mpmc := himpl
  exact ⟨hrel.contents closed, hrel.capacity, hrel.elementSize, hclosed⟩

/-- A call keeps a channel usable, and does what the FIFO does. -/
theorem Usable.call (h : ch.Usable) (c : Call α) :
    ∃ f, Reads ch f ∧ Reads (callStep ch c).2 (f.next c) ∧ (callStep ch c).2.Usable ∧
      ((∃ spsc, ch.impl = .spsc spsc) ∧ (callStep ch c).1 = f.spscAnswer c ∨
        (¬ ∃ spsc, ch.impl = .spsc spsc) ∧ (callStep ch c).1 = f.answer c) := by
  obtain ⟨f, hspsc | hmpmc⟩ := h
  · obtain ⟨hanswer, hnext⟩ := spscChannel_simulates ch f c hspsc
    obtain ⟨-, spsc, himpl, -⟩ := id hspsc
    exact ⟨f, hspsc.reads, hnext.reads, ⟨_, .inl hnext⟩, .inl ⟨⟨spsc, himpl⟩, hanswer⟩⟩
  · obtain ⟨hanswer, hnext⟩ := mpmcChannel_simulates ch f c hmpmc
    obtain ⟨-, mpmc, himpl, -⟩ := id hmpmc
    refine ⟨f, hmpmc.reads, hnext.reads, ⟨_, .inr hnext⟩, .inr ⟨?_, hanswer⟩⟩
    rintro ⟨spsc, hspsc⟩
    rw [himpl] at hspsc
    cases hspsc

/-- A new channel can be used. -/
theorem usable_new {type : LoopyChannelType} {capacity : ℕ} (hlow : 1 ≤ capacity)
    (hhigh : capacity + 1 < 2 ^ 64) (elementSize : ℕ) :
    (loopyChannelNew α type capacity elementSize).Usable := by
  cases type with
  | SPSC => exact ⟨_, .inl (.new hhigh elementSize)⟩
  | MPSC => exact ⟨_, .inr (.new hlow elementSize)⟩
  | MPMC => exact ⟨_, .inr (.new hlow elementSize)⟩

/-- The status of a send: the one of the FIFO, or `FULL` for an element of the wrong length. -/
theorem Usable.sendStatus (h : ch.Usable) (data : α) (len : ℕ) :
    ∃ f, Reads ch f ∧ Reads (loopyChannelTrySend ch data len).2 (f.next (.trySend data len)) ∧
      (loopyChannelTrySend ch data len).2.Usable ∧
      ((loopyChannelTrySend ch data len).1 = f.sendStatus len ∧
          ((∃ spsc, ch.impl = .spsc spsc) → f.closed = true ∨ len = f.elementSize) ∨
        (∃ spsc, ch.impl = .spsc spsc) ∧ f.closed = false ∧ len ≠ f.elementSize ∧
          (loopyChannelTrySend ch data len).1 = .FULL) := by
  obtain ⟨f, hreads, hnext, husable, hanswer⟩ := Usable.call h (.trySend data len)
  refine ⟨f, hreads, hnext, husable, ?_⟩
  rcases hanswer with ⟨hspsc, hanswer⟩ | ⟨hmpmc, hanswer⟩
  · unfold Fifo.spscAnswer at hanswer
    dsimp only at hanswer
    split at hanswer
    · next hwrong => exact .inr ⟨hspsc, hwrong.1, hwrong.2, Output.status.inj hanswer⟩
    · next hright =>
      refine .inl ⟨Output.status.inj hanswer, fun _ => ?_⟩
      by_cases hlen : len = f.elementSize
      · exact .inr hlen
      · exact .inl (by simpa using fun hopen => hright ⟨hopen, hlen⟩)
  · exact .inl ⟨Output.status.inj hanswer, fun hspsc => absurd hspsc hmpmc⟩

/-- A send that succeeds appends its element, and one that fails changes nothing. -/
theorem Usable.trySend (h : ch.Usable) (data : α) (len : ℕ) :
    (loopyChannelTrySend ch data len).2.Usable ∧
      (loopyChannelTrySend ch data len).2.closed = ch.closed ∧
      if (loopyChannelTrySend ch data len).1 = .OK then
        (loopyChannelTrySend ch data len).2.contents = ch.contents ++ [some data]
      else (loopyChannelTrySend ch data len).2.contents = ch.contents := by
  obtain ⟨f, hreads, hnext, husable, hstatus⟩ := Usable.sendStatus h data len
  have hclosed : (f.next (.trySend data len)).closed = f.closed := by
    unfold Fifo.next
    dsimp only
    split <;> rfl
  refine ⟨husable, by rw [hnext.closed, hclosed, hreads.closed], ?_⟩
  have hiff : (loopyChannelTrySend ch data len).1 = .OK ↔ f.sendStatus len = .OK := by
    rcases hstatus with ⟨hstatus, -⟩ | ⟨-, hopen, hlen, hfull⟩
    · rw [hstatus]
    · rw [hfull, Fifo.sendStatus, hopen, if_neg Bool.false_ne_true, if_pos hlen]
      exact iff_of_false (fun h => by cases h) (fun h => by cases h)
  rw [hnext.contents, hreads.contents, Fifo.next]
  by_cases hok : f.sendStatus len = .OK
  · rw [if_pos (hiff.mpr hok), if_pos hok, List.map_append]
    rfl
  · rw [if_neg (hiff.not.mpr hok), if_neg hok]

/-- `FULL` is the answer of an open channel that is full, or of an SPSC channel to an element of the
wrong length. -/
theorem Usable.full_iff (h : ch.Usable) (data : α) (len : ℕ) :
    (loopyChannelTrySend ch data len).1 = .FULL ↔
      ch.closed = false ∧ (len = ch.elementSize ∧ ch.capacity ≤ ch.contents.length ∨
        (∃ spsc, ch.impl = .spsc spsc) ∧ len ≠ ch.elementSize) := by
  obtain ⟨f, hreads, -, -, hstatus⟩ := Usable.sendStatus h data len
  rw [hreads.closed, hreads.elementSize, hreads.capacity, hreads.contents, List.length_map]
  rcases hstatus with ⟨hstatus, hright⟩ | ⟨hspsc, hopen, hlen, hfull⟩
  · rw [hstatus, Fifo.sendStatus]
    cases hclosed : f.closed with
    | true => simp
    | false =>
      rw [hclosed] at hright
      by_cases hlen : len = f.elementSize
      · by_cases hroom : f.capacity ≤ f.queue.length <;> simp [hlen, hroom]
      · have hmpmc : ¬ ∃ spsc, ch.impl = .spsc spsc := fun hspsc =>
          (hright hspsc).elim Bool.false_ne_true hlen
        simp [hlen, hmpmc]
  · exact iff_of_true hfull ⟨hopen, .inr ⟨hspsc, hlen⟩⟩

/-- The result of a receive: the one of the FIFO, or `EMPTY` from a channel that is closed and
drained. -/
theorem Usable.recvResult (h : ch.Usable) (bufLen : ℕ) :
    ∃ f, Reads ch f ∧ Reads (loopyChannelTryRecv ch bufLen).2 (f.next (.tryRecv bufLen)) ∧
      (loopyChannelTryRecv ch bufLen).2.Usable ∧
      ((loopyChannelTryRecv ch bufLen).1 = f.recvResult bufLen ∧
          ((∃ spsc, ch.impl = .spsc spsc) →
            ¬ (f.closed = true ∧ f.queue = [] ∧ f.elementSize ≤ bufLen)) ∨
        (∃ spsc, ch.impl = .spsc spsc) ∧ (f.closed = true ∧ f.queue = [] ∧ f.elementSize ≤ bufLen) ∧
          (loopyChannelTryRecv ch bufLen).1 = .status .EMPTY) := by
  obtain ⟨f, hreads, hnext, husable, hanswer⟩ := Usable.call h (.tryRecv bufLen)
  refine ⟨f, hreads, hnext, husable, ?_⟩
  rcases hanswer with ⟨hspsc, hanswer⟩ | ⟨hmpmc, hanswer⟩
  · unfold Fifo.spscAnswer at hanswer
    dsimp only at hanswer
    split at hanswer
    · next hdrained => exact .inr ⟨hspsc, hdrained, Output.recv.inj hanswer⟩
    · next hdrained => exact .inl ⟨Output.recv.inj hanswer, fun _ => hdrained⟩
  · exact .inl ⟨Output.recv.inj hanswer, fun hspsc => absurd hspsc hmpmc⟩

/-- A receive that succeeds takes the oldest element, and one that fails changes nothing. -/
theorem Usable.tryRecv (h : ch.Usable) (bufLen : ℕ) :
    (loopyChannelTryRecv ch bufLen).2.Usable ∧
      (loopyChannelTryRecv ch bufLen).2.closed = ch.closed ∧
      match (loopyChannelTryRecv ch bufLen).1 with
      | .element _ _ => ∃ x, ch.contents = some x :: (loopyChannelTryRecv ch bufLen).2.contents
      | .status _ => (loopyChannelTryRecv ch bufLen).2.contents = ch.contents := by
  obtain ⟨f, hreads, hnext, husable, hresult⟩ := Usable.recvResult h bufLen
  have hclosed : (f.next (.tryRecv bufLen)).closed = f.closed := by
    unfold Fifo.next
    dsimp only
    split <;> rfl
  refine ⟨husable, by rw [hnext.closed, hclosed, hreads.closed], ?_⟩
  rw [hnext.contents, hreads.contents, Fifo.next]
  rcases hresult with ⟨hresult, -⟩ | ⟨-, ⟨-, hqueue, hlong⟩, hempty⟩
  · rw [hresult, Fifo.recvResult]
    by_cases hshort : bufLen < f.elementSize
    · rw [if_pos hshort, if_pos hshort]
    · rw [if_neg hshort, if_neg hshort]
      cases f.queue with
      | nil => rfl
      | cons x rest => exact ⟨x, rfl⟩
  · rw [hempty, if_neg (by omega), hqueue]
    rfl

/-- `EMPTY` is the answer of a channel that is empty and open, or of an SPSC channel that is closed
and drained. -/
theorem Usable.empty_iff (h : ch.Usable) (bufLen : ℕ) :
    (loopyChannelTryRecv ch bufLen).1 = .status .EMPTY ↔
      ch.elementSize ≤ bufLen ∧ ch.contents = [] ∧
        (ch.closed = false ∨ (∃ spsc, ch.impl = .spsc spsc) ∧ ch.closed = true) := by
  obtain ⟨f, hreads, -, -, hresult⟩ := Usable.recvResult h bufLen
  rw [hreads.closed, hreads.elementSize, hreads.contents, List.map_eq_nil_iff]
  rcases hresult with ⟨hresult, hplain⟩ | ⟨hspsc, ⟨hclosed, hqueue, hlong⟩, hempty⟩
  · rw [hresult, Fifo.recvResult]
    by_cases hlong : f.elementSize ≤ bufLen
    · rw [if_neg (by omega)]
      cases hqueue : f.queue with
      | nil =>
        cases hclosed : f.closed with
        | false => simp [hlong]
        | true =>
          have hmpmc : ¬ ∃ spsc, ch.impl = .spsc spsc := fun hspsc =>
            hplain hspsc ⟨hclosed, hqueue, hlong⟩
          simp [hmpmc]
      | cons x rest => simp
    · rw [if_pos (by omega)]
      simp [hlong]
  · exact iff_of_true hempty ⟨hlong, hqueue, .inr ⟨hspsc, hclosed⟩⟩

end calls

/-! ## One attempt -/

section attempt

variable {channels : C → LoopyChannel α}

variable {c : LoopyChannelCase α C} {i : ℕ} {ch : C}

/-- A case that would block is answered right. -/
theorem WouldBlock.not_misleads (h : WouldBlock channels c) : ¬ Misleads channels c := by
  obtain ⟨ch, data, hch, -, hopen, h⟩ := h
  rintro ⟨ch', -, hch', -, -, h'⟩
  obtain rfl : ch = ch' := Option.some.inj (hch.symm.trans hch')
  by_cases hsend : c.send = true
  · rw [if_pos hsend] at h h'
    exact h'.2 h.1
  · rw [if_neg hsend] at h h'
    rw [hopen] at h'
    cases h'.1

/-- A send is refused when the channel is full. -/
theorem refused_send (h : ∀ ch, (channels ch).Usable) (ch : C) (data : α) (len : ℕ) :
    Refused channels ⟨some ch, true, some data, len⟩ ↔
      (loopyChannelTrySend (channels ch) data len).1 = .FULL := by
  rw [Usable.full_iff (h ch) data len]
  constructor
  · rintro (⟨ch', data', hch, -, hopen, hfull⟩ | ⟨ch', data', hch, -, hspsc, hwrong⟩)
    · obtain rfl := Option.some.inj hch
      exact ⟨hopen, .inl hfull⟩
    · obtain rfl := Option.some.inj hch
      exact ⟨hwrong.1, .inr ⟨hspsc, hwrong.2⟩⟩
  · rintro ⟨hopen, hfull | ⟨hspsc, hwrong⟩⟩
    · exact .inl ⟨ch, data, rfl, rfl, hopen, hfull⟩
    · exact .inr ⟨ch, data, rfl, rfl, hspsc, hopen, hwrong⟩

/-- A receive is refused when it is empty. -/
theorem refused_recv (h : ∀ ch, (channels ch).Usable) (ch : C) (data : α) (len : ℕ) :
    Refused channels ⟨some ch, false, some data, len⟩ ↔
      (loopyChannelTryRecv (channels ch) len).1 = .status .EMPTY := by
  rw [Usable.empty_iff (h ch) len]
  constructor
  · rintro (⟨ch', data', hch, -, hopen, hlong, hempty⟩ | ⟨ch', data', hch, -, hspsc, hdrained⟩)
    · obtain rfl := Option.some.inj hch
      exact ⟨hlong, hempty, .inl hopen⟩
    · obtain rfl := Option.some.inj hch
      exact ⟨hdrained.2.2, hdrained.2.1, .inr ⟨hspsc, hdrained.1⟩⟩
  · rintro ⟨hlong, hempty, hopen | ⟨hspsc, hclosed⟩⟩
    · exact .inl ⟨ch, data, rfl, rfl, hopen, hlong, hempty⟩
    · exact .inr ⟨ch, data, rfl, rfl, hspsc, hclosed, hempty, hlong⟩

/-- A case without a channel or data is no refusal. -/
theorem not_refused_null (h : c.ch = none ∨ c.data = none) : ¬ Refused channels c := by
  rintro (⟨ch, data, hch, hdata, -⟩ | ⟨ch, data, hch, hdata, -⟩)
  all_goals
    rw [hch, hdata] at h
    rcases h with h | h <;> cases h

/-- What an attempt that ends the call has done. -/
def Attempt.Ends (a : Attempt α C) (c : LoopyChannelCase α C) : CaseResult → Prop
  | .count _ => a.Performs c
  | .status _ => a.Idle

/-- What an attempt with a case does. -/
def Tried (channels : C → LoopyChannel α) (c : LoopyChannelCase α C) (i : ℕ)
    (result : Option CaseResult × (C → LoopyChannel α)) : Prop :=
  (∀ ch, (result.2 ch).Usable) ∧
    match result.1 with
    | none => Refused channels c ∧ Attempt.Idle ⟨i, channels, result.2⟩
    | some r => ¬ Refused channels c ∧ Attempt.Ends ⟨i, channels, result.2⟩ c r

/-- A refused case waits, and nothing has changed. -/
theorem Tried.waits {after : C → LoopyChannel α} (husable : ∀ ch, (after ch).Usable)
    (hrefused : Refused channels c) (hidle : Attempt.Idle ⟨i, channels, after⟩) :
    Tried channels c i (none, after) :=
  ⟨husable, hrefused, hidle⟩

/-- Any other case ends the select. -/
theorem Tried.ends {after : C → LoopyChannel α} {r : CaseResult}
    (husable : ∀ ch, (after ch).Usable) (hrefused : ¬ Refused channels c)
    (hends : Attempt.Ends ⟨i, channels, after⟩ c r) : Tried channels c i (some r, after) :=
  ⟨husable, hrefused, hends⟩

variable [DecidableEq C]

theorem update_usable (h : ∀ ch, (channels ch).Usable) {channel : LoopyChannel α}
    (hchannel : channel.Usable) (ch' : C) : (update channels ch channel ch').Usable := by
  by_cases hch : ch' = ch
  · subst hch
    rw [update_self]
    exact hchannel
  · rw [update_of_ne hch]
    exact h ch'

/-- Other threads leave the channels usable. -/
theorem others_usable (h : ∀ ch, (channels ch).Usable) (others : List (C × Call α)) :
    ∀ ch, (others.foldl otherCall channels ch).Usable := by
  induction others generalizing channels with
  | nil => exact h
  | cons c others ih =>
    obtain ⟨-, -, -, husable, -⟩ := Usable.call (h c.1) c.2
    exact ih (update_usable h husable)

theorem same_update {ch' : C} (channel : LoopyChannel α) (hch : ch' ≠ ch) :
    Same (channels ch') (update channels ch channel ch') := by
  rw [update_of_ne hch]
  exact ⟨rfl, rfl⟩

theorem idle_update {channel : LoopyChannel α} (h : Same (channels ch) channel) :
    Attempt.Idle ⟨i, channels, update channels ch channel⟩ := by
  intro ch'
  show Same (channels ch') (update channels ch channel ch')
  by_cases hch : ch' = ch
  · subst hch
    rw [update_self]
    exact h
  · exact same_update channel hch

/-- What an attempt to send does. -/
theorem tried_send (h : ∀ ch, (channels ch).Usable) (i : ℕ) (ch : C) (data : α) (len : ℕ) :
    Tried channels ⟨some ch, true, some data, len⟩ i
      (tryCase channels ⟨some ch, true, some data, len⟩) := by
  have hrefused := refused_send h ch data len
  obtain ⟨husable, hclosed, hcontents⟩ := Usable.trySend (h ch) data len
  unfold tryCase
  dsimp only
  rw [if_pos rfl]
  revert hrefused husable hclosed hcontents
  generalize loopyChannelTrySend (channels ch) data len = result
  obtain ⟨status, channel⟩ := result
  intro hrefused husable hclosed hcontents
  have hall : ∀ ch', (update channels ch channel ch').Usable := update_usable h husable
  dsimp only at hrefused hcontents hclosed ⊢
  by_cases hok : status = .OK
  · subst hok
    rw [if_pos rfl] at hcontents
    refine Tried.ends hall (fun hfull => by cases hrefused.mp hfull)
      ⟨ch, rfl, fun ch' hch => same_update channel hch, ?_, ?_⟩
    · show (update channels ch channel ch).closed = _
      rw [update_self]
      exact hclosed
    · show (update channels ch channel ch).contents = _
      rw [update_self]
      exact hcontents
  · rw [if_neg hok] at hcontents
    have hidle : Attempt.Idle ⟨i, channels, update channels ch channel⟩ :=
      idle_update ⟨hcontents, hclosed⟩
    cases status with
    | OK => exact absurd rfl hok
    | FULL => exact Tried.waits hall (hrefused.mpr rfl) hidle
    | _ => exact Tried.ends hall (fun hfull => by cases hrefused.mp hfull) hidle

/-- What an attempt to receive does. -/
theorem tried_recv (h : ∀ ch, (channels ch).Usable) (i : ℕ) (ch : C) (data : α) (len : ℕ) :
    Tried channels ⟨some ch, false, some data, len⟩ i
      (tryCase channels ⟨some ch, false, some data, len⟩) := by
  have hrefused := refused_recv h ch data len
  obtain ⟨husable, hclosed, hcontents⟩ := Usable.tryRecv (h ch) len
  unfold tryCase
  dsimp only
  rw [if_neg Bool.false_ne_true]
  revert hrefused husable hclosed hcontents
  generalize loopyChannelTryRecv (channels ch) len = result
  obtain ⟨n, channel⟩ := result
  intro hrefused husable hclosed hcontents
  have hall : ∀ ch', (update channels ch channel ch').Usable := update_usable h husable
  dsimp only at hrefused hcontents hclosed ⊢
  cases n with
  | element x n =>
    refine Tried.ends hall (fun hempty => by cases hrefused.mp hempty)
      ⟨ch, rfl, fun ch' hch => same_update channel hch, ?_, ?_⟩
    · show (update channels ch channel ch).closed = _
      rw [update_self]
      exact hclosed
    · show ∃ x, _ = some x :: (update channels ch channel ch).contents
      rw [update_self]
      exact hcontents
  | status status =>
    have hidle : Attempt.Idle ⟨i, channels, update channels ch channel⟩ :=
      idle_update ⟨hcontents, hclosed⟩
    cases status with
    | EMPTY => exact Tried.waits hall (hrefused.mpr rfl) hidle
    | _ => exact Tried.ends hall (fun hempty => by cases hrefused.mp hempty) hidle

/-- **Every attempt waits or ends the select.**. -/
theorem tryCase_spec (h : ∀ ch, (channels ch).Usable) (i : ℕ) (c : LoopyChannelCase α C) :
    Tried channels c i (tryCase channels c) := by
  obtain ⟨ch, send, data, len⟩ := c
  cases ch with
  | none => exact ⟨h, not_refused_null (.inl rfl), fun _ => ⟨rfl, rfl⟩⟩
  | some ch =>
    cases data with
    | none => exact ⟨h, not_refused_null (.inr rfl), fun _ => ⟨rfl, rfl⟩⟩
    | some data =>
      cases send with
      | true => exact tried_send h i ch data len
      | false => exact tried_recv h i ch data len

end attempt

/-! ## One call of `loopyChannelSelect` -/

section select

variable {cases : List (LoopyChannelCase α C)} {timeoutUs : ℤ}

/-- An attempt after which the loop goes on. -/
def Attempt.Waits (cases : List (LoopyChannelCase α C)) (a : Attempt α C) : Prop :=
  a.Idle ∧ ∀ c ∈ cases[a.index]?, Refused a.before c

/-- What the attempts of a call have done, for what it returns. -/
inductive SelectRun (cases : List (LoopyChannelCase α C)) (timeoutUs : ℤ) :
    Option Selected → List (Attempt α C) → Prop
  | running {attempts} (waits : ∀ a ∈ attempts, a.Waits cases)
      (poll : timeoutUs = 0 → attempts = []) : SelectRun cases timeoutUs none attempts
  | blocked {attempts} (waits : ∀ a ∈ attempts, a.Waits cases)
      (poll : timeoutUs = 0 → attempts.map Attempt.index = List.range cases.length) :
      SelectRun cases timeoutUs (some ⟨-1, none⟩) attempts
  | ended {attempts last c r} (waits : ∀ a ∈ attempts, a.Waits cases)
      (case : cases[last.index]? = some c) (refused : ¬ Refused last.before c)
      (ends : last.Ends c r) :
      SelectRun cases timeoutUs (some ⟨last.index, some (last.index, r)⟩) (attempts ++ [last])

variable {a : Attempt α C}

/-- An idle attempt changes no channel. -/
theorem Attempt.Idle.not_changes (h : a.Idle) (ch : C) : ¬ a.Changes ch :=
  fun hchanges => hchanges (h ch)

/-- The last one changes only the channel of its case. -/
theorem Attempt.Ends.changes {c : LoopyChannelCase α C} {r : CaseResult} (h : a.Ends c r) {ch : C}
    (hchanges : a.Changes ch) : c.ch = some ch := by
  cases r with
  | count n =>
    obtain ⟨ch', hcase, hsame, -⟩ := h
    rw [hcase, not_ne_iff.mp (mt (hsame ch) hchanges)]
  | status status => exact absurd hchanges (Attempt.Idle.not_changes h ch)

/-- So at most one channel is changed, once. -/
theorem SelectRun.once {selected : Option Selected} {attempts : List (Attempt α C)}
    (h : SelectRun cases timeoutUs selected attempts) {a' : Attempt α C} (ha : a ∈ attempts)
    (ha' : a' ∈ attempts) {ch ch' : C} (hch : a.Changes ch) (hch' : a'.Changes ch') : ch' = ch := by
  have hidle : ∀ {a : Attempt α C} {ch : C}, a.Waits cases → ¬ a.Changes ch :=
    fun hwaits => hwaits.1.not_changes _
  cases h with
  | running hwaits => exact absurd hch (hidle (hwaits a ha))
  | blocked hwaits => exact absurd hch (hidle (hwaits a ha))
  | ended hwaits hcase hrefused hends =>
    -- only the last attempt changes a channel, the one of its case
    rcases List.mem_append.mp ha with ha | ha
    · exact absurd hch (hidle (hwaits a ha))
    rcases List.mem_append.mp ha' with ha' | ha'
    · exact absurd hch' (hidle (hwaits a' ha'))
    obtain rfl := List.mem_singleton.mp ha
    obtain rfl := List.mem_singleton.mp ha'
    exact Option.some.inj ((hends.changes hch').symm.trans (hends.changes hch))

/-- The law of a run is that of its refused attempts. -/
theorem SelectRun.law_iff {result : Option Selected × Selecting α C}
    (h : SelectRun cases timeoutUs result.1 result.2.attempts) :
    SelectLaw cases timeoutUs result ↔
      (timeoutUs = 0 → (∀ a ∈ result.2.attempts, ∀ c ∈ cases[a.index]?, Refused a.before c) →
        ∀ a ∈ result.2.attempts, ∀ c ∈ cases[a.index]?, ¬ Misleads a.before c) := by
  obtain ⟨selected, s⟩ := result
  obtain ⟨channels, attempts⟩ := s
  dsimp only at h ⊢
  constructor
  · intro hlaw hzero hrefused a ha c hc
    cases h with
    | running hwaits hpoll =>
      rw [hpoll hzero] at ha
      cases ha
    | blocked hwaits hpoll =>
      exact ((hlaw.blocked hzero _ rfl rfl).2 a ha c hc).not_misleads
    | ended hwaits hcase hnot hends =>
      exact absurd (hrefused _ (List.mem_append_right _ (List.mem_singleton_self _)) _ hcase) hnot
  · intro hcondition
    refine ⟨fun a ha ch hch a' ha' ch' hch' => h.once ha ha' hch hch', ?_, ?_, ?_⟩
    · rintro selected hselected i n hstored
      cases h with
      | running hwaits => cases hselected
      | blocked hwaits =>
        cases hselected
        cases hstored
      | ended hwaits hcase hnot hends =>
        cases hselected
        cases hstored
        exact ⟨rfl, _, hcase, _, _, rfl, fun a ha => (hwaits a ha).1, rfl, hends⟩
    · rintro selected hselected hstored a ha
      cases h with
      | running hwaits => exact (hwaits a ha).1
      | blocked hwaits => exact (hwaits a ha).1
      | @ended _ last c r hwaits hcase hnot hends =>
        cases hselected
        rcases List.mem_append.mp ha with ha | ha
        · exact (hwaits a ha).1
        · obtain rfl := List.mem_singleton.mp ha
          cases r with
          | count n => exact absurd rfl (hstored _ n)
          | status status => exact hends
    · rintro hzero selected hselected hret
      cases h with
      | running hwaits => cases hselected
      | blocked hwaits hpoll =>
        have hrefused := fun a ha => (hwaits a ha).2
        refine ⟨hpoll hzero, fun a ha c hc => (hrefused a ha c hc).resolve_right ?_⟩
        exact hcondition hzero hrefused a ha c hc
      | ended hwaits hcase hnot hends =>
        cases hselected
        dsimp only at hret
        omega

variable [DecidableEq C]

/-- One round from the case `i` on. -/
theorem tryEach_attemptCase (others : ℕ → List (C × Call α)) {cs : List (LoopyChannelCase α C)}
    {i : ℕ} (hcs : cases.drop i = cs) (s : Selecting α C)
    (husable : ∀ ch, (s.channels ch).Usable) :
    ∃ waits, (∀ a ∈ waits, a.Waits cases) ∧
      match tryEach (attemptCase others) s (cs.zipIdx i) with
      | (none, t) => t.attempts = s.attempts ++ waits ∧ (∀ ch, (t.channels ch).Usable) ∧
          waits.map Attempt.index = List.range' i cs.length
      | (some (k, r), t) => ∃ last c, t.attempts = s.attempts ++ waits ++ [last] ∧ last.index = k ∧
          cases[k]? = some c ∧ ¬ Refused last.before c ∧ last.Ends c r := by
  induction cs generalizing i s with
  | nil => exact ⟨[], nofun, (List.append_nil _).symm, husable, rfl⟩
  | cons c cs ih =>
    have hcase : cases[i]? = some c := by
      rw [← List.head?_drop, hcs, List.head?_cons]
    have hrest : cases.drop (i + 1) = cs := by
      rw [← List.tail_drop, hcs, List.tail_cons]
    have htried := tryCase_spec (others_usable husable (others i)) i c
    rw [List.zipIdx_cons]
    cases h : tryCase ((others i).foldl otherCall s.channels) c with
    | mk result after =>
      rw [h] at htried
      obtain ⟨hafter, htried⟩ := htried
      have hattempt : attemptCase others s (c, i) =
          (result.map fun r => (i, r), ⟨after, s.attempts ++
            [⟨i, (others i).foldl otherCall s.channels, after⟩]⟩) := by
        unfold attemptCase
        dsimp only
        rw [h]
      cases result with
      | none =>
        obtain ⟨hrefused, hidle⟩ := htried
        obtain ⟨waits, hwaits, hround⟩ := ih hrest ⟨after, s.attempts ++ [⟨i, _, after⟩]⟩ hafter
        rw [tryEach_next hattempt]
        refine ⟨⟨i, _, after⟩ :: waits, List.forall_mem_cons.mpr ⟨⟨hidle, ?_⟩, hwaits⟩, ?_⟩
        · intro c' hc'
          obtain rfl := Option.some.inj (hcase.symm.trans hc')
          exact hrefused
        · revert hround
          generalize tryEach (attemptCase others) _ (cs.zipIdx (i + 1)) = round
          obtain ⟨_ | ⟨k, r⟩, t⟩ := round
          · rintro ⟨hattempts, ht, hindex⟩
            refine ⟨by rw [hattempts, List.append_assoc]; rfl, ht, ?_⟩
            rw [List.map_cons, hindex, List.length_cons, List.range'_succ]
          · rintro ⟨last, c, hattempts, hlast⟩
            exact ⟨last, c, by rw [hattempts, List.append_assoc s.attempts]; rfl, hlast⟩
      | some r =>
        obtain ⟨hrefused, hends⟩ := htried
        rw [tryEach_done hattempt]
        exact ⟨[], nofun, _, c, by rw [List.append_nil], rfl, hcase, hrefused, hends⟩

/-- The loop is such a run. -/
theorem selectLoop_run {deadline : UInt64} (hcount : cases.length < 2 ^ 31)
    (rounds : List (Round α C)) {s : Selecting α C} (husable : ∀ ch, (s.channels ch).Usable)
    (hwaits : ∀ a ∈ s.attempts, a.Waits cases) (hpoll : timeoutUs = 0 → s.attempts = []) :
    SelectRun cases timeoutUs (selectLoop cases timeoutUs deadline rounds s).1
      (selectLoop cases timeoutUs deadline rounds s).2.attempts := by
  induction rounds generalizing s with
  | nil => exact .running hwaits hpoll
  | cons r rounds ih =>
    obtain ⟨waits, hround, hspec⟩ :=
      tryEach_attemptCase r.others (List.drop_zero (l := cases)) s husable
    unfold selectLoop
    revert hspec
    generalize tryEach (attemptCase r.others) s cases.zipIdx = round
    have hall : ∀ a ∈ s.attempts ++ waits, a.Waits cases :=
      List.forall_mem_append.mpr ⟨hwaits, hround⟩
    obtain ⟨_ | ⟨k, result⟩, t⟩ := round
    · rintro ⟨hattempts, ht, hindex⟩
      rw [← hattempts] at hall
      have hblocked : SelectRun cases timeoutUs (some ⟨-1, none⟩) t.attempts := by
        refine .blocked hall fun hzero => ?_
        rw [hattempts, hpoll hzero, List.nil_append, hindex, List.range_eq_range']
      dsimp only
      split
      · exact hblocked
      · next htimeout =>
        split
        · exact ih ht hall fun hzero => absurd hzero htimeout
        · exact hblocked
    · rintro ⟨last, c, hattempts, rfl, hcase, hrefused, hends⟩
      have hlt : last.index < cases.length := (List.getElem?_eq_some_iff.mp hcase).1
      have hint : (last.index : ℤ).bmod (2 ^ 32) = last.index :=
        Int.bmod_eq_of_le (by omega) (by omega)
      dsimp only
      rw [hattempts, hint]
      exact .ended hall hcase hrefused hends

/-- **So is the whole select.**. -/
theorem select_run {startTime : UInt64} {rounds : List (Round α C)} {channels : C → LoopyChannel α}
    (hcount : cases.length < 2 ^ 31) (husable : ∀ ch, (channels ch).Usable) :
    SelectRun cases timeoutUs (loopyChannelSelect cases timeoutUs startTime rounds channels).1
      (loopyChannelSelect cases timeoutUs startTime rounds channels).2.attempts := by
  unfold loopyChannelSelect
  split
  · next hnil => exact .blocked nofun fun _ => by rw [hnil]; rfl
  · exact selectLoop_run hcount rounds husable nofun fun _ => rfl

/-- `loopyChannelSelect` keeps the law, unless it polls channels that all say they would block, and
an SPSC channel says so where it would not. -/
theorem select_sound_iff {startTime : UInt64} {rounds : List (Round α C)}
    {channels : C → LoopyChannel α} (hcount : cases.length < 2 ^ 31)
    (husable : ∀ ch, (channels ch).Usable) :
    let result := loopyChannelSelect cases timeoutUs startTime rounds channels
    SelectLaw cases timeoutUs result ↔
      (timeoutUs = 0 → (∀ a ∈ result.2.attempts, ∀ c ∈ cases[a.index]?, Refused a.before c) →
        ∀ a ∈ result.2.attempts, ∀ c ∈ cases[a.index]?, ¬ Misleads a.before c) :=
  SelectRun.law_iff (select_run hcount husable)

/-- A receive and a send on one channel. -/
def bothWays : List (LoopyChannelCase ℕ Unit) :=
  [⟨some (), false, some 0, 8⟩, ⟨some (), true, some 5, 8⟩]

theorem select_sound_bothWays :
    let result := loopyChannelSelect bothWays (-1) 0 [⟨fun _ => [], 0⟩]
      fun _ => loopyChannelNew ℕ .MPMC 1 8
    result.1 = some ⟨1, some (1, .count 8)⟩ ∧ SelectLaw bothWays (-1) result :=
  ⟨by decide,
    (select_sound_iff (by decide) fun _ => usable_new (by decide) (by decide) 8).mpr nofun⟩

/-- A poll of an SPSC channel that is closed and drained. -/
theorem select_not_sound :
    let channels := fun _ : Unit => loopyChannelClose (loopyChannelNew ℕ .SPSC 1 8)
    let cases : List (LoopyChannelCase ℕ Unit) := [⟨some (), false, some 0, 8⟩]
    (∀ ch, (channels ch).Usable) ∧
      ¬ SelectLaw cases 0 (loopyChannelSelect cases 0 0 [⟨fun _ => [], 0⟩] channels) := by
  refine ⟨fun _ => ?_, fun hlaw => ?_⟩
  · have hnew : (loopyChannelNew ℕ .SPSC 1 8).Usable := usable_new (by decide) (by decide) 8
    obtain ⟨-, -, -, husable, -⟩ := Usable.call hnew .close
    exact husable
  · obtain ⟨-, hwould⟩ := hlaw.blocked rfl ⟨-1, none⟩ rfl rfl
    obtain ⟨ch, data, -, -, hopen, -⟩ := hwould _ (List.mem_singleton_self _) _ rfl
    cases hopen

end select

end Loopy.Channel
