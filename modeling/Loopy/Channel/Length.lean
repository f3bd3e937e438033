import Loopy.Channel.Spsc

/-!
# `loopyChannelLen` and `loopyChannelIsFull` from a third thread

`spscLen`, `spscIsFull` and `spscIsEmpty` load `head` and then `tail`. Between the two loads the
producer and the consumer go on: what is accepted after the load of `head` may be received before
the load of `tail`, and then the difference of the two is negative and wraps.
-/

namespace Loopy.Channel

open Loopy.Lib

variable {α : Type}

/-! ## The machine -/

/-- The calls of the third thread. -/
inductive Query
  | len
  | isFull
  | isEmpty
deriving DecidableEq, Repr

/-- What a call returns. -/
inductive Answer
  | len (n : ℕ)
  | flag (b : Bool)
deriving DecidableEq, Repr

/-- The call's value for the ring as the two loads show it. -/
def Query.answer (query : Query) (spsc : LoopyChannelSPSC α) : Answer :=
  match query with
  | .len => .len (spscLen spsc)
  | .isFull => .flag (spscIsFull spsc)
  | .isEmpty => .flag (spscIsEmpty spsc)

/-- A call in progress. `seen` has the occupancy of the ring at every moment since it began,
`completed` is the number of operations that have returned since. -/
structure Visit where
  query : Query
  seen : List ℕ
  completed : ℕ
deriving DecidableEq, Repr

/-- Where the third thread is. After the load of `head`, `accepted` is the number of elements
that were accepted at that moment. -/
inductive Observer
  | idle
  | called (visit : Visit)
  | loadedHead (visit : Visit) (head accepted : ℕ)
deriving DecidableEq, Repr

/-- A call that has returned, with the elements accepted at the load of `head` and received at
the load of `tail`. -/
structure Returned where
  visit : Visit
  accepted : ℕ
  received : ℕ
  answer : Answer
deriving DecidableEq, Repr

/-- The ring with its two threads, the third thread, and the calls that have returned. -/
structure Observed (α : Type) where
  ring : Spsc α
  observer : Observer
  returned : List Returned

/-- A new ring, watched by nobody yet. -/
def Observed.fresh (α : Type) (capacity elementSize : ℕ) : Observed α :=
  { ring := .fresh α capacity elementSize, observer := .idle, returned := [] }

/-- The true number of elements in the ring. -/
def Spsc.occupancy (m : Spsc α) : ℕ := m.sent.length - m.received.length

def Producer.isIdle : Producer α → Bool
  | .idle => true
  | _ => false

def Consumer.isIdle : Consumer α → Bool
  | .idle => true
  | _ => false

/-- The operations that return with this action, which leads to `m'`. -/
def Action.completes (m' : Spsc α) : Action α → ℕ
  | .producer _ => if m'.producer.isIdle then 1 else 0
  | .consumer _ => if m'.consumer.isIdle then 1 else 0

/-- The call watches the ring go on. -/
def Visit.watch (visit : Visit) (a : Action α) (m' : Spsc α) : Visit :=
  { visit with
    seen := visit.seen ++ [m'.occupancy]
    completed := visit.completed + a.completes m' }

def Observer.watch (a : Action α) (m' : Spsc α) : Observer → Observer
  | .idle => .idle
  | .called visit => .called (visit.watch a m')
  | .loadedHead visit head accepted => .loadedHead (visit.watch a m') head accepted

/-- The actions of the three threads. -/
inductive ObservedAction (α : Type)
  | ring (a : Action α)
  | call (query : Query)
  | loadHead
  | loadTail
deriving DecidableEq, Repr

/-- One action. The ring is never changed by the third thread. -/
def observedStep (m : Observed α) (a : ObservedAction α) : Option (Observed α) :=
  match a, m.observer with
  | .ring a, observer =>
    (step m.ring a).map fun ring => { m with ring := ring, observer := observer.watch a ring }
  | .call query, .idle => some { m with observer := .called ⟨query, [m.ring.occupancy], 0⟩ }
  | .loadHead, .called visit =>
    some { m with observer := .loadedHead visit m.ring.spsc.head m.ring.sent.length }
  | .loadTail, .loadedHead visit head accepted =>
    let loaded : LoopyChannelSPSC α := { m.ring.spsc with head := head }
    let r : Returned :=
      ⟨visit, accepted, m.ring.received.length, visit.query.answer loaded⟩
    some { m with observer := .idle, returned := m.returned ++ [r] }
  | _, _ => none

/-! ## What the actions of the ring count -/

variable {m m' : Spsc α} {a : Action α} {spsc : LoopyChannelSPSC α} {n capacity : ℕ}

theorem producerStep_counts {a : ProducerAction α} (hstep : producerStep m a = some m') :
    m.sent.length ≤ m'.sent.length := by
  unfold producerStep at hstep
  dsimp only at hstep
  split at hstep <;> (try split at hstep) <;> cases hstep <;> simp [Spsc.setSlot]

/-- What is received is received by an operation that returns. -/
theorem consumerStep_counts {a : ConsumerAction} (hstep : consumerStep m a = some m') :
    m.received.length ≤ m'.received.length ∧
      m'.received.length ≤ m.received.length + (Action.consumer a : Action α).completes m' := by
  unfold consumerStep at hstep
  dsimp only at hstep
  split at hstep <;> (try split at hstep) <;> cases hstep <;>
    simp [Action.completes, Consumer.isIdle]

theorem step_counts (hstep : step m a = some m') :
    m.sent.length ≤ m'.sent.length ∧ m.received.length ≤ m'.received.length ∧
      m'.received.length ≤ m.received.length + a.completes m' := by
  cases a with
  | producer a =>
    have hreceived := (producerStep_frame hstep).2.2.1
    rw [hreceived]
    exact ⟨producerStep_counts hstep, le_rfl, Nat.le_add_right _ _⟩
  | consumer a =>
    have hsent := (consumerStep_frame hstep).2.2.1
    rw [hsent]
    exact ⟨le_rfl, consumerStep_counts hstep⟩

/-! ## What the third thread knows -/

/-- Between the loads: `accepted` elements were in or through the ring when `head` was loaded,
`since` of them were received by then, and what was received since was received by operations
that have returned. -/
structure Between (m : Spsc α) (visit : Visit) (accepted since : ℕ) : Prop where
  since_le : since ≤ accepted
  accepted_le : accepted ≤ since + m.spsc.capacity
  seen : accepted - since ∈ visit.seen
  received_ge : since ≤ m.received.length
  received_le : m.received.length ≤ since + visit.completed

/-- What the third thread may rely on at its place. -/
def ObserverInv (m : Spsc α) : Observer → Prop
  | .idle => True
  | .called visit => m.occupancy ∈ visit.seen
  | .loadedHead visit head accepted =>
    head = accepted % 2 ^ 64 ∧ ∃ since, Between m visit accepted since

/-- What holds of a call that has returned. -/
structure ReturnedInv (capacity : ℕ) (r : Returned) : Prop where
  between : ∃ since, since ≤ r.accepted ∧ r.accepted ≤ since + capacity ∧
    r.accepted - since ∈ r.visit.seen ∧ since ≤ r.received ∧
    r.received ≤ since + r.visit.completed
  len : ∀ n, r.answer = .len n → n = sizeSub (r.accepted % 2 ^ 64) (r.received % 2 ^ 64)
  full : r.visit.query = .isFull → r.answer = .flag true →
    capacity ≤ sizeSub (r.accepted % 2 ^ 64) (r.received % 2 ^ 64)

/-- The invariant of the three threads. -/
structure ObservedInv (m : Observed α) : Prop where
  ring : SpscInv m.ring
  observer : ObserverInv m.ring m.observer
  returned : ∀ r ∈ m.returned, ReturnedInv m.ring.spsc.capacity r

theorem ObserverInv.watch {o : Observer} (h : ObserverInv m o) (hstep : step m a = some m') :
    ObserverInv m' (o.watch a m') := by
  obtain ⟨-, hge, hle⟩ := step_counts hstep
  have hcapacity := step_capacity hstep
  cases o with
  | idle => trivial
  | called visit => exact List.mem_append_right _ (List.mem_singleton.mpr rfl)
  | loadedHead visit head accepted =>
    obtain ⟨hhead, since, hb⟩ := h
    refine ⟨hhead, since, hb.since_le, ?_, List.mem_append_left _ hb.seen, ?_, ?_⟩
    · rw [hcapacity]
      exact hb.accepted_le
    · exact hb.received_ge.trans hge
    · have := hb.received_le
      show m'.received.length ≤ since + (visit.completed + a.completes m')
      omega

/-- The call returns the difference of what was accepted and what was received. -/
theorem Query.answer_len {query : Query} (h : query.answer spsc = .len n) :
    n = sizeSub spsc.head spsc.tail := by
  cases query with
  | len =>
    cases h
    rfl
  | isFull => cases h
  | isEmpty => cases h

theorem Query.answer_full (h : Query.isFull.answer spsc = .flag true) :
    spsc.capacity ≤ sizeSub spsc.head spsc.tail :=
  of_decide_eq_true (Answer.flag.inj h)

theorem ObservedInv.step {m m' : Observed α} {a : ObservedAction α} (h : ObservedInv m)
    (hstep : observedStep m a = some m') : ObservedInv m' := by
  obtain ⟨hring, hobserver, hreturned⟩ := h
  unfold observedStep at hstep
  split at hstep
  · obtain ⟨ring, hring', rfl⟩ := Option.map_eq_some_iff.mp hstep
    refine ⟨hring.step hring', hobserver.watch hring', ?_⟩
    rw [step_capacity hring']
    exact hreturned
  · cases hstep
    exact ⟨hring, List.mem_singleton.mpr rfl, hreturned⟩
  · next visit ho =>
    -- at the load of `head` the occupancy is among those seen
    rw [ho] at hobserver
    cases hstep
    refine ⟨hring, ⟨hring.ring.head_eq, m.ring.received.length, ?_⟩, hreturned⟩
    exact ⟨hring.ring.received_le, hring.ring.sent_le, hobserver, le_rfl, Nat.le_add_right _ _⟩
  · next visit head accepted ho =>
    rw [ho] at hobserver
    obtain ⟨rfl, since, hb⟩ := hobserver
    cases hstep
    refine ⟨hring, trivial, fun r hr => ?_⟩
    rcases List.mem_append.mp hr with hr | hr
    · exact hreturned r hr
    · rw [List.mem_singleton.mp hr]
      refine ⟨⟨since, hb.since_le, hb.accepted_le, hb.seen, hb.received_ge, hb.received_le⟩,
        fun n hn => ?_, fun hquery hfull => ?_⟩
      · rw [Query.answer_len hn, ← hring.ring.tail_eq]
      · rw [show visit.query = .isFull from hquery] at hfull
        rw [← hring.ring.tail_eq]
        exact Query.answer_full hfull
  · cases hstep

/-! ## The value of `loopyChannelLen` -/

/-- The value is a possible length: at most the capacity, and the occupancy at some moment of the
call up to the operations that returned during it. -/
def Possible (capacity n : ℕ) (visit : Visit) : Prop :=
  n ≤ capacity ∧
    ∃ occupancy ∈ visit.seen, n ≤ occupancy + visit.completed ∧ occupancy ≤ n + visit.completed

/-- How many of the elements received before the load of `tail` were accepted after the load of
`head`. -/
def Returned.overtaken (r : Returned) : ℕ := r.received - r.accepted

/-- No element was both accepted and received between the loads, or `2 ^ 64` of them but for at
most the capacity. -/
def Returned.InStep (capacity : ℕ) (r : Returned) : Prop :=
  r.overtaken % 2 ^ 64 = 0 ∨ 2 ^ 64 ≤ r.overtaken % 2 ^ 64 + capacity

instance (capacity n : ℕ) (visit : Visit) : Decidable (Possible capacity n visit) :=
  inferInstanceAs (Decidable (_ ∧ _))

instance (capacity : ℕ) (r : Returned) : Decidable (r.InStep capacity) :=
  inferInstanceAs (Decidable (_ ∨ _))

theorem ReturnedInv.possible_iff {r : Returned} (h : ReturnedInv capacity r)
    (hcap : capacity < 2 ^ 63) (hn : r.answer = .len n) :
    Possible capacity n r.visit ↔ r.InStep capacity := by
  obtain ⟨since, hsince, hle, hseen, hge, hcompleted⟩ := h.between
  have hvalue := h.len n hn
  unfold sizeSub at hvalue
  unfold Returned.InStep Returned.overtaken
  constructor
  · rintro ⟨hbound, -⟩
    omega
  · intro hstep
    have hbound : n ≤ capacity := by omega
    refine ⟨hbound, r.accepted - since, hseen, ?_, ?_⟩
    · rcases Nat.lt_or_ge r.accepted r.received with hlt | hlt
      · -- so much was received that it outnumbers the capacity
        omega
      · have hdiff : n = r.accepted - r.received := by omega
        omega
    · rcases Nat.lt_or_ge r.accepted r.received with hlt | hlt
      · omega
      · have hdiff : n = r.accepted - r.received := by omega
        omega

theorem ObservedInv.fresh (hcap : capacity + 1 < 2 ^ 64) (elementSize : ℕ) :
    ObservedInv (.fresh α capacity elementSize) :=
  ⟨.fresh hcap elementSize, trivial, fun _ hr => absurd hr List.not_mem_nil⟩

theorem observedStep_capacity {m m' : Observed α} {a : ObservedAction α}
    (hstep : observedStep m a = some m') : m'.ring.spsc.capacity = m.ring.spsc.capacity := by
  unfold observedStep at hstep
  split at hstep
  · obtain ⟨ring, hring, rfl⟩ := Option.map_eq_some_iff.mp hstep
    exact step_capacity hring
  · cases hstep
    rfl
  · cases hstep
    rfl
  · cases hstep
    rfl
  · cases hstep

/-- What holds of the calls that have returned in a run. -/
theorem returned_inv {elementSize : ℕ} (hcap : capacity + 1 < 2 ^ 64)
    {as : List (ObservedAction α)} {m : Observed α}
    (hrun : Run observedStep (fun _ _ => True) (.fresh α capacity elementSize) as m) :
    ∀ r ∈ m.returned, ReturnedInv capacity r := by
  have hinv : ObservedInv m ∧ m.ring.spsc.capacity = capacity :=
    hrun.invariant (P := fun m => ObservedInv m ∧ m.ring.spsc.capacity = capacity)
      (fun _ _ _ h _ hstep => ⟨h.1.step hstep, (observedStep_capacity hstep).trans h.2⟩)
      ⟨.fresh hcap elementSize, rfl⟩
  intro r hr
  have hreturned := hinv.1.returned r hr
  rw [hinv.2] at hreturned
  exact hreturned

/-- **The length is a possible length exactly if the indices are loaded in step.** For every
capacity and every interleaving of the producer, the consumer and a third thread that calls
`loopyChannelLen`, `loopyChannelIsFull` and `loopyChannelIsEmpty`: what a call of
`loopyChannelLen` has returned is at most the capacity, and the occupancy at some moment of the
call up to the operations that returned during it, if and only if no element was both accepted and
received between its two loads (or all but at most `capacity` of `2 ^ 64` elements were). -/
theorem len_possible (capacity elementSize : ℕ) (hcap : capacity < 2 ^ 63)
    (as : List (ObservedAction α)) (m : Observed α)
    (hrun : Run observedStep (fun _ _ => True) (.fresh α capacity elementSize) as m) :
    ∀ r ∈ m.returned, ∀ n, r.answer = .len n →
      (Possible capacity n r.visit ↔ r.InStep capacity) := by
  intro r hr n hn
  exact (returned_inv (by omega) hrun r hr).possible_iff hcap hn

/-- The third thread loads `head` of an empty ring, and an element goes through the ring before it
loads `tail`. -/
def passingRun : List (ObservedAction ℕ) :=
  [.call .len, .loadHead, .ring (.producer (.send 7 8)), .ring (.producer .checkCachedTail),
    .ring (.producer .beginWrite), .ring (.producer .endWrite), .ring (.producer .storeHead),
    .ring (.consumer (.recv 8)), .ring (.consumer .checkCachedHead), .ring (.consumer .loadHead),
    .ring (.consumer .storeCachedHead), .ring (.consumer .beginRead), .ring (.consumer .endRead),
    .ring (.consumer .storeTail), .loadTail]

/-- An element enters the ring before the call and leaves it between the loads. -/
def leavingRun : List (ObservedAction ℕ) :=
  [.ring (.producer (.send 7 8)), .ring (.producer .checkCachedTail),
    .ring (.producer .beginWrite), .ring (.producer .endWrite), .ring (.producer .storeHead),
    .call .len, .loadHead, .ring (.consumer (.recv 8)), .ring (.consumer .checkCachedHead),
    .ring (.consumer .loadHead), .ring (.consumer .storeCachedHead), .ring (.consumer .beginRead),
    .ring (.consumer .endRead), .ring (.consumer .storeTail), .loadTail]

theorem len_possible_leaving :
    ∃ m, Run observedStep (fun _ _ => True) (.fresh ℕ 1 8) leavingRun m ∧
      ∃ r ∈ m.returned, r.answer = .len 0 ∧ Possible 1 0 r.visit := by
  have hexec : (exec observedStep (fun _ _ => True) (.fresh ℕ 1 8) leavingRun).map
      (fun m => m.returned) = some [⟨⟨.len, [1, 1, 1, 1, 1, 1, 1, 0], 1⟩, 1, 1, .len 0⟩] := by
    decide +kernel
  obtain ⟨m, hrun, hreturned⟩ := Run.of_exec_map hexec
  have hr : ⟨⟨.len, [1, 1, 1, 1, 1, 1, 1, 0], 1⟩, 1, 1, .len 0⟩ ∈ m.returned := by
    rw [hreturned]
    exact List.mem_singleton.mpr rfl
  exact ⟨m, hrun, _, hr, rfl,
    (len_possible 1 8 (by decide) leavingRun m hrun _ hr 0 rfl).mpr (by decide)⟩

/-- The length of the ring of capacity 1 is `2 ^ 64 - 1`. -/
theorem len_wraps :
    ∃ m, Run observedStep (fun _ _ => True) (.fresh ℕ 1 8) passingRun m ∧
      ∃ r ∈ m.returned, r.answer = .len (2 ^ 64 - 1) ∧ ¬ Possible 1 (2 ^ 64 - 1) r.visit := by
  have hexec : (exec observedStep (fun _ _ => True) (.fresh ℕ 1 8) passingRun).map (fun m =>
      m.returned.any fun r =>
        r.answer = .len (2 ^ 64 - 1) ∧ ¬ Possible 1 (2 ^ 64 - 1) r.visit) = some true := by
    decide +kernel
  obtain ⟨m, hm, hreturned⟩ := Run.of_exec_map hexec
  obtain ⟨r, hr, hval⟩ := List.any_eq_true.mp hreturned
  exact ⟨m, hm, r, hr, of_decide_eq_true hval⟩

/-- **A ring that looks full was full**, if the indices are loaded in step. -/
theorem isFull_seen (capacity elementSize : ℕ) (hcap : capacity < 2 ^ 63)
    (as : List (ObservedAction α)) (m : Observed α)
    (hrun : Run observedStep (fun _ _ => True) (.fresh α capacity elementSize) as m) :
    ∀ r ∈ m.returned, r.visit.query = .isFull → r.answer = .flag true → r.received ≤ r.accepted →
      capacity ∈ r.visit.seen := by
  intro r hr hquery hfull hstep
  have h := returned_inv (by omega) hrun r hr
  obtain ⟨since, hsince, hle, hseen, hge, -⟩ := h.between
  have hdiff := h.full hquery hfull
  unfold sizeSub at hdiff
  have hcapacity : r.accepted - since = capacity := by omega
  rw [← hcapacity]
  exact hseen

end Loopy.Channel
