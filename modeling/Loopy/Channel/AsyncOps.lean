import Mathlib.Data.List.Perm.Subperm
import Loopy.Channel.Agreement

/-!
# Asynchronous operations on a channel

`loopyChannelSendAsync` and `loopyChannelRecvAsync` put an operation at the head of the list
`pendingOps`, under `asyncMutex`, and wake the loop. `asyncHandler` detaches the list under the
mutex and executes the operations from its head; the callbacks may put further operations on
the new list. Wake-ups are coalesced, so the handler may run at any time at which it is not
running, and one run may find any number of operations.

A list that is filled and replayed from the same end comes back in reverse: the operations are
executed in the order in which they were accepted as long as no run finds two of them.
-/

namespace Loopy.Channel

open Loopy.Lib

variable {α C U : Type}

/-! ## Pending operations -/

/-- The `union` of a pending operation, with `isSend` as the constructor; `none` is a `NULL`
callback. -/
inductive OpArgs (α C : Type)
  | send (data : α) (len : ℕ) (cb : Option C)
  | recv (cb : Option C)
deriving DecidableEq, Repr

/-- The callback of an operation. -/
def OpArgs.cb : OpArgs α C → Option C
  | .send _ _ cb => cb
  | .recv cb => cb

/-- `loopyChannelPendingOp`, told from the others by the number of operations accepted before
it. -/
structure LoopyChannelPendingOp (α C U : Type) where
  id : ℕ
  op : OpArgs α C
  userData : U
deriving DecidableEq, Repr

/-- The outcome of an operation, as its callback is given it. -/
inductive OpResult (α : Type)
  | send (status : LoopyChannelStatus)
  | recv (data : Option (Option α)) (n : ℕ) (status : LoopyChannelStatus)
deriving DecidableEq, Repr

/-- A `loopyChannel` with its list of pending operations. `async`: it was created with a
loop. -/
structure AsyncChannel (α C U : Type) where
  base : LoopyChannel α
  elementSize : ℕ
  async : Bool
  pendingOps : List (LoopyChannelPendingOp α C U)

/-- The critical section of a submission. -/
def AsyncChannel.link (ch : AsyncChannel α C U) (op : LoopyChannelPendingOp α C U) :
    AsyncChannel α C U :=
  { ch with pendingOps := op :: ch.pendingOps }

/-- `loopyChannelSendAsync`; `opAlloc` and `dataAlloc` say whether its `zmalloc`s succeed. -/
def loopyChannelSendAsync (ch : AsyncChannel α C U) (id : ℕ) (data : Option α) (len : ℕ)
    (cb : Option C) (userData : U) (opAlloc dataAlloc : Bool) : Bool × AsyncChannel α C U :=
  match data with
  | none => (false, ch)
  | some data =>
    -- the element is copied at once
    if ¬ ch.async then (false, ch)
    else if ¬ opAlloc then (false, ch)
    else if ¬ dataAlloc then (false, ch)
    else (true, ch.link { id, op := .send data len cb, userData })

/-- `loopyChannelRecvAsync`. -/
def loopyChannelRecvAsync (ch : AsyncChannel α C U) (id : ℕ) (cb : Option C) (userData : U)
    (opAlloc : Bool) : Bool × AsyncChannel α C U :=
  if ¬ ch.async then (false, ch)
  else if ¬ opAlloc then (false, ch)
  else (true, ch.link { id, op := .recv cb, userData })

/-- The arguments of a receive's callback. -/
def recvOutcome : RecvResult α → OpResult α
  | .element data n => if 0 < n then .recv (some data) n .OK else .recv none 0 .OK
  | .status status => .recv none 0 status

/-- An operation is executed by `asyncHandler`. A receive for which no buffer can be allocated
has no outcome: it is freed without a callback. -/
def executeOp (ch : AsyncChannel α C U) (op : LoopyChannelPendingOp α C U) (bufAlloc : Bool) :
    Option (OpResult α) × AsyncChannel α C U :=
  match op.op with
  | .send data len _ =>
    let (status, base) := loopyChannelTrySend ch.base data len
    (some (.send status), { ch with base })
  | .recv _ =>
    if bufAlloc then
      let (n, base) := loopyChannelTryRecv ch.base ch.elementSize
      (some (recvOutcome n), { ch with base })
    else (none, ch)

/-! ## The machine -/

/-- Where the loop is in `asyncHandler`: at the test of the `while` with the operations it still
has, or before the callback of the operation it has executed. -/
inductive HandlerPc (α C U : Type)
  | idle
  | next (ops : List (LoopyChannelPendingOp α C U))
  | callback (op : LoopyChannelPendingOp α C U) (result : OpResult α)
      (rest : List (LoopyChannelPendingOp α C U))
deriving DecidableEq, Repr

/-- The operations that the handler still has to execute. -/
def HandlerPc.ops : HandlerPc α C U → List (LoopyChannelPendingOp α C U)
  | .idle => []
  | .next ops => ops
  | .callback _ _ rest => rest

/-- The callback that is about to be invoked. -/
def HandlerPc.calling : HandlerPc α C U → List (LoopyChannelPendingOp α C U × OpResult α)
  | .callback op result _ => [(op, result)]
  | _ => []

/-- A channel and its handler, with the operations accepted and executed so far and the
callbacks invoked. `taken` counts the operations accepted before the last run of the handler
took the list. -/
structure AsyncOps (α C U : Type) where
  ch : AsyncChannel α C U
  handler : HandlerPc α C U
  accepted : List (LoopyChannelPendingOp α C U)
  executed : List (LoopyChannelPendingOp α C U × OpResult α)
  callbacks : List (C × LoopyChannelPendingOp α C U × OpResult α)
  taken : ℕ

/-- A new channel; `loop`: with a loop. -/
def AsyncOps.fresh (α C U : Type) (type : LoopyChannelType) (capacity elementSize : ℕ)
    (loop : Bool) : AsyncOps α C U :=
  { ch :=
      { base := loopyChannelNew α type capacity elementSize
        elementSize
        async := loop
        pendingOps := [] }
    handler := .idle
    accepted := []
    executed := []
    callbacks := []
    taken := 0 }

/-- The actions: submissions by any thread or callback, other calls on the channel, and the
handler. -/
inductive AsyncAction (α C U : Type)
  | sendAsync (data : Option α) (len : ℕ) (cb : Option C) (userData : U)
      (opAlloc dataAlloc : Bool)
  | recvAsync (cb : Option C) (userData : U) (opAlloc : Bool)
  | call (c : Call α)
  | take
  | execute (bufAlloc : Bool)
  | callback
  | finish
deriving DecidableEq, Repr

/-- The actions of the handler. -/
def AsyncAction.byHandler : AsyncAction α C U → Bool
  | .take | .execute _ | .callback | .finish => true
  | .sendAsync .. | .recvAsync .. | .call _ => false

/-- The callback of an executed operation, if it has one. -/
def invocation (e : LoopyChannelPendingOp α C U × OpResult α) :
    Option (C × LoopyChannelPendingOp α C U × OpResult α) :=
  e.1.op.cb.map fun cb => (cb, e)

/-- After a submission: one that returns true was accepted. -/
def AsyncOps.submitted (m : AsyncOps α C U) : Bool × AsyncChannel α C U → AsyncOps α C U
  | (true, ch) => { m with ch, accepted := m.accepted ++ ch.pendingOps.take 1 }
  | (false, ch) => { m with ch }

/-- One action. -/
def asyncStep (m : AsyncOps α C U) (a : AsyncAction α C U) : Option (AsyncOps α C U) :=
  match a, m.handler with
  | .sendAsync data len cb userData opAlloc dataAlloc, _ =>
    some (m.submitted (loopyChannelSendAsync m.ch m.accepted.length data len cb userData opAlloc
      dataAlloc))
  | .recvAsync cb userData opAlloc, _ =>
    some (m.submitted (loopyChannelRecvAsync m.ch m.accepted.length cb userData opAlloc))
  | .call c, _ => some { m with ch := { m.ch with base := (callStep m.ch.base c).2 } }
  | .take, .idle =>
    -- the critical section: the list is detached as a whole
    some { m with
      ch := { m.ch with pendingOps := [] }
      handler := .next m.ch.pendingOps
      taken := m.accepted.length }
  | .execute bufAlloc, .next (op :: rest) =>
    match executeOp m.ch op bufAlloc with
    | (some result, ch) =>
      some { m with
        ch
        handler := .callback op result rest
        executed := m.executed ++ [(op, result)] }
    | (none, ch) => some { m with ch, handler := .next rest }
  | .callback, .callback op result rest =>
    some { m with
      handler := .next rest
      callbacks := m.callbacks ++ (invocation (op, result)).toList }
  | .finish, .next [] => some { m with handler := .idle }
  | _, _ => none

/-! ## What an action does -/

/-- What an action does to the lists. -/
inductive AsyncEffect (m : AsyncOps α C U) : AsyncAction α C U → AsyncOps α C U → Prop
  | quiet {a : AsyncAction α C U} (hby : a.byHandler = false) (base : LoopyChannel α) :
      AsyncEffect m a { m with ch := { m.ch with base } }
  | submit {a : AsyncAction α C U} (hby : a.byHandler = false)
      (op : LoopyChannelPendingOp α C U) (hid : op.id = m.accepted.length) :
      AsyncEffect m a { m with ch := m.ch.link op, accepted := m.accepted ++ [op] }
  | take (hidle : m.handler = .idle) :
      AsyncEffect m .take { m with
        ch := { m.ch with pendingOps := [] }
        handler := .next m.ch.pendingOps
        taken := m.accepted.length }
  | execute {bufAlloc : Bool} {op : LoopyChannelPendingOp α C U}
      {rest : List (LoopyChannelPendingOp α C U)} (base : LoopyChannel α) (result : OpResult α)
      (hnext : m.handler = .next (op :: rest)) :
      AsyncEffect m (.execute bufAlloc) { m with
        ch := { m.ch with base }
        handler := .callback op result rest
        executed := m.executed ++ [(op, result)] }
  | drop {op : LoopyChannelPendingOp α C U} {rest : List (LoopyChannelPendingOp α C U)}
      (hnext : m.handler = .next (op :: rest)) :
      AsyncEffect m (.execute false) { m with handler := .next rest }
  | callback {op : LoopyChannelPendingOp α C U} {result : OpResult α}
      {rest : List (LoopyChannelPendingOp α C U)} (hcall : m.handler = .callback op result rest) :
      AsyncEffect m .callback { m with
        handler := .next rest
        callbacks := m.callbacks ++ (invocation (op, result)).toList }
  | finish (hnext : m.handler = .next []) : AsyncEffect m .finish { m with handler := .idle }

/-- A submission is refused and changes nothing, or its operation is the new head of the list. -/
theorem loopyChannelSendAsync_cases (ch : AsyncChannel α C U) (id : ℕ) (data : Option α) (len : ℕ)
    (cb : Option C) (userData : U) (opAlloc dataAlloc : Bool) :
    loopyChannelSendAsync ch id data len cb userData opAlloc dataAlloc = (false, ch) ∨
      ∃ op, op.id = id ∧
        loopyChannelSendAsync ch id data len cb userData opAlloc dataAlloc = (true, ch.link op) := by
  unfold loopyChannelSendAsync
  split
  · exact .inl rfl
  · by_cases hall : ch.async ∧ opAlloc ∧ dataAlloc
    · simp only [hall, not_true, if_false]
      exact .inr ⟨_, rfl, rfl⟩
    · left
      split_ifs
      all_goals first | rfl | exact absurd ⟨‹_›, ‹_›, ‹_›⟩ hall

theorem loopyChannelRecvAsync_cases (ch : AsyncChannel α C U) (id : ℕ) (cb : Option C)
    (userData : U) (opAlloc : Bool) :
    loopyChannelRecvAsync ch id cb userData opAlloc = (false, ch) ∨
      ∃ op, op.id = id ∧ loopyChannelRecvAsync ch id cb userData opAlloc = (true, ch.link op) := by
  unfold loopyChannelRecvAsync
  by_cases hall : ch.async ∧ opAlloc
  · simp only [hall, not_true, if_false]
    exact .inr ⟨_, rfl, rfl⟩
  · left
    split_ifs
    all_goals first | rfl | exact absurd ⟨‹_›, ‹_›⟩ hall

variable {m m' : AsyncOps α C U} {a : AsyncAction α C U}

theorem AsyncEffect.submitted {r : Bool × AsyncChannel α C U} (hby : a.byHandler = false)
    (h : r = (false, m.ch) ∨ ∃ op, op.id = m.accepted.length ∧ r = (true, m.ch.link op)) :
    AsyncEffect m a (m.submitted r) := by
  rcases h with rfl | ⟨op, hid, rfl⟩
  · exact .quiet hby m.ch.base
  · exact .submit hby op hid

theorem executeOp_cases (ch : AsyncChannel α C U) (op : LoopyChannelPendingOp α C U)
    (bufAlloc : Bool) :
    (∃ base result, executeOp ch op bufAlloc = (some result, { ch with base })) ∨
      (bufAlloc = false ∧ executeOp ch op bufAlloc = (none, ch)) := by
  unfold executeOp
  split
  · exact .inl ⟨_, _, rfl⟩
  · cases bufAlloc with
    | true => exact .inl ⟨_, _, rfl⟩
    | false => exact .inr ⟨rfl, rfl⟩

theorem asyncStep_effect (hstep : asyncStep m a = some m') : AsyncEffect m a m' := by
  unfold asyncStep at hstep
  split at hstep
  · cases hstep
    exact .submitted rfl (loopyChannelSendAsync_cases ..)
  · cases hstep
    exact .submitted rfl (loopyChannelRecvAsync_cases ..)
  · cases hstep
    exact .quiet rfl _
  · next hidle =>
    cases hstep
    exact .take hidle
  · next bufAlloc op rest hnext =>
    rcases executeOp_cases m.ch op bufAlloc with ⟨base, result, he⟩ | ⟨rfl, he⟩
    · rw [he] at hstep
      cases hstep
      exact .execute base result hnext
    · rw [he] at hstep
      cases hstep
      exact .drop hnext
  · next hcall =>
    cases hstep
    exact .callback hcall
  · next hnext =>
    cases hstep
    exact .finish hnext
  · cases hstep

/-! ## The properties -/

/-- The element of a send, with the number of the operation. -/
def sendElement (op : LoopyChannelPendingOp α C U) : Option (ℕ × α) :=
  match op.op with
  | .send data _ _ => some (op.id, data)
  | .recv _ => none

/-- The element that an executed operation has put into the channel. -/
def enteredElement : LoopyChannelPendingOp α C U × OpResult α → Option (ℕ × α)
  | (op, .send .OK) => sendElement op
  | _ => none

/-- The executed operations. -/
def AsyncOps.executedOps (m : AsyncOps α C U) : List (LoopyChannelPendingOp α C U) :=
  m.executed.map Prod.fst

/-- No operation is executed twice, and callbacks are invoked for the executed operations, with
their outcomes; at most one of these callbacks is still to come. -/
structure AsyncOps.Once (m : AsyncOps α C U) : Prop where
  accepted : ∀ op ∈ m.executedOps, op ∈ m.accepted
  nodup : (m.executedOps.map (·.id)).Nodup
  callbacks : m.callbacks ++ m.handler.calling.filterMap invocation =
    m.executed.filterMap invocation

/-- The operations are executed in the order in which they were accepted, so the elements of the
successful sends enter the channel in that order; once a run of the handler has ended, it has
executed everything accepted before it took the list. -/
structure AsyncOps.InOrder (m : AsyncOps α C U) : Prop where
  executed : m.executedOps <+: m.accepted
  entered : (m.executed.filterMap enteredElement).Sublist (m.accepted.filterMap sendElement)
  complete : m.handler = .idle → m.accepted.take m.taken <+: m.executedOps

/-- Every run of the handler finds at most one operation, and can allocate its buffer. -/
def OneByOne (m : AsyncOps α C U) : AsyncAction α C U → Prop
  | .take => m.ch.pendingOps.length ≤ 1
  | .execute bufAlloc => bufAlloc = true
  | _ => True

instance (m : AsyncOps α C U) : ∀ a, Decidable (OneByOne m a)
  | .take => inferInstanceAs (Decidable (m.ch.pendingOps.length ≤ 1))
  | .execute bufAlloc => inferInstanceAs (Decidable (bufAlloc = true))
  | .sendAsync .. | .recvAsync .. | .call _ | .callback | .finish => isTrue trivial

/-- The invariant of every run: an operation that was accepted is executed, with the handler or
pending, and in one of these places only, or it was dropped. -/
structure OnceInv (m : AsyncOps α C U) : Prop where
  ids : m.accepted.map (·.id) = List.range m.accepted.length
  places : (m.executedOps ++ (m.handler.ops ++ m.ch.pendingOps)).Subperm m.accepted
  callbacks : m.callbacks ++ m.handler.calling.filterMap invocation =
    m.executed.filterMap invocation

theorem OnceInv.fresh (type : LoopyChannelType) (capacity elementSize : ℕ) (loop : Bool) :
    OnceInv (.fresh α C U type capacity elementSize loop) :=
  ⟨rfl, List.Subperm.refl [], rfl⟩

theorem OnceInv.effect (h : OnceInv m) (heffect : AsyncEffect m a m') : OnceInv m' := by
  have hplaces := h.places
  have hcallbacks := h.callbacks
  cases heffect with
  | quiet hby base => exact ⟨h.ids, hplaces, hcallbacks⟩
  | submit hby op hid =>
    -- the new operation is the last accepted and the first pending
    refine ⟨?_, ?_, hcallbacks⟩
    · rw [List.map_append, h.ids, List.length_append, List.length_singleton, List.range_succ,
        List.map_singleton, hid]
    · show (m.executedOps ++ (m.handler.ops ++ op :: m.ch.pendingOps)).Subperm (m.accepted ++ [op])
      have hperm : (m.executedOps ++ (m.handler.ops ++ op :: m.ch.pendingOps)).Perm
          (m.executedOps ++ (m.handler.ops ++ m.ch.pendingOps) ++ [op]) := by
        rw [← List.append_assoc, ← List.append_assoc]
        exact List.perm_middle.trans (List.perm_append_singleton _ _).symm
      exact hperm.subperm_right.mpr ((List.subperm_append_right [op]).mpr hplaces)
  | take hidle =>
    rw [hidle] at hplaces hcallbacks
    refine ⟨h.ids, ?_, hcallbacks⟩
    show (m.executedOps ++ (m.ch.pendingOps ++ [])).Subperm m.accepted
    rw [List.append_nil]
    exact hplaces
  | @execute _ op rest base result hnext =>
    rw [hnext] at hplaces hcallbacks
    refine ⟨h.ids, ?_, ?_⟩
    · show ((m.executed ++ [(op, result)]).map Prod.fst ++ (rest ++ m.ch.pendingOps)).Subperm
        m.accepted
      rw [List.map_append, List.append_assoc]
      exact hplaces
    · show m.callbacks ++ [(op, result)].filterMap invocation =
        (m.executed ++ [(op, result)]).filterMap invocation
      rw [List.filterMap_append, ← hcallbacks]
      simp [HandlerPc.calling]
  | @drop op rest hnext =>
    -- the operation is in none of the places any more
    rw [hnext] at hplaces hcallbacks
    refine ⟨h.ids, List.Subperm.trans ?_ hplaces, hcallbacks⟩
    show (m.executedOps ++ (rest ++ m.ch.pendingOps)).Subperm
      (m.executedOps ++ (op :: rest ++ m.ch.pendingOps))
    exact ((List.sublist_cons_self op _).append_left _).subperm
  | @callback op result rest hcall =>
    rw [hcall] at hplaces hcallbacks
    refine ⟨h.ids, hplaces, ?_⟩
    show m.callbacks ++ (invocation (op, result)).toList ++ [] = m.executed.filterMap invocation
    rw [← hcallbacks, List.append_nil]
    cases hinv : invocation (op, result) with
    | none => simp [HandlerPc.calling, hinv]
    | some i => simp [HandlerPc.calling, hinv]
  | finish hnext =>
    rw [hnext] at hplaces hcallbacks
    exact ⟨h.ids, hplaces, hcallbacks⟩

theorem OnceInv.once (h : OnceInv m) : m.Once := by
  -- `range` has no repetitions, so the ids of what was executed have none
  have hexecuted : m.executedOps.Subperm m.accepted :=
    (List.sublist_append_left _ _).subperm.trans h.places
  refine ⟨fun op hop => hexecuted.subset hop, ?_, h.callbacks⟩
  obtain ⟨ops, hperm, hsub⟩ := hexecuted
  have hrange : (ops.map (·.id)).Sublist (List.range m.accepted.length) := by
    rw [← h.ids]
    exact hsub.map _
  exact (hperm.map _).nodup_iff.mp (List.nodup_range.sublist hrange)

/-- The invariant of a run whose handler never finds two operations. -/
structure OrderInv (m : AsyncOps α C U) : Prop where
  order : m.executedOps ++ m.handler.ops ++ m.ch.pendingOps.reverse = m.accepted
  taken : m.taken ≤ m.executedOps.length + m.handler.ops.length

theorem OrderInv.fresh (type : LoopyChannelType) (capacity elementSize : ℕ) (loop : Bool) :
    OrderInv (.fresh α C U type capacity elementSize loop) :=
  ⟨rfl, le_rfl⟩

theorem OrderInv.effect (h : OrderInv m) (hok : OneByOne m a) (heffect : AsyncEffect m a m') :
    OrderInv m' := by
  have horder := h.order
  have htaken := h.taken
  cases heffect with
  | quiet hby base => exact ⟨horder, htaken⟩
  | submit hby op hid =>
    refine ⟨?_, htaken⟩
    show m.executedOps ++ m.handler.ops ++ (op :: m.ch.pendingOps).reverse = m.accepted ++ [op]
    rw [List.reverse_cons, ← List.append_assoc, horder]
  | take hidle =>
    -- the list is its own reverse
    have hrev : m.ch.pendingOps.reverse = m.ch.pendingOps := by
      match hops : m.ch.pendingOps with
      | [] => rfl
      | [_] => rfl
      | _ :: _ :: _ =>
        have hlen : m.ch.pendingOps.length ≤ 1 := hok
        rw [hops] at hlen
        simp at hlen
    rw [hidle, hrev] at horder
    have hall : m.executedOps ++ m.ch.pendingOps = m.accepted := by
      simpa [HandlerPc.ops] using horder
    refine ⟨?_, ?_⟩
    · show m.executedOps ++ m.ch.pendingOps ++ [] = m.accepted
      rw [List.append_nil, hall]
    · show m.accepted.length ≤ m.executedOps.length + m.ch.pendingOps.length
      rw [← hall, List.length_append]
  | @execute _ op rest base result hnext =>
    rw [hnext] at horder htaken
    have hexecuted : (m.executed ++ [(op, result)]).map Prod.fst = m.executedOps ++ [op] :=
      List.map_append
    refine ⟨?_, ?_⟩
    · show (m.executed ++ [(op, result)]).map Prod.fst ++ rest ++ m.ch.pendingOps.reverse =
        m.accepted
      rw [hexecuted, List.append_assoc _ [op]]
      exact horder
    · show m.taken ≤ ((m.executed ++ [(op, result)]).map Prod.fst).length + rest.length
      rw [hexecuted, List.length_append]
      simp only [HandlerPc.ops, List.length_cons] at htaken
      simp only [List.length_singleton]
      omega
  | drop hnext => exact absurd hok Bool.false_ne_true
  | callback hcall =>
    rw [hcall] at horder htaken
    exact ⟨horder, htaken⟩
  | finish hnext =>
    rw [hnext] at horder htaken
    exact ⟨horder, htaken⟩

/-- Fewer results of a `filterMap`. -/
theorem filterMap_sublist {β γ : Type} {f g : β → Option γ} (h : ∀ b, f b = none ∨ f b = g b)
    (l : List β) : (l.filterMap f).Sublist (l.filterMap g) := by
  -- a step of `f` is the step of `g` or none
  induction l with
  | nil => exact List.Sublist.refl []
  | cons b l ih =>
    rcases h b with hb | hb
    · rw [List.filterMap_cons_none hb, List.filterMap_cons]
      split
      · exact ih
      · exact ih.cons _
    · rw [List.filterMap_cons, List.filterMap_cons, hb]
      split
      · exact ih
      · exact ih.cons_cons _

theorem enteredElement_eq (e : LoopyChannelPendingOp α C U × OpResult α) :
    enteredElement e = none ∨ enteredElement e = sendElement e.1 := by
  unfold enteredElement
  split
  · exact .inr rfl
  · exact .inl rfl

theorem OrderInv.inOrder (h : OrderInv m) : m.InOrder := by
  have hexecuted : m.executedOps <+: m.accepted := by
    rw [← h.order, List.append_assoc]
    exact List.prefix_append _ _
  refine ⟨hexecuted, ?_, fun hidle => ?_⟩
  · -- the sends that succeeded, among the sends that were executed
    have hsent : m.executed.filterMap (fun e => sendElement e.1) =
        m.executedOps.filterMap sendElement := by
      rw [AsyncOps.executedOps, List.filterMap_map]
      rfl
    have hentered := filterMap_sublist enteredElement_eq m.executed
    rw [hsent] at hentered
    exact hentered.trans (hexecuted.filterMap sendElement).sublist
  · -- an idle handler has nothing left of what it took
    have htaken := h.taken
    rw [hidle] at htaken
    refine List.prefix_of_prefix_length_le (List.take_prefix _ _) hexecuted ?_
    rw [List.length_take]
    simp only [HandlerPc.ops, List.length_nil, Nat.add_zero] at htaken
    omega

/-! ## Runs -/

/-- The handler works off what it has: by its own actions it comes to its end. -/
theorem handler_works_off (ops : List (LoopyChannelPendingOp α C U)) (m : AsyncOps α C U)
    (hnext : m.handler = .next ops) :
    ∃ as m', (∀ a ∈ as, AsyncAction.byHandler a = true) ∧ Run asyncStep OneByOne m as m' ∧
      m'.handler = .idle ∧ m'.accepted = m.accepted ∧ m'.taken = m.taken := by
  -- induction on the operations that are left; a callback's submissions go to the other list
  induction ops generalizing m with
  | nil =>
    have hfinish : asyncStep m .finish = some { m with handler := .idle } := by
      unfold asyncStep
      rw [hnext]
    exact ⟨[.finish], _, by simp [AsyncAction.byHandler], .single trivial hfinish, rfl, rfl, rfl⟩
  | cons op rest ih =>
    rcases executeOp_cases m.ch op true with ⟨base, result, he⟩ | ⟨hfalse, _⟩
    · have hexecute : asyncStep m (.execute true) = some { m with
          ch := { m.ch with base }
          handler := .callback op result rest
          executed := m.executed ++ [(op, result)] } := by
        unfold asyncStep
        rw [hnext]
        dsimp only
        rw [he]
      obtain ⟨as, m', hby, hrun, hend⟩ := ih { m with
        ch := { m.ch with base }
        handler := .next rest
        executed := m.executed ++ [(op, result)]
        callbacks := m.callbacks ++ (invocation (op, result)).toList } rfl
      refine ⟨.execute true :: .callback :: as, m', ?_,
        .cons rfl hexecute (.cons trivial rfl hrun), hend⟩
      rw [List.forall_mem_cons, List.forall_mem_cons]
      exact ⟨rfl, rfl, hby⟩
    · exact absurd hfalse.symm Bool.false_ne_true

/-- A run of the handler that has begun comes to its end. -/
theorem handler_ends (m : AsyncOps α C U) :
    ∃ as m', (∀ a ∈ as, AsyncAction.byHandler a = true) ∧ Run asyncStep OneByOne m as m' ∧
      m'.handler = .idle ∧ m'.accepted = m.accepted ∧ m'.taken = m.taken := by
  match hpc : m.handler with
  | .idle => exact ⟨[], m, by simp, .nil m, hpc, rfl, rfl⟩
  | .next ops => exact handler_works_off ops m hpc
  | .callback op result rest =>
    have hcallback : asyncStep m .callback = some { m with
        handler := .next rest
        callbacks := m.callbacks ++ (invocation (op, result)).toList } := by
      unfold asyncStep
      rw [hpc]
    obtain ⟨as, m', hby, hrun, hend⟩ := handler_works_off rest { m with
      handler := .next rest
      callbacks := m.callbacks ++ (invocation (op, result)).toList } rfl
    refine ⟨.callback :: as, m', ?_, .cons trivial hcallback hrun, hend⟩
    rw [List.forall_mem_cons]
    exact ⟨rfl, hby⟩

/-! ## Two operations in one list -/

/-- The handler can allocate its buffers. -/
def Allocates (_ : AsyncOps α C U) : AsyncAction α C U → Prop
  | .execute bufAlloc => bufAlloc = true
  | _ => True

/-- A later operation stands before an earlier one in the order of execution. -/
def AsyncOps.Reversed (m : AsyncOps α C U) : Prop :=
  ¬ (m.executedOps ++ m.handler.ops).Pairwise fun op op' => op.id < op'.id

/-- The pending operations, from the last to the first. -/
structure NewestFirst (m : AsyncOps α C U) : Prop where
  once : OnceInv m
  pending : m.ch.pendingOps.Pairwise fun op op' => op'.id < op.id

theorem NewestFirst.effect (h : NewestFirst m) (heffect : AsyncEffect m a m') : NewestFirst m' := by
  refine ⟨h.once.effect heffect, ?_⟩
  have hpending := h.pending
  cases heffect with
  | submit hby op hid =>
    refine List.pairwise_cons.mpr ⟨fun op' hop' => ?_, hpending⟩
    have hmem : op' ∈ m.accepted :=
      h.once.places.subset (List.mem_append_right _ (List.mem_append_right _ hop'))
    have hrange : op'.id ∈ List.range m.accepted.length := by
      rw [← h.once.ids]
      exact List.mem_map_of_mem hmem
    rw [hid]
    exact List.mem_range.mp hrange
  | take hidle => exact List.Pairwise.nil
  | _ => exact hpending

/-- An execution that is out of order stays so. -/
theorem AsyncOps.Reversed.effect (h : m.Reversed) (hok : Allocates m a)
    (heffect : AsyncEffect m a m') : m'.Reversed := by
  intro hsorted
  apply h
  cases heffect with
  | quiet hby base => exact hsorted
  | submit hby op hid => exact hsorted
  | take hidle =>
    rw [hidle]
    exact hsorted.sublist ((List.nil_sublist _).append_left _)
  | @execute _ op rest base result hnext =>
    have hsame : (m.executed ++ [(op, result)]).map Prod.fst ++ rest =
        m.executedOps ++ (op :: rest) := by
      rw [List.map_append, List.append_assoc]
      rfl
    rw [hnext]
    exact hsame ▸ hsorted
  | drop hnext => exact absurd hok Bool.false_ne_true
  | callback hcall =>
    rw [hcall]
    exact hsorted
  | finish hnext =>
    rw [hnext]
    exact hsorted

/-- A handler that takes two operations will execute them out of order. -/
theorem NewestFirst.reversed (h : NewestFirst m) (htwo : ¬ m.ch.pendingOps.length ≤ 1) :
    ¬ (m.executedOps ++ m.ch.pendingOps).Pairwise fun op op' => op.id < op'.id := by
  intro hsorted
  have hpending := h.pending
  have hsorted := (List.pairwise_append.mp hsorted).2.1
  match hops : m.ch.pendingOps with
  | [] => simp [hops] at htwo
  | [_] => simp [hops] at htwo
  | op :: op' :: _ =>
    rw [hops] at hpending hsorted
    have hlt := List.rel_of_pairwise_cons hpending List.mem_cons_self
    have hgt := List.rel_of_pairwise_cons hsorted List.mem_cons_self
    omega

theorem oneByOne_or_reversed {as : List (AsyncAction α C U)}
    (hrun : Run asyncStep Allocates m as m') (h : NewestFirst m) :
    Run asyncStep OneByOne m as m' ∨ m'.Reversed := by
  induction hrun with
  | nil m => exact .inl (.nil m)
  | @cons m m₁ m' a as hok hstep hrest ih =>
    have heffect := asyncStep_effect hstep
    by_cases hone : OneByOne m a
    · exact (ih (h.effect heffect)).imp_left (.cons hone hstep)
    · right
      refine hrest.invariant (P := AsyncOps.Reversed)
        (fun _ _ _ h hok hstep => h.effect hok (asyncStep_effect hstep)) ?_
      -- the step took two operations
      cases a with
      | take =>
        have htwo : ¬ m.ch.pendingOps.length ≤ 1 := hone
        cases heffect with
        | quiet hby => cases hby
        | submit hby => cases hby
        | take hidle => exact h.reversed htwo
      | execute bufAlloc => exact absurd hok hone
      | _ => exact absurd trivial hone

theorem OnceInv.accepted_sorted (h : OnceInv m) :
    m.accepted.Pairwise fun op op' => op.id < op'.id := by
  have hids : (m.accepted.map (·.id)).Pairwise (· < ·) := by
    rw [h.ids]
    exact List.pairwise_lt_range
  exact List.pairwise_map.mp hids

/-! ## Once and in order -/

section

variable (α C U : Type) (type : LoopyChannelType) (capacity elementSize : ℕ) (loop : Bool)

/-- **Asynchronous operations are executed once and in order.** In every run no operation is
executed twice, and callbacks are invoked for the executed operations. In a run whose handler
never finds two operations, and can allocate its buffers, they are executed in the order in
which they were accepted, and a run of the handler, which always comes to its end, executes
everything accepted before it took the list. No other run that is through with its lists, and
could allocate its buffers, is in order. -/
theorem async_ops_in_order :
    (∀ as (m : AsyncOps α C U), Run asyncStep (fun _ _ => True)
        (.fresh α C U type capacity elementSize loop) as m → m.Once) ∧
      (∀ as (m : AsyncOps α C U), Run asyncStep OneByOne
        (.fresh α C U type capacity elementSize loop) as m →
        m.InOrder ∧ ∃ bs m', (∀ b ∈ bs, AsyncAction.byHandler b = true) ∧
          Run asyncStep OneByOne m bs m' ∧ m'.handler = .idle ∧
          m.accepted.take m.taken <+: m'.executedOps) ∧
      ∀ as (m : AsyncOps α C U), Run asyncStep Allocates
        (.fresh α C U type capacity elementSize loop) as m → m.handler = .idle → m.InOrder →
        Run asyncStep OneByOne (.fresh α C U type capacity elementSize loop) as m := by
  have hfirst : NewestFirst (.fresh α C U type capacity elementSize loop) := ⟨.fresh .., .nil⟩
  have horder : ∀ {m : AsyncOps α C U} {as}, Run asyncStep OneByOne
      (.fresh α C U type capacity elementSize loop) as m → OrderInv m := fun h => h.invariant
    (fun _ _ _ h hok hstep => h.effect hok (asyncStep_effect hstep)) (.fresh ..)
  have honce : ∀ {ok} {m : AsyncOps α C U} {as}, Run asyncStep ok
      (.fresh α C U type capacity elementSize loop) as m → OnceInv m := fun h => h.invariant
    (fun _ _ _ h _ hstep => h.effect (asyncStep_effect hstep)) hfirst.once
  refine ⟨fun as m hrun => (honce hrun).once, fun as m hrun => ?_, fun as m hrun hidle hin => ?_⟩
  · obtain ⟨bs, m', hby, hrest, hidle, haccepted, htaken⟩ := handler_ends m
    refine ⟨(horder hrun).inOrder, bs, m', hby, hrest, hidle, ?_⟩
    rw [← haccepted, ← htaken]
    exact (horder (hrun.append hrest)).inOrder.complete hidle
  · refine (oneByOne_or_reversed hrun hfirst).resolve_right fun hreversed => hreversed ?_
    rw [hidle, HandlerPc.ops, List.append_nil]
    exact (honce hrun).accepted_sorted.sublist hin.executed.sublist

end

/-- A send whose callback submits a receive; each run of the handler finds one of them. -/
def echoRun : List (AsyncAction ℕ Bool ℕ) :=
  [.sendAsync (some 7) 8 (some true) 0 true true, .take, .execute true, .callback,
    .recvAsync (some false) 1 true, .finish, .take, .execute true, .callback, .finish]

theorem async_ops_in_order_echo :
    ∃ m : AsyncOps ℕ Bool ℕ,
      Run asyncStep OneByOne (.fresh ℕ Bool ℕ .SPSC 4 8 true) echoRun m ∧ m.Once ∧ m.InOrder ∧
        m.executed.map (fun e => (e.1.id, e.2)) =
          [(0, .send .OK), (1, .recv (some (some 7)) 8 .OK)] := by
  obtain ⟨honce, horder, _⟩ := async_ops_in_order ℕ Bool ℕ .SPSC 4 8 true
  have hexec : (exec asyncStep OneByOne (.fresh ℕ Bool ℕ .SPSC 4 8 true) echoRun).map
      (fun m => m.executed.map fun e => (e.1.id, e.2)) =
        some [(0, .send .OK), (1, .recv (some (some 7)) 8 .OK)] := by decide +kernel
  obtain ⟨m, hrun, hval⟩ := Run.of_exec_map hexec
  exact ⟨m, hrun, honce _ m (hrun.mono fun _ _ _ => trivial), (horder _ m hrun).1, hval⟩

/-- Two elements sent before the handler runs enter the channel in reverse. -/
theorem async_sends_reversed :
    ¬ ∀ as (m : AsyncOps ℕ Bool ℕ),
      Run asyncStep (fun _ _ => True) (.fresh ℕ Bool ℕ .SPSC 4 8 true) as m → m.InOrder := by
  intro hall
  have hexec : (exec asyncStep (fun _ _ => True) (.fresh ℕ Bool ℕ .SPSC 4 8 true)
      [.sendAsync (some 7) 8 none 0 true true, .sendAsync (some 9) 8 none 1 true true, .take,
        .execute true, .callback, .execute true, .callback, .finish]).map
      (fun m => (m.executed.filterMap enteredElement, m.accepted.filterMap sendElement)) =
        some ([(1, 9), (0, 7)], [(0, 7), (1, 9)]) := by decide +kernel
  obtain ⟨m, hm, hval⟩ := Run.of_exec_map hexec
  obtain ⟨hentered, hsent⟩ := Prod.mk.inj hval
  have hsub := (hall _ m hm).entered
  rw [hentered, hsent] at hsub
  exact absurd (hsub.eq_of_length rfl) (by decide)

end Loopy.Channel
