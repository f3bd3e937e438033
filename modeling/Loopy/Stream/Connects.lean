import Loopy.Stream.Places

/-!
# `loopyStream.c`: connect callbacks

`loopyStreamConnect` calls its callback at once, or it leaves it to `streamConnectCallback`. There
is one slot for the callback: every connect in progress writes to it, nothing clears it, and
`loopyStreamClose` does not look at it. A callback is called once, and told what became of its
connection, as long as no other connect and no close comes while it waits, and as long as the
socket that `streamConnectCallback` asks is the one the connect began on (`Undisturbed`).

The last thing `loopyStreamConnect` and `streamConnectCallback` do is to call the callback, so the
stream may be closed there.
-/

namespace Loopy.Stream

open Loopy.Lib

/-! ## The record -/

/-- A call of `loopyStreamConnect`: whether it had a callback, and what it returns. -/
structure ConnectCall where
  cb : Bool
  returned : Bool
deriving DecidableEq, Repr

/-- A connect callback is called: the number of the call that it is from, whether with status 0,
and whether the connection of that call is established. -/
structure ConnectAnswer where
  call : ℕ
  ok : Bool
  established : Bool
deriving DecidableEq, Repr

/-- A stream and a record of its connects; `slot` is the call that `connectCb` is from, `inFlight`
the one whose connection the kernel is setting up on the stream's socket. `replaced` says that the
socket has been replaced since the connect in the slot began. -/
structure Connects where
  stream : LoopyStream
  calls : List ConnectCall
  slot : ℕ
  inFlight : Option ℕ
  replaced : Bool
  answers : List ConnectAnswer

/-- A new stream. -/
def Connects.new (stream : LoopyStream) : Connects :=
  { stream
    calls := []
    slot := 0
    inFlight := none
    replaced := false
    answers := [] }

/-- `loopyStreamConnect` gets as far as the call of `connect`. -/
def LoopyStream.connects (s : LoopyStream) : Address → Bool
  | .ipv4 => decide (s.type = .tcp) && s.fd.isSome
  | .ipv6 fd nonBlock => decide (s.type = .tcp) && s.fd.isSome && fd.isSome && nonBlock
  | .invalid => false

/-- `loopyStreamConnect` closes the socket, and a connection that is being set up on it. -/
def LoopyStream.replaces (s : LoopyStream) : Address → Bool
  | .ipv6 .. => decide (s.type = .tcp) && s.fd.isSome
  | .ipv4 | .invalid => false

/-- A call of `loopyStreamConnect` for `address`. -/
def Connects.called (s : Connects) (address : Address) (cb returned : Bool) : Connects :=
  { s with
    calls := s.calls ++ [{ cb, returned }]
    inFlight := if s.stream.replaces address then none else s.inFlight
    replaced := s.replaced || s.stream.replaces address }

/-- A callback is called. -/
def Connects.answer (s : Connects) (call : ℕ) (ok established : Bool) : Connects :=
  { s with answers := s.answers ++ [{ call, ok, established }] }

/-- What an action of the stream is for the connects. -/
def Connects.after (s : Connects) : Action → Connects
  | .connect address r cb =>
    if s.stream.connects address then
      match r with
      | .error => s.called address cb false
      | .done =>
        if cb then (s.called address cb true).answer s.calls.length true true
        else s.called address cb true
      | .inProgress =>
        { s.called address cb true with
          slot := s.calls.length
          inFlight := some s.calls.length
          replaced := false }
    else s.called address cb false
  | .getsockopt ok =>
    if s.stream.connectCb then
      { s.answer s.slot ok (ok && decide (s.inFlight = some s.slot)) with inFlight := none }
    else { s with inFlight := none }
  | _ => s

/-- One action. -/
def Connects.step (s : Connects) (a : Action) : Option Connects :=
  (tailStep s.stream a).map fun stream => { s.after a with stream }

/-- How often the callback of a call was called. -/
def Connects.times (s : Connects) (n : ℕ) : ℕ := (s.answers.map (·.call)).count n

/-- A call returned true and had a callback. -/
def Connects.Owed (s : Connects) (n : ℕ) : Prop := s.calls[n]? = some ⟨true, true⟩

/-- Every connect is answered once, before the stream is closed, with status 0 exactly if its
connection is established; a call that returned false is never answered. -/
structure ConnectLaw (s : Connects) : Prop where
  once : ∀ n, s.Owed n → s.times n ≤ 1
  closed : s.stream.pc = .closed → ∀ n, s.Owed n → s.times n = 1
  status : ∀ d ∈ s.answers, d.ok = d.established
  owed : ∀ d ∈ s.answers, s.Owed d.call

/-- A connect is in progress, and its callback waits in the slot. -/
def LoopyStream.connectWaits (s : LoopyStream) : Bool := s.connectCb && s.connecting

/-- A callback that waits is forgotten, or that of the call is never called; a registration that was
left behind calls a callback again, or the present socket answers for the one it has replaced. -/
def Connects.misses (s : Connects) : Action → Bool
  | .connect address r cb =>
    s.stream.connects address && decide (r = .inProgress) &&
      (s.stream.connectWaits || (s.stream.closing && cb))
  | .getsockopt ok => s.stream.connectCb && (!s.stream.connecting || (ok && s.replaced))
  | .close _ => !s.stream.closing && s.stream.connectWaits
  | _ => false

/-- No answer is missed, and none goes wrong. -/
def Undisturbed (s : Connects) (a : Action) : Prop := s.misses a = false

instance : ∀ s a, Decidable (Undisturbed s a) := fun s a =>
  inferInstanceAs (Decidable (s.misses a = false))

/-! ## What the other actions leave alone -/

/-- The callback in the slot is the same, and it waits as it did. -/
structure SameSlot (s s' : LoopyStream) : Prop where
  connectCb : s'.connectCb = s.connectCb
  connecting : s'.connecting = s.connecting

/-- The stream is closed or open as it was. -/
structure SameOpen (s s' : LoopyStream) : Prop where
  closing : s'.closing = s.closing
  closes : s'.pc.closes = s.pc.closes

/-- Nothing changes that the connects depend on. -/
structure SameConnect (s s' : LoopyStream) : Prop extends SameSlot s s', SameOpen s s'

section frame

variable {s s' s'' : LoopyStream}

/-- A function that user code calls. -/
theorem SamePlace.sameConnect (h : SamePlace s s') (hslot : SameSlot s s') : SameConnect s s' :=
  ⟨hslot, h.closing, congrArg Pc.closes h.pc⟩

/-- Two actions that leave the slot leave it together. -/
theorem SameSlot.trans (h : SameSlot s s') (h' : SameSlot s' s'') : SameSlot s s'' :=
  ⟨h'.connectCb.trans h.connectCb, h'.connecting.trans h.connecting⟩

namespace LoopyStream

/-- Watching the descriptor leaves the slot. -/
theorem updateWriteWatcher_slot (s : LoopyStream) :
    SameSlot s s.updateWriteWatcher := by
  unfold updateWriteWatcher
  split <;> exact ⟨rfl, rfl⟩

/-- So does the end of it. -/
theorem unregisterWrite_slot (s : LoopyStream) : SameSlot s s.unregisterWrite := by
  unfold unregisterWrite
  split <;> exact ⟨rfl, rfl⟩

/-- A request that is queued leaves the slot. -/
theorem enqueue_slot (s : LoopyStream) (data : List UInt8) (fds : List ℕ)
    (cb : Bool) : SameSlot s (s.enqueue data fds cb) := by
  unfold enqueue setReq
  dsimp only
  split <;> exact ⟨rfl, rfl⟩

/-- A write leaves the slot, also one that the kernel takes at once. -/
theorem write_connect (s : LoopyStream) (data : List UInt8) (cb alloc : Bool) :
    SameConnect s (s.write data cb alloc) := by
  refine (s.write_place data cb alloc).sameConnect ?_
  unfold write
  repeat' split
  all_goals first
    | exact ⟨rfl, rfl⟩
    | exact (enqueue_slot ..).trans (updateWriteWatcher_slot _)

/-- So does a write with descriptors. -/
theorem writeWithFd_connect (s : LoopyStream) (data : List UInt8) (fds : List ℕ)
    (cb alloc : Bool) : SameConnect s (s.writeWithFd data fds cb alloc) := by
  refine (s.writeWithFd_place data fds cb alloc).sameConnect ?_
  unfold writeWithFd
  repeat' split
  all_goals first
    | exact ⟨rfl, rfl⟩
    | exact (enqueue_slot ..).trans (updateWriteWatcher_slot _)

/-- So does a write that is only tried. -/
theorem tryWrite_connect {data : List UInt8} {r : KernelResult}
    (h : s.tryWrite data r = some s') : SameConnect s s' := by
  refine (tryWrite_place h).sameConnect ?_
  unfold tryWrite at h
  repeat' split at h
  all_goals cases h
  all_goals exact ⟨rfl, rfl⟩

/-- A shutdown waits in a slot of its own. -/
theorem shutdown_connect (s : LoopyStream) (ok cb : Bool) :
    SameConnect s (s.shutdown ok cb) := by
  refine (s.shutdown_place ok cb).sameConnect ?_
  unfold shutdown
  dsimp only
  repeat' split
  all_goals exact ⟨rfl, rfl⟩

/-- A handler may go on to a place that is as open as its own. -/
theorem updateWriteWatcher_goes_connect (s : LoopyStream) {pc : Pc}
    (hpc : pc.closes = s.pc.closes) : SameConnect s { s.updateWriteWatcher with pc } :=
  ⟨⟨s.updateWriteWatcher_slot.connectCb, s.updateWriteWatcher_slot.connecting⟩,
    s.updateWriteWatcher_place.closing, hpc⟩

/-- The loop calls a handler, and nothing is answered yet. -/
theorem dispatch_connect (hpc : s.pc = .idle) (h : s.dispatch = some s') :
    SameConnect s s' := by
  unfold dispatch at h
  split at h
  · cases h
    refine ⟨⟨rfl, rfl⟩, rfl, ?_⟩
    rw [hpc]
    cases s.connecting <;> rfl
  · cases h
    refine ⟨⟨rfl, rfl⟩, rfl, ?_⟩
    rw [hpc]
    rfl
  · cases h

/-- What the kernel takes of the queue is no matter of a connect. -/
theorem kernelWrite_connect (hpc : s.pc = .writeLoop) {n : ℕ} {r : KernelResult}
    (h : s.kernelWrite n r = some s') : SameConnect s s' := by
  unfold kernelWrite setReq at h
  dsimp only at h
  split at h
  · cases h
    exact ⟨⟨rfl, rfl⟩, rfl, by rw [hpc]; rfl⟩
  · cases h
    exact ⟨⟨rfl, rfl⟩, rfl, by rw [hpc]; rfl⟩
  · obtain ⟨-, h⟩ := Option.ite_none_right_eq_some.mp h
    split at h
    · cases h
      refine ⟨⟨rfl, rfl⟩, rfl, ?_⟩
      rw [hpc]
      dsimp only
      split <;> rfl
    · cases h
      exact ⟨⟨rfl, rfl⟩, rfl, rfl⟩

/-- Neither is the end of the write handler. -/
theorem finishWrite_connect (hpc : s.pc = .writeLoop) :
    SameConnect s s.finishWrite := by
  have hidle : Pc.idle.closes = s.pc.closes := by rw [hpc]; rfl
  unfold finishWrite
  dsimp only
  split
  · split
    · exact ⟨⟨rfl, rfl⟩, rfl, by rw [hpc]; rfl⟩
    · obtain ⟨hslot, hclosing, hcloses⟩ := updateWriteWatcher_goes_connect
        { s with writable := false, shutdownPending := false } hidle
      exact ⟨⟨hslot.connectCb, hslot.connecting⟩, hclosing, hcloses⟩
  · exact s.updateWriteWatcher_goes_connect hidle

/-- Draining fails the writes that wait, not the connect. -/
theorem drainStep_connect {closing : Bool} {req : Option ℕ}
    (hpc : s.pc = .drain closing req) : SameConnect s (s.drainStep closing req) := by
  have hcloses : s.pc.closes = closing := by rw [hpc]; rfl
  unfold drainStep
  dsimp only
  split
  · refine ⟨⟨rfl, rfl⟩, rfl, ?_⟩
    rw [hcloses]
    dsimp only
    split <;> rfl
  · split
    · next hclosing => exact ⟨⟨rfl, rfl⟩, rfl, by rw [hcloses, hclosing]; rfl⟩
    · next hclosing =>
      have hidle : Pc.idle.closes = s.pc.closes := by
        rw [hcloses, Bool.of_not_eq_true hclosing]
        rfl
      obtain ⟨hslot, hclosing, hcloses⟩ := updateWriteWatcher_goes_connect
        { s with writeHead := none, writeTail := none, writeQueueSize := 0, writeQueueCount := 0 }
        hidle
      exact ⟨⟨hslot.connectCb, hslot.connecting⟩, hclosing, hcloses⟩

/-- The handler goes on after a callback. -/
theorem callbackReturns_connect (h : s.callbackReturns = some s') :
    SameConnect s s' := by
  unfold callbackReturns at h
  split at h
  · cases h
    exact ⟨⟨rfl, rfl⟩, rfl, rfl⟩
  · split at h
    · next hpc =>
      cases h
      exact ⟨⟨rfl, rfl⟩, rfl, by rw [hpc]; rfl⟩
    · next closing next hpc =>
      cases h
      exact ⟨⟨rfl, rfl⟩, rfl, by rw [hpc]; rfl⟩
    · next hpc =>
      cases h
      exact s.updateWriteWatcher_goes_connect (by rw [hpc]; rfl)
    all_goals cases h

/-- The answer of `getsockopt` ends the connect. -/
theorem finishConnect_connect (hpc : s.pc = .connectCheck) (ok : Bool) :
    SameConnect { s with connecting := false } (s.finishConnect ok) := by
  unfold finishConnect unregisterWrite updateWriteWatcher
  dsimp only
  repeat' split
  all_goals exact ⟨⟨rfl, rfl⟩, rfl, by rw [hpc]; rfl⟩

/-- A connect that stays in progress takes the slot. -/
theorem connectFd_slot (s : LoopyStream) (r : ConnectResult) (cb : Bool) :
    SameSlot (if r = .inProgress then { s with connectCb := cb, connecting := true } else s)
      (s.connectFd r cb) := by
  unfold connectFd
  cases r with
  | done | error => exact ⟨rfl, rfl⟩
  | inProgress =>
    rw [if_pos rfl]
    dsimp only
    split <;> exact ⟨rfl, rfl⟩

/-- Nothing else that `loopyStreamConnect` does is about the slot. -/
theorem connect_slot (s : LoopyStream) (address : Address) (r : ConnectResult)
    (cb : Bool) :
    SameSlot (if s.connects address = true ∧ r = .inProgress then
      { s with connectCb := cb, connecting := true } else s) (s.connect address r cb) := by
  unfold connect
  by_cases hguard : s.type ≠ .tcp ∨ s.fd = none
  · have hnot : s.connects address = false := by
      cases address <;> rcases hguard with h | h <;> simp [connects, h]
    rw [if_pos hguard, hnot, if_neg fun h => Bool.false_ne_true h.1]
    exact ⟨rfl, rfl⟩
  · rw [if_neg hguard]
    rw [not_or, not_not] at hguard
    obtain ⟨htcp, hfd⟩ := hguard
    have hsome : s.fd.isSome = true := Option.isSome_iff_ne_none.mpr hfd
    cases address with
    | ipv4 =>
      have hslot := s.connectFd_slot r cb
      simpa [connects, htcp, hsome] using hslot
    | ipv6 fd nonBlock =>
      cases fd with
      | none => simpa [connects] using (⟨rfl, rfl⟩ : SameSlot s { s with fd := none })
      | some fd =>
        cases nonBlock with
        | false => simpa [connects] using (⟨rfl, rfl⟩ : SameSlot s { s with fd := some fd })
        | true =>
          have hslot := LoopyStream.connectFd_slot { s with fd := some fd } r cb
          have hconnects : s.connects (.ipv6 (some fd) true) = true := by
            simp [connects, htcp, hsome]
          rw [hconnects]
          cases r with
          | done | error => exact ⟨hslot.connectCb, hslot.connecting⟩
          | inProgress => exact ⟨hslot.connectCb, hslot.connecting⟩
    | invalid => simpa [connects] using (⟨rfl, rfl⟩ : SameSlot s s)

end LoopyStream

end frame

/-! ## What an action does to the connects -/

/-- The parts of an action that the record is about, and whether an answer is missed. -/
inductive ConnectStep (s : Connects) (misses : Bool) : Connects → Prop
  | fails (address : Address) (cb : Bool) (stream : LoopyStream) (hmisses : misses = false)
      (h : SameConnect s.stream stream) :
      ConnectStep s misses { s.called address cb false with stream }
  | succeeds (address : Address) (cb : Bool) (stream : LoopyStream) (hmisses : misses = false)
      (h : SameConnect s.stream stream) :
      ConnectStep s misses
        { if cb then (s.called address cb true).answer s.calls.length true true
          else s.called address cb true with stream }
  | begins (address : Address) (cb : Bool) (stream : LoopyStream)
      (hmisses : misses = (s.stream.connectWaits || (s.stream.closing && cb)))
      (h : SameConnect { s.stream with connectCb := cb, connecting := true } stream) :
      ConnectStep s misses
        { s.called address cb true with
          stream
          slot := s.calls.length
          inFlight := some s.calls.length
          replaced := false }
  | finishes (ok : Bool) (stream : LoopyStream) (hpc : s.stream.pc = .connectCheck)
      (hmisses : misses = (s.stream.connectCb && (!s.stream.connecting || (ok && s.replaced))))
      (h : SameConnect { s.stream with connecting := false } stream) :
      ConnectStep s misses { s.after (.getsockopt ok) with stream }
  | closes (stream : LoopyStream) (hopen : s.stream.closing = false)
      (hmisses : misses = s.stream.connectWaits) (hslot : SameSlot s.stream stream)
      (hclosing : stream.closing = true) (hcloses : stream.pc.closes = true) :
      ConnectStep s misses { s with stream }
  | keeps (stream : LoopyStream) (hmisses : misses = false) (h : SameConnect s.stream stream) :
      ConnectStep s misses { s with stream }

section steps

variable {s s' : Connects} {a : Action}

/-- What `loopyStreamConnect` does to the slot, by the answer of `connect()`. -/
theorem connect_cases (s : Connects) (address : Address) (r : ConnectResult) (cb : Bool) :
    ConnectStep s (s.misses (.connect address r cb))
      { s.after (.connect address r cb) with stream := s.stream.connect address r cb } := by
  have hplace := s.stream.connect_place address r cb
  have hslot := s.stream.connect_slot address r cb
  unfold Connects.after Connects.misses
  dsimp only
  by_cases hconnects : s.stream.connects address = true
  · rw [if_pos hconnects, hconnects, Bool.true_and]
    cases r with
    | error =>
      rw [if_neg fun h => nomatch h.2] at hslot
      exact .fails address cb _ rfl (hplace.sameConnect hslot)
    | done =>
      rw [if_neg fun h => nomatch h.2] at hslot
      exact .succeeds address cb _ rfl (hplace.sameConnect hslot)
    | inProgress =>
      rw [if_pos ⟨hconnects, rfl⟩] at hslot
      exact .begins address cb _ (Bool.true_and _)
        ⟨⟨hslot.connectCb, hslot.connecting⟩, hplace.closing, congrArg Pc.closes hplace.pc⟩
  · rw [if_neg fun h => hconnects h.1] at hslot
    rw [if_neg hconnects, Bool.of_not_eq_true hconnects]
    exact .fails address cb _ rfl (hplace.sameConnect hslot)

/-- What `loopyStreamClose` does to it: nothing is answered. -/
theorem close_connects (s : Connects) (cb : Bool) :
    ConnectStep s (s.misses (.close cb))
      { s with stream := { s.stream with depth := 0 }.close cb } := by
  unfold LoopyStream.close Connects.misses
  dsimp only
  split
  · next hclosing =>
    have hclosed : s.stream.closing = true := hclosing
    exact .keeps _ (by rw [hclosed]; rfl) ⟨⟨rfl, rfl⟩, rfl, rfl⟩
  · next hopen =>
    have hopen : s.stream.closing = false := Bool.of_not_eq_true hopen
    rw [hopen]
    refine .closes _ hopen (Bool.true_and _) ?_ ?_ rfl
    · obtain ⟨hcb, hconnecting⟩ := LoopyStream.unregisterWrite_slot _
      exact ⟨hcb, hconnecting⟩
    · unfold LoopyStream.unregisterWrite
      dsimp only
      split <;> rfl

/-- Every action is one of these steps. -/
theorem connectStep (hstep : s.step a = some s') : ConnectStep s (s.misses a) s' := by
  obtain ⟨stream, hstream, rfl⟩ := Option.map_eq_some_iff.mp hstep
  rcases tailStepped hstream with ⟨cb, rfl, hpc, rfl⟩ | ⟨hother, hstepped⟩
  · exact close_connects s cb
  cases hstepped with
  | write data cb alloc => exact .keeps _ rfl (s.stream.write_connect data cb alloc)
  | writeWithFd data fds cb alloc =>
    exact .keeps _ rfl (s.stream.writeWithFd_connect data fds cb alloc)
  | tryWrite data r huser h => exact .keeps _ rfl (LoopyStream.tryWrite_connect h)
  | connect address r cb => exact connect_cases s address r cb
  | shutdown ok cb huser => exact .keeps _ rfl (s.stream.shutdown_connect ok cb)
  | readStart | readStop | endOfFile => exact .keeps _ rfl ⟨⟨rfl, rfl⟩, rfl, rfl⟩
  | close cb => exact absurd rfl (hother cb)
  | writable hquiet h => exact .keeps _ rfl (LoopyStream.dispatch_connect hquiet.1 h)
  | getsockopt ok hpc => exact .finishes ok _ hpc rfl (LoopyStream.finishConnect_connect hpc ok)
  | kernel r n hpc hhead h => exact .keeps _ rfl (LoopyStream.kernelWrite_connect hpc h)
  | finishWrite hpc hhead => exact .keeps _ rfl (LoopyStream.finishWrite_connect hpc)
  | drainStep closing req hpc => exact .keeps _ rfl (LoopyStream.drainStep_connect hpc)
  | ret h => exact .keeps _ rfl (LoopyStream.callbackReturns_connect h)

end steps

/-! ## The callbacks that are owed -/

/-- What holds in every run: the connect in the slot is in progress exactly until its callback is
called, and the kernel is setting up its connection exactly if the socket is still the one. -/
structure ConnectInv (s : Connects) : Prop where
  closes : s.stream.closing = s.stream.pc.closes
  slot : s.stream.connectCb = true → s.Owed s.slot
  progress : s.stream.connectCb = true → (s.stream.connecting = true ↔ s.times s.slot = 0)
  socket : s.stream.connecting = true → (s.inFlight = some s.slot ↔ s.replaced = false)
  known : ∀ d ∈ s.answers, d.call < s.calls.length

/-- Every callback that is owed was called once, or it waits in the slot of an open stream; and the
answers were right. -/
structure Kept (s : Connects) : Prop where
  served : ∀ n, s.Owed n → s.times n = 1 ∨
    s.times n = 0 ∧ s.stream.closing = false ∧ s.stream.connectCb = true ∧ s.slot = n
  status : ∀ d ∈ s.answers, d.ok = d.established
  owed : ∀ d ∈ s.answers, s.Owed d.call

section record

variable {s s' : Connects} {stream : LoopyStream}

/-- Only a call that was made is owed an answer. -/
theorem Connects.Owed.lt {n : ℕ} (h : s.Owed n) : n < s.calls.length :=
  (List.getElem?_eq_some_iff.mp h).1

/-- What is owed after a further call. -/
theorem Connects.owed_called (address : Address) (cb returned : Bool) (n : ℕ) :
    (s.called address cb returned).Owed n ↔
      s.Owed n ∨ n = s.calls.length ∧ cb = true ∧ returned = true := by
  unfold Owed called
  rcases Nat.lt_trichotomy n s.calls.length with hn | rfl | hn
  · rw [List.getElem?_append_left hn]
    exact ⟨Or.inl, fun h => h.resolve_right fun h => absurd h.1 (Nat.ne_of_lt hn)⟩
  · rw [List.getElem?_append_right (Nat.le_refl _), Nat.sub_self]
    have hnone : s.calls[s.calls.length]? = none := List.getElem?_eq_none (Nat.le_refl _)
    rw [hnone]
    simp
  · have hnone : s.calls[n]? = none := List.getElem?_eq_none (Nat.le_of_lt hn)
    rw [List.getElem?_eq_none (by rw [List.length_append, List.length_singleton]; omega), hnone]
    simp [Nat.ne_of_gt hn]

/-- An answer counts for its own call alone. -/
theorem Connects.times_answer (s : Connects) (call n : ℕ) (ok established : Bool) :
    (s.answer call ok established).times n = s.times n + if call = n then 1 else 0 := by
  unfold times answer
  rw [List.map_append, List.count_append, List.map_singleton, List.count_singleton]
  simp only [beq_iff_eq]

/-- A call that is still to come has no answer. -/
theorem ConnectInv.times_fresh (h : ConnectInv s) : s.times s.calls.length = 0 := by
  refine List.count_eq_zero.mpr fun hmem => ?_
  obtain ⟨d, hd, heq⟩ := List.mem_map.mp hmem
  exact absurd heq (Nat.ne_of_lt (h.known d hd))

/-- The socket is replaced, or it stays. -/
theorem ConnectInv.socket_called (h : ConnectInv s) (address : Address) (cb returned : Bool)
    (hconnecting : s.stream.connecting = true) :
    (s.called address cb returned).inFlight = some s.slot ↔
      (s.called address cb returned).replaced = false := by
  unfold Connects.called
  dsimp only
  cases s.stream.replaces address with
  | true => simp
  | false =>
    rw [if_neg Bool.false_ne_true, Bool.or_false]
    exact h.socket hconnecting

/-- What holds in every run is kept. -/
theorem ConnectInv.step {misses : Bool} (h : ConnectInv s) (hstep : ConnectStep s misses s') :
    ConnectInv s' := by
  have hlength (address : Address) (cb returned : Bool) :
      (s.called address cb returned).calls.length = s.calls.length + 1 := by
    rw [Connects.called, List.length_append, List.length_singleton]
  have hknown (address : Address) (cb returned : Bool) (d : ConnectAnswer) (hd : d ∈ s.answers) :
      d.call < (s.called address cb returned).calls.length := by
    rw [hlength]
    exact Nat.lt_succ_of_lt (h.known d hd)
  cases hstep with
  | fails address cb stream hmisses hsame =>
    refine ⟨?_, fun hcb => ?_, fun hcb => ?_, fun hconnecting => ?_, hknown address cb false⟩
    · exact hsame.closing.trans (h.closes.trans hsame.closes.symm)
    · exact (Connects.owed_called address cb false _).mpr (.inl (h.slot (hsame.connectCb ▸ hcb)))
    · exact hsame.connecting ▸ h.progress (hsame.connectCb ▸ hcb)
    · exact h.socket_called address cb false (hsame.connecting ▸ hconnecting)
  | succeeds address cb stream hmisses hsame =>
    have hcloses : stream.closing = stream.pc.closes :=
      hsame.closing.trans (h.closes.trans hsame.closes.symm)
    have hslot (hcb : stream.connectCb = true) : (s.called address cb true).Owed s.slot :=
      (Connects.owed_called address cb true _).mpr (.inl (h.slot (hsame.connectCb ▸ hcb)))
    have hsocket (hconnecting : stream.connecting = true) :=
      h.socket_called address cb true (hsame.connecting ▸ hconnecting)
    cases cb with
    | false =>
      exact ⟨hcloses, hslot, fun hcb => hsame.connecting ▸ h.progress (hsame.connectCb ▸ hcb),
        hsocket, hknown address false true⟩
    | true =>
      -- the call is answered before it returns
      refine ⟨hcloses, hslot, fun hcb => ?_, hsocket, fun d hd => ?_⟩
      · have hcb : s.stream.connectCb = true := hsame.connectCb ▸ hcb
        have htimes : ((s.called address true true).answer s.calls.length true true).times s.slot =
            s.times s.slot := by
          rw [Connects.times_answer, if_neg (Nat.ne_of_gt (h.slot hcb).lt)]
          rfl
        exact hsame.connecting ▸ htimes ▸ h.progress hcb
      · rcases List.mem_append.mp hd with hd | hd
        · exact hknown address true true d hd
        · rw [List.mem_singleton.mp hd]
          exact (hlength address true true).symm ▸ Nat.lt_succ_self _
  | begins address cb stream hmisses hsame =>
    refine ⟨?_, fun hcb => ?_, fun _ => iff_of_true hsame.connecting h.times_fresh,
      fun _ => iff_of_true rfl rfl, hknown address cb true⟩
    · exact hsame.closing.trans (h.closes.trans hsame.closes.symm)
    · exact (Connects.owed_called address cb true _).mpr
        (.inr ⟨rfl, hsame.connectCb.symm.trans hcb, rfl⟩)
  | finishes ok stream hpc hmisses hsame =>
    have hcloses : stream.closing = stream.pc.closes :=
      hsame.closing.trans (h.closes.trans hsame.closes.symm)
    have hslot (hcb : stream.connectCb = true) : s.Owed s.slot := h.slot (hsame.connectCb ▸ hcb)
    have hidle : ¬stream.connecting = true := hsame.connecting ▸ Bool.false_ne_true
    unfold Connects.after
    dsimp only
    split
    · next hcb =>
      refine ⟨hcloses, hslot, fun _ => iff_of_false hidle ?_, fun hc => absurd hc hidle,
        fun d hd => ?_⟩
      · change (s.answer s.slot ok _).times s.slot ≠ 0
        rw [Connects.times_answer, if_pos rfl]
        exact Nat.succ_ne_zero _
      · rcases List.mem_append.mp hd with hd | hd
        · exact h.known d hd
        · rw [List.mem_singleton.mp hd]
          exact (h.slot hcb).lt
    · next hcb =>
      exact ⟨hcloses, hslot, fun hcb' => absurd (hsame.connectCb ▸ hcb') hcb,
        fun hc => absurd hc hidle, h.known⟩
  | closes stream hopen hmisses hslot hclosing hcloses =>
    exact ⟨hclosing.trans hcloses.symm, fun hcb => h.slot (hslot.connectCb ▸ hcb),
      fun hcb => hslot.connecting ▸ h.progress (hslot.connectCb ▸ hcb),
      fun hc => h.socket (hslot.connecting ▸ hc), h.known⟩
  | keeps stream hmisses hsame =>
    refine ⟨?_, fun hcb => h.slot (hsame.connectCb ▸ hcb), fun hcb => ?_, fun hc => ?_, h.known⟩
    · exact hsame.closing.trans (h.closes.trans hsame.closes.symm)
    · exact hsame.connecting ▸ h.progress (hsame.connectCb ▸ hcb)
    · exact h.socket (hsame.connecting ▸ hc)

/-! ## A step keeps what is owed exactly if it misses nothing -/

/-- The law depends on the answers, on what is owed and on the slot. -/
theorem Kept.congr (h : Kept s) (howed : ∀ n, s'.Owed n ↔ s.Owed n)
    (hanswers : s'.answers = s.answers) (hslot : s'.slot = s.slot)
    (hclosing : s'.stream.closing = s.stream.closing)
    (hcb : s'.stream.connectCb = s.stream.connectCb) : Kept s' := by
  refine ⟨fun n hn => ?_, fun d hd => h.status d (hanswers ▸ hd), fun d hd => ?_⟩
  · rw [Connects.times, hanswers, hclosing, hcb, hslot]
    exact h.served n ((howed n).mp hn)
  · exact (howed _).mpr (h.owed d (hanswers ▸ hd))

/-- Where these stay, it is kept if and only if it was. -/
theorem kept_congr (howed : ∀ n, s'.Owed n ↔ s.Owed n) (hanswers : s'.answers = s.answers)
    (hslot : s'.slot = s.slot) (hclosing : s'.stream.closing = s.stream.closing)
    (hcb : s'.stream.connectCb = s.stream.connectCb) : Kept s' ↔ Kept s :=
  ⟨fun h => h.congr (fun n => (howed n).symm) hanswers.symm hslot.symm hclosing.symm hcb.symm,
    fun h => h.congr howed hanswers hslot hclosing hcb⟩

namespace ConnectInv

/-- The callback in the slot waits exactly if it is owed and was not called. -/
theorem waits_iff (h : ConnectInv s) : s.stream.connectWaits = true ↔
    s.stream.connectCb = true ∧ s.Owed s.slot ∧ s.times s.slot = 0 := by
  rw [LoopyStream.connectWaits, Bool.and_eq_true]
  exact ⟨fun hw => ⟨hw.1, h.slot hw.1, (h.progress hw.1).mp hw.2⟩,
    fun hw => ⟨hw.1, (h.progress hw.1).mpr hw.2.2⟩⟩

/-- While nothing waits in the slot, everything that is owed was called. -/
theorem once (h : ConnectInv s) (hkept : Kept s)
    (hwaits : s.stream.connectWaits = false) {n : ℕ} (hn : s.Owed n) : s.times n = 1 := by
  rcases hkept.served n hn with hone | ⟨hzero, -, hcb, rfl⟩
  · exact hone
  · rw [h.waits_iff.mpr ⟨hcb, hn, hzero⟩] at hwaits
    cases hwaits

/-- A connect that succeeds at once. -/
theorem kept_succeeds (h : ConnectInv s) (address : Address)
    (hsame : SameConnect s.stream stream) :
    Kept { (s.called address true true).answer s.calls.length true true with stream } ↔ Kept s := by
  have howed (n : ℕ) : (s.called address true true).Owed n ↔ s.Owed n ∨ n = s.calls.length := by
    rw [Connects.owed_called]
    simp only [and_true]
  have htimes (n : ℕ) : ((s.called address true true).answer s.calls.length true true).times n =
      s.times n + if s.calls.length = n then 1 else 0 := Connects.times_answer _ _ _ _ _
  -- the calls before this one are answered as often as they were
  have hold {n : ℕ} (hn : s.Owed n) :
      ((s.called address true true).answer s.calls.length true true).times n = s.times n := by
    rw [htimes, if_neg (Nat.ne_of_gt hn.lt), Nat.add_zero]
  constructor
  · intro hkept
    refine ⟨fun n hn => ?_, fun d hd => ?_, fun d hd => ?_⟩
    · rcases hkept.served n ((howed n).mpr (.inl hn)) with hone | ⟨hzero, hclosing, hcb, hslot⟩
      · exact .inl ((hold hn).symm.trans hone)
      · exact .inr ⟨(hold hn).symm.trans hzero, hsame.closing.symm.trans hclosing,
          hsame.connectCb.symm.trans hcb, hslot⟩
    · exact hkept.status d (List.mem_append_left _ hd)
    · have hd' := (howed _).mp (hkept.owed d (List.mem_append_left _ hd))
      exact hd'.resolve_right (Nat.ne_of_lt (h.known d hd))
  · intro hkept
    refine ⟨fun n hn => ?_, fun d hd => ?_, fun d hd => ?_⟩
    · rcases (howed n).mp hn with hn | rfl
      · rcases hkept.served n hn with hone | ⟨hzero, hclosing, hcb, hslot⟩
        · exact .inl ((hold hn).trans hone)
        · exact .inr ⟨(hold hn).trans hzero, hsame.closing.trans hclosing,
            hsame.connectCb.trans hcb, hslot⟩
      · exact .inl ((htimes _).trans (by rw [h.times_fresh, if_pos rfl]))
    · rcases List.mem_append.mp hd with hd | hd
      · exact hkept.status d hd
      · rw [List.mem_singleton.mp hd]
    · rcases List.mem_append.mp hd with hd | hd
      · exact (howed _).mpr (.inl (hkept.owed d hd))
      · rw [List.mem_singleton.mp hd]
        exact (howed _).mpr (.inr rfl)

/-- A connect in progress takes the slot. -/
theorem kept_begins (h : ConnectInv s) (address : Address) (cb : Bool)
    (hsame : SameConnect { s.stream with connectCb := cb, connecting := true } stream) :
    Kept { s.called address cb true with
      stream
      slot := s.calls.length
      inFlight := some s.calls.length
      replaced := false } ↔
    Kept s ∧ (s.stream.connectWaits || (s.stream.closing && cb)) = false := by
  have howed (n : ℕ) : (s.called address cb true).Owed n ↔
      s.Owed n ∨ n = s.calls.length ∧ cb = true := by
    rw [Connects.owed_called]
    simp only [and_true]
  rw [Bool.or_eq_false_iff]
  constructor
  · intro hkept
    -- the slot is taken from every call before
    have hone {n : ℕ} (hn : s.Owed n) : s.times n = 1 := by
      rcases hkept.served n ((howed n).mpr (.inl hn)) with hone | ⟨-, -, -, hslot⟩
      · exact hone
      · exact absurd hslot (Nat.ne_of_gt hn.lt)
    refine ⟨⟨fun n hn => .inl (hone hn), hkept.status, fun d hd => ?_⟩, ?_, ?_⟩
    · have hd' := (howed _).mp (hkept.owed d hd)
      exact hd'.resolve_right fun h' => Nat.ne_of_lt (h.known d hd) h'.1
    · refine Bool.of_not_eq_true fun hwaits => ?_
      obtain ⟨-, hslot, hzero⟩ := h.waits_iff.mp hwaits
      rw [hone hslot] at hzero
      cases hzero
    · refine Bool.of_not_eq_true fun hclosing => ?_
      obtain ⟨hclosing, hcb⟩ := Bool.and_eq_true_iff.mp hclosing
      have hfresh : s.times s.calls.length = 0 := h.times_fresh
      rcases hkept.served _ ((howed _).mpr (.inr ⟨rfl, hcb⟩)) with hone | ⟨-, hopen, -, -⟩
      · exact absurd (hfresh.symm.trans hone) Nat.zero_ne_one
      · exact absurd (hclosing.symm.trans (hsame.closing.symm.trans hopen)) Bool.false_ne_true.symm
  · rintro ⟨hkept, hwaits, hopen⟩
    refine ⟨fun n hn => ?_, hkept.status, fun d hd => (howed _).mpr (.inl (hkept.owed d hd))⟩
    rcases (howed n).mp hn with hn | ⟨rfl, hcb⟩
    · exact .inl (h.once hkept hwaits hn)
    · rw [hcb, Bool.and_true] at hopen
      exact .inr ⟨h.times_fresh, hsame.closing.trans hopen, hsame.connectCb.trans hcb, rfl⟩

/-- `streamConnectCallback` calls what is in the slot. -/
theorem kept_answers (h : ConnectInv s) (ok : Bool) (hcb : s.stream.connectCb = true)
    (hpc : s.stream.pc = .connectCheck) :
    Kept { s.answer s.slot ok (ok && decide (s.inFlight = some s.slot)) with
      inFlight := none, stream } ↔
    Kept s ∧ (!s.stream.connecting || (ok && s.replaced)) = false := by
  have hopen : s.stream.closing = false := by
    rw [h.closes, hpc]
    rfl
  have hslot := h.slot hcb
  have htimes (n : ℕ) : (s.answer s.slot ok (ok && decide (s.inFlight = some s.slot))).times n =
      s.times n + if s.slot = n then 1 else 0 := s.times_answer _ _ _ _
  have hstatus (hconnecting : s.stream.connecting = true) :
      ok = (ok && decide (s.inFlight = some s.slot)) ↔ (ok && s.replaced) = false := by
    have hsocket : decide (s.inFlight = some s.slot) = decide (s.replaced = false) :=
      decide_eq_decide.mpr (h.socket hconnecting)
    rw [hsocket]
    cases ok <;> cases s.replaced <;> simp
  rw [Bool.or_eq_false_iff, Bool.not_eq_false']
  constructor
  · intro hkept
    -- or the callback would have been called twice
    have hzero : s.times s.slot = 0 := by
      have hserved := htimes s.slot
      rw [if_pos rfl] at hserved
      rcases hkept.served s.slot hslot with hone | ⟨hzero, -⟩
      · exact Nat.succ.inj (hserved.symm.trans hone)
      · exact absurd (hserved.symm.trans hzero) (Nat.succ_ne_zero _)
    refine ⟨⟨fun n hn => ?_, fun d hd => ?_, fun d hd => ?_⟩, ?_, ?_⟩
    · by_cases hn' : s.slot = n
      · exact .inr ⟨hn' ▸ hzero, hopen, hcb, hn'⟩
      · have hold := htimes n
        rw [if_neg hn', Nat.add_zero] at hold
        rcases hkept.served n hn with hone | ⟨-, -, -, hslot'⟩
        · exact .inl (hold.symm.trans hone)
        · exact absurd hslot' hn'
    · exact hkept.status d (List.mem_append_left _ hd)
    · exact hkept.owed d (List.mem_append_left _ hd)
    · exact (h.progress hcb).mpr hzero
    · exact (hstatus ((h.progress hcb).mpr hzero)).mp
        (hkept.status _ (List.mem_append_right _ (List.mem_singleton.mpr rfl)))
  · rintro ⟨hkept, hconnecting, hright⟩
    have hzero := (h.progress hcb).mp hconnecting
    refine ⟨fun n hn => ?_, fun d hd => ?_, fun d hd => ?_⟩
    · by_cases hn' : s.slot = n
      · subst hn'
        exact .inl ((htimes _).trans (by rw [hzero, if_pos rfl]))
      · rcases hkept.served n hn with hone | ⟨-, -, -, hslot'⟩
        · exact .inl ((htimes n).trans (by rw [hone, if_neg hn']))
        · exact absurd hslot' hn'
    · rcases List.mem_append.mp hd with hd | hd
      · exact hkept.status d hd
      · rw [List.mem_singleton.mp hd]
        exact (hstatus hconnecting).mpr hright
    · rcases List.mem_append.mp hd with hd | hd
      · exact hkept.owed d hd
      · rw [List.mem_singleton.mp hd]
        exact hslot

/-- `loopyStreamClose` forgets what is in the slot. -/
theorem kept_closes (h : ConnectInv s) (hclosing : stream.closing = true) :
    Kept { s with stream } ↔ Kept s ∧ s.stream.connectWaits = false := by
  constructor
  · intro hkept
    have hone {n : ℕ} (hn : s.Owed n) : s.times n = 1 := by
      rcases hkept.served n hn with hone | ⟨-, hopen', -⟩
      · exact hone
      · exact absurd (hclosing.symm.trans hopen') Bool.false_ne_true.symm
    refine ⟨⟨fun n hn => .inl (hone hn), hkept.status, hkept.owed⟩, ?_⟩
    refine Bool.of_not_eq_true fun hwaits => ?_
    obtain ⟨-, hslot, hzero⟩ := h.waits_iff.mp hwaits
    rw [hone hslot] at hzero
    cases hzero
  · rintro ⟨hkept, hwaits⟩
    exact ⟨fun n hn => .inl (h.once hkept hwaits hn), hkept.status, hkept.owed⟩

/-- **A step keeps the law if and only if it does not miss.**. -/
theorem kept_step {misses : Bool} (h : ConnectInv s)
    (hstep : ConnectStep s misses s') : Kept s' ↔ Kept s ∧ misses = false := by
  cases hstep with
  | fails address cb stream hmisses hsame =>
    rw [hmisses, eq_self, and_true]
    refine kept_congr (fun n => ?_) rfl rfl hsame.closing hsame.connectCb
    refine (Connects.owed_called address cb false n).trans (or_iff_left fun h' => ?_)
    exact Bool.false_ne_true h'.2.2
  | succeeds address cb stream hmisses hsame =>
    rw [hmisses, eq_self, and_true]
    cases cb with
    | true => exact h.kept_succeeds address hsame
    | false =>
      refine kept_congr (fun n => ?_) rfl rfl hsame.closing hsame.connectCb
      refine (Connects.owed_called address false true n).trans (or_iff_left fun h' => ?_)
      exact Bool.false_ne_true h'.2.1
  | begins address cb stream hmisses hsame =>
    rw [hmisses]
    exact h.kept_begins address cb hsame
  | finishes ok stream hpc hmisses hsame =>
    rw [hmisses, Connects.after]
    cases hcb : s.stream.connectCb with
    | true =>
      rw [if_pos rfl, Bool.true_and]
      exact h.kept_answers ok hcb hpc
    | false =>
      rw [if_neg Bool.false_ne_true, Bool.false_and, eq_self, and_true]
      exact kept_congr (fun n => Iff.rfl) rfl rfl hsame.closing hsame.connectCb
  | closes stream hopen hmisses hslot hclosing hcloses =>
    rw [hmisses]
    exact h.kept_closes hclosing
  | keeps stream hmisses hsame =>
    rw [hmisses, eq_self, and_true]
    exact kept_congr (fun n => Iff.rfl) rfl rfl hsame.closing hsame.connectCb

end ConnectInv

end record

/-! ## Runs -/

section runs

/-- No connect was made on a new stream. -/
theorem ConnectInv.new {start : LoopyStream} (h : Created start) : ConnectInv (.new start) := by
  refine ⟨?_, ?_, ?_, ?_, nofun⟩
  · cases h <;> rfl
  all_goals cases h <;> nofun

/-- So nothing is owed. -/
theorem Kept.new (start : LoopyStream) : Kept (.new start) := by
  refine ⟨fun n hn => ?_, nofun, nofun⟩
  cases hn

/-- What is kept gives the law. -/
theorem Kept.law {s : Connects} (h : Kept s) (hinv : ConnectInv s) : ConnectLaw s where
  once n hn := by
    rcases h.served n hn with hone | ⟨hzero, -⟩
    · exact Nat.le_of_eq hone
    · exact hzero ▸ Nat.zero_le 1
  closed hpc n hn := by
    rcases h.served n hn with hone | ⟨-, hopen, -⟩
    · exact hone
    · rw [hinv.closes, hpc] at hopen
      cases hopen
  status := h.status
  owed := h.owed

/-- On a closed stream the law says that it was kept. -/
theorem ConnectLaw.kept {s : Connects} (h : ConnectLaw s) (hpc : s.stream.pc = .closed) :
    Kept s := ⟨fun n hn => .inl (h.closed hpc n hn), h.status, h.owed⟩

/-- **Every connect is answered once and rightly** in every run that nothing disturbs; and of the
runs that close the stream, in no other. -/
theorem connects_answered {start : LoopyStream} {as : List Action} {s : Connects}
    (hstart : Created start) (hrun : Run Connects.step (fun _ _ => True) (.new start) as s) :
    (Run Connects.step Undisturbed (.new start) as s → ConnectLaw s) ∧
    (s.stream.pc = .closed → ConnectLaw s → Run Connects.step Undisturbed (.new start) as s) := by
  have hinv : ConnectInv s := hrun.invariant (P := ConnectInv)
    (fun _ _ _ h _ hstep => h.step (connectStep hstep)) (.new hstart)
  have hkept : Kept s ↔ Run Connects.step (fun s a => True ∧ Undisturbed s a) (.new start) as s :=
    hrun.clean_iff_within (P := ConnectInv) (fun _ _ _ h _ hstep => h.step (connectStep hstep))
      (fun _ _ _ h _ hstep => h.kept_step (connectStep hstep)) (.new hstart) (.new start)
  constructor
  · intro hok
    exact (hkept.mpr (hok.mono fun _ _ h => ⟨trivial, h⟩)).law hinv
  · intro hpc hlaw
    exact (hkept.mp (hlaw.kept hpc)).mono fun _ _ h => h.2

end runs

/-- A connect fails while a write is queued, its callback begins one to an IPv6 address and one that
fails at once, and the callback of the second closes the stream. -/
def connectRun : List Action :=
  [.connect .ipv4 .inProgress true, .write [1] true true, .writable, .getsockopt false,
    .connect (.ipv6 (some 4) true) .inProgress true, .connect .ipv4 .error true, .ret, .writable,
    .getsockopt true, .close true, .run, .ret, .run, .ret]

theorem connects_answered_connectRun :
    ∃ s, Run Connects.step (fun _ _ => True) (.new (.newTcp 3)) connectRun s ∧ ConnectLaw s ∧
      s.stream.pc = .closed ∧ s.answers = [⟨0, false, false⟩, ⟨1, true, true⟩] := by
  have hexec : (exec Connects.step Undisturbed (.new (.newTcp 3)) connectRun).map
      (fun s => (s.stream.pc, s.answers)) =
      some (.closed, [⟨0, false, false⟩, ⟨1, true, true⟩]) := by decide +kernel
  obtain ⟨s, hok, hval⟩ := Run.of_exec_map hexec
  obtain ⟨hpc, hanswers⟩ := Prod.mk.inj hval
  have hrun : Run Connects.step (fun _ _ => True) (.new (.newTcp 3)) connectRun s :=
    hok.mono fun _ _ _ => trivial
  exact ⟨s, hrun, (connects_answered (.newTcp 3) hrun).1 hok, hpc, hanswers⟩

/-- The stream is closed while a callback waits. -/
def closedEarlyRun : List Action := [.connect .ipv4 .inProgress true, .close false, .run]

/-- A connect to an IPv6 address takes the slot of one that waits, and the stream is closed. -/
def slotTakenRun : List Action :=
  [.connect .ipv4 .inProgress true, .connect (.ipv6 (some 3) true) .inProgress true, .writable,
    .getsockopt true, .ret, .close false, .run]

/-- A connect replaces the socket of one that waits, and fails; the new socket has no error. -/
def socketTakenRun : List Action :=
  [.connect .ipv4 .inProgress true, .connect (.ipv6 (some 3) true) .error true, .writable,
    .getsockopt true]

/-- Two callbacks are never called though the stream is closed, and one is told that it is
connected though its socket is gone. -/
theorem connect_unanswered :
    (∃ s, Run Connects.step (fun _ _ => True) (.new (.newTcp 3)) closedEarlyRun s ∧
      s.stream.pc = .closed ∧ s.Owed 0 ∧ s.answers = [] ∧ ¬ ConnectLaw s) ∧
    (∃ s, Run Connects.step (fun _ _ => True) (.new (.newTcp 3)) slotTakenRun s ∧
      s.stream.pc = .closed ∧ s.Owed 0 ∧ s.answers = [⟨1, true, true⟩] ∧ ¬ ConnectLaw s) ∧
    ∃ s, Run Connects.step (fun _ _ => True) (.new (.newTcp 3)) socketTakenRun s ∧
      s.Owed 0 ∧ s.answers = [⟨0, true, false⟩] ∧ ¬ ConnectLaw s := by
  refine ⟨?_, ?_, ?_⟩
  · have hexec : (exec Connects.step (fun _ _ => True) (.new (.newTcp 3)) closedEarlyRun).map
        (fun s => (s.stream.pc, s.calls[0]?, s.answers)) =
        some (.closed, some ⟨true, true⟩, []) := by decide +kernel
    obtain ⟨s, hrun, hval⟩ := Run.of_exec_map hexec
    obtain ⟨hpc, hval⟩ := Prod.mk.inj hval
    obtain ⟨howed, hanswers⟩ := Prod.mk.inj hval
    refine ⟨s, hrun, hpc, howed, hanswers, fun hlaw => ?_⟩
    have hone := hlaw.closed hpc 0 howed
    rw [Connects.times, hanswers] at hone
    cases hone
  · have hexec : (exec Connects.step (fun _ _ => True) (.new (.newTcp 3)) slotTakenRun).map
        (fun s => (s.stream.pc, s.calls[0]?, s.answers)) =
        some (.closed, some ⟨true, true⟩, [⟨1, true, true⟩]) := by decide +kernel
    obtain ⟨s, hrun, hval⟩ := Run.of_exec_map hexec
    obtain ⟨hpc, hval⟩ := Prod.mk.inj hval
    obtain ⟨howed, hanswers⟩ := Prod.mk.inj hval
    refine ⟨s, hrun, hpc, howed, hanswers, fun hlaw => ?_⟩
    have hone := hlaw.closed hpc 0 howed
    rw [Connects.times, hanswers] at hone
    cases hone
  · have hexec : (exec Connects.step (fun _ _ => True) (.new (.newTcp 3)) socketTakenRun).map
        (fun s => (s.calls[0]?, s.answers)) =
        some (some ⟨true, true⟩, [⟨0, true, false⟩]) := by decide +kernel
    obtain ⟨s, hrun, hval⟩ := Run.of_exec_map hexec
    obtain ⟨howed, hanswers⟩ := Prod.mk.inj hval
    refine ⟨s, hrun, howed, hanswers, fun hlaw => ?_⟩
    have hstatus := hlaw.status ⟨0, true, false⟩ (hanswers ▸ List.mem_singleton.mpr rfl)
    cases hstatus

end Loopy.Stream
