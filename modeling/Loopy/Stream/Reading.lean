import Loopy.Stream.Basic

/-!
# `loopyStream.c`: who is told what was read

`loopyStreamReadStart` and `loopyStreamReadStartWithFd` set a callback each, in two fields of the
stream. The second clears the field of the first, and the first leaves that of the second alone,
which `streamReadCallback` looks at first when it has read something. The allocation callback is
user code and may stop or restart the reading; what is behind it does not look at `reading` again.

Callbacks are numbered. `current` and `notified` are a record: the callback and its data as the
last start that returned true has them, unless the reading was stopped since, and the notifications.
-/

namespace Loopy.Stream

open Loopy.Lib

/-! ## The read side of a stream -/

/-- `loopyStreamReadCallback` and `loopyStreamReadFdCallback`. -/
inductive ReadCallback
  | plain (cb : ℕ)
  | withFd (cb : ℕ)
deriving DecidableEq, Repr

/-- A callback with its user data. -/
structure Reader where
  callback : ReadCallback
  userData : ℕ
deriving DecidableEq, Repr

inductive ReadEvent
  | data (nread nfds : ℕ)
  | eof
  | error
deriving DecidableEq, Repr

/-- What was called (`none` is `NULL`), and who was to be told. -/
structure Notification where
  event : ReadEvent
  called : Option Reader
  current : Option Reader
deriving DecidableEq, Repr

/-- Where `streamReadCallback` is. -/
inductive ReadPc
  | idle
  /-- In the allocation callback. -/
  | allocating
  /-- Before the system call. -/
  | reading
  /-- In the callback of a reader. -/
  | notifying
deriving DecidableEq, Repr

/-- The fields of `loopyStream` that reading is about, and the record. -/
structure ReadSide where
  type : LoopyStreamType
  fd : Option ℕ
  readable : Bool
  reading : Bool
  allocCb : Option ℕ
  readCb : Option ℕ
  readFdCb : Option ℕ
  readUserData : ℕ
  pc : ReadPc
  current : Option Reader
  notified : List Notification
deriving DecidableEq, Repr

namespace ReadSide

/-- `streamNew`. -/
def new (type : LoopyStreamType) (fd : Option ℕ) : ReadSide :=
  { type
    fd
    readable := true
    reading := false
    allocCb := none
    readCb := none
    readFdCb := none
    readUserData := 0
    pc := .idle
    current := none
    notified := [] }

/-- `loopyStreamReadStart`. -/
def readStart (s : ReadSide) (alloc read : Option ℕ) (userData : ℕ) : Bool × ReadSide :=
  match alloc, read with
  | some alloc, some read =>
    if s.fd = none ∨ s.readable = false then (false, s)
    else
      (true, { s with
        allocCb := some alloc
        readCb := some read
        readUserData := userData
        reading := true
        current := some ⟨.plain read, userData⟩ })
  | _, _ => (false, s)

/-- `loopyStreamReadStartWithFd`; `registered` is what `loopyRegisterRead` returns. -/
def readStartWithFd (s : ReadSide) (alloc read : Option ℕ) (userData : ℕ)
    (registered : Bool) : Bool × ReadSide :=
  match alloc, read with
  | some alloc, some read =>
    if s.type ≠ .pipe then (false, s)
    else if s.fd = none ∨ s.readable = false ∨ s.reading = true then (false, s)
    else
      let s : ReadSide :=
        { s with
          allocCb := some alloc
          readCb := none
          readFdCb := some read
          readUserData := userData }
      if registered = false then (false, s)
      else (true, { s with reading := true, current := some ⟨.withFd read, userData⟩ })
  | _, _ => (false, s)

/-- `loopyStreamReadStop`. -/
def readStop (s : ReadSide) : ReadSide :=
  if s.reading then { s with reading := false, current := none } else s

/-- `loopyStreamIsReading`. -/
def isReading (s : ReadSide) : Bool := s.reading

/-- A callback is called with the stream's user data. -/
def notify (s : ReadSide) (event : ReadEvent) (callback : Option ReadCallback) : ReadSide :=
  { s with
    pc := .notifying
    notified := s.notified ++
      [⟨event, callback.map fun callback => ⟨callback, s.readUserData⟩, s.current⟩] }

/-- Whom `streamReadCallback` tells that there is no buffer. -/
def plainFirst (s : ReadSide) : Option ReadCallback :=
  match s.readCb with
  | some cb => some (.plain cb)
  | none => s.readFdCb.map .withFd

/-- Whom `streamReadCallback` tells what the system call has answered. -/
def withFdFirst (s : ReadSide) : Option ReadCallback :=
  match s.readFdCb with
  | some cb => some (.withFd cb)
  | none => s.readCb.map .plain

end ReadSide

/-- What `read` or `recvmsg` answers: bytes, none of them at the end of the file, and for `recvmsg`
file descriptors. -/
inductive ReadResult
  | got (nread nfds : ℕ)
  | again
  | error
deriving DecidableEq, Repr

/-- `streamReadCallback` up to the allocation callback. -/
def ReadSide.enter (s : ReadSide) : ReadSide :=
  if s.reading = false ∨ s.allocCb = none ∨ (s.readCb = none ∧ s.readFdCb = none) then s
  else { s with pc := .allocating }

/-- `streamReadCallback` from the answer of the system call on. -/
def ReadSide.answered (s : ReadSide) (r : ReadResult) : ReadSide :=
  match r with
  | .got nread nfds =>
    if nread > 0 then
      let received := if s.readFdCb.isSome && decide (s.type = .pipe) then min nfds maxFds else 0
      s.notify (.data nread received) s.withFdFirst
    else { s with readable := false }.notify .eof s.withFdFirst
  | .again => { s with pc := .idle }
  | .error => s.notify .error s.withFdFirst

/-- The calls of user code, the event, and how `streamReadCallback` goes on. -/
inductive ReadAction
  | readStart (alloc read : Option ℕ) (userData : ℕ)
  | readStartWithFd (alloc read : Option ℕ) (userData : ℕ) (registered : Bool)
  | readStop
  /-- The event loop finds the fd readable. -/
  | readable
  /-- The allocation callback returns, with a buffer or without one. -/
  | allocated (buffer : Bool)
  | kernel (r : ReadResult)
  /-- The callback of a reader returns. -/
  | ret
deriving DecidableEq, Repr

/-- One action. User code runs outside the stream and in both kinds of callbacks. -/
def readStep (s : ReadSide) : ReadAction → Option ReadSide
  | .readStart alloc read userData =>
    if s.pc ≠ .reading then some (s.readStart alloc read userData).2 else none
  | .readStartWithFd alloc read userData registered =>
    if s.pc ≠ .reading then some (s.readStartWithFd alloc read userData registered).2 else none
  | .readStop => if s.pc ≠ .reading then some s.readStop else none
  | .readable => if s.pc = .idle then some s.enter else none
  | .allocated buffer =>
    if s.pc = .allocating then
      if buffer then some { s with pc := .reading } else some (s.notify .error s.plainFirst)
    else none
  | .kernel r => if s.pc = .reading then some (s.answered r) else none
  | .ret => if s.pc = .notifying then some { s with pc := .idle } else none

/-! ## The current reader -/

/-- The fields are those of the last start, while it lasts. -/
structure ReadInv (s : ReadSide) : Prop where
  reading : s.reading = s.current.isSome
  plain : ∀ cb userData, s.current = some ⟨.plain cb, userData⟩ →
    s.readCb = some cb ∧ s.readUserData = userData
  withFd : ∀ cb userData, s.current = some ⟨.withFd cb, userData⟩ →
    s.readCb = none ∧ s.readFdCb = some cb ∧ s.readUserData = userData

theorem ReadInv.new (type : LoopyStreamType) (fd : Option ℕ) : ReadInv (.new type fd) where
  reading := rfl
  plain _ _ h := by cases h
  withFd _ _ h := by cases h

section

variable {s s' : ReadSide}

/-- Reading goes on with the same fields. -/
theorem ReadInv.same (h : ReadInv s) (hreading : s'.reading = s.reading)
    (hcurrent : s'.current = s.current) (hreadCb : s'.readCb = s.readCb)
    (hreadFdCb : s'.readFdCb = s.readFdCb) (huserData : s'.readUserData = s.readUserData) :
    ReadInv s' := by
  refine ⟨?_, fun cb userData hc => ?_, fun cb userData hc => ?_⟩
  · rw [hreading, hcurrent]
    exact h.reading
  · rw [hreadCb, huserData]
    exact h.plain cb userData (hcurrent ▸ hc)
  · rw [hreadCb, hreadFdCb, huserData]
    exact h.withFd cb userData (hcurrent ▸ hc)

theorem ReadInv.readStart (h : ReadInv s) (alloc read : Option ℕ) (userData : ℕ) :
    ReadInv (s.readStart alloc read userData).2 := by
  unfold ReadSide.readStart
  split
  · split
    · exact h
    · refine ⟨rfl, fun cb userData' hc => ?_, fun cb userData' hc => ?_⟩
      · cases hc
        exact ⟨rfl, rfl⟩
      · cases hc
  · exact h

theorem ReadInv.readStartWithFd (h : ReadInv s) (alloc read : Option ℕ) (userData : ℕ)
    (registered : Bool) : ReadInv (s.readStartWithFd alloc read userData registered).2 := by
  unfold ReadSide.readStartWithFd
  split
  · split
    · exact h
    · split
      · exact h
      · next hguard =>
        -- nobody reads, so the fields that are overwritten are nobody's
        have hidle : s.reading = false := by
          rw [not_or, not_or] at hguard
          exact Bool.of_not_eq_true hguard.2.2
        have hnone : s.current = none := by
          refine Option.not_isSome_iff_eq_none.mp ?_
          rw [← h.reading, hidle]
          exact Bool.false_ne_true
        dsimp only
        split
        · refine ⟨?_, fun cb userData' hc => ?_, fun cb userData' hc => ?_⟩
          · show s.reading = s.current.isSome
            exact h.reading
          · rw [show _ = none from hnone] at hc
            cases hc
          · rw [show _ = none from hnone] at hc
            cases hc
        · refine ⟨rfl, fun cb userData' hc => ?_, fun cb userData' hc => ?_⟩
          · cases hc
          · cases hc
            exact ⟨rfl, rfl, rfl⟩
  · exact h

theorem ReadInv.readStop (h : ReadInv s) : ReadInv s.readStop := by
  unfold ReadSide.readStop
  split
  · refine ⟨rfl, fun cb userData hc => ?_, fun cb userData hc => ?_⟩
    · cases hc
    · cases hc
  · exact h

theorem ReadInv.notify (h : ReadInv s) (event : ReadEvent) (callback : Option ReadCallback) :
    ReadInv (s.notify event callback) := h.same rfl rfl rfl rfl rfl

theorem ReadInv.answered (h : ReadInv s) (r : ReadResult) : ReadInv (s.answered r) := by
  unfold ReadSide.answered
  cases r with
  | got nread nfds =>
    dsimp only
    split
    · exact h.notify _ _
    · exact h.same rfl rfl rfl rfl rfl
  | again => exact h.same rfl rfl rfl rfl rfl
  | error => exact h.notify _ _

/-- What an action does. -/
inductive ReadStepped (s : ReadSide) : ReadAction → ReadSide → Prop
  | readStart (alloc read : Option ℕ) (userData : ℕ) :
    ReadStepped s (.readStart alloc read userData) (s.readStart alloc read userData).2
  | readStartWithFd (alloc read : Option ℕ) (userData : ℕ) (registered : Bool) :
    ReadStepped s (.readStartWithFd alloc read userData registered)
      (s.readStartWithFd alloc read userData registered).2
  | readStop : ReadStepped s .readStop s.readStop
  | readable : ReadStepped s .readable s.enter
  | buffer : ReadStepped s (.allocated true) { s with pc := .reading }
  | noBuffer : ReadStepped s (.allocated false) (s.notify .error s.plainFirst)
  | kernel (r : ReadResult) : ReadStepped s (.kernel r) (s.answered r)
  | ret : ReadStepped s .ret { s with pc := .idle }

theorem readStepped {a : ReadAction} (hstep : readStep s a = some s') : ReadStepped s a s' := by
  cases a with
  | readStart alloc read userData =>
    obtain ⟨-, rfl⟩ := of_guard hstep
    exact .readStart alloc read userData
  | readStartWithFd alloc read userData registered =>
    obtain ⟨-, rfl⟩ := of_guard hstep
    exact .readStartWithFd alloc read userData registered
  | readStop =>
    obtain ⟨-, rfl⟩ := of_guard hstep
    exact .readStop
  | readable =>
    obtain ⟨-, rfl⟩ := of_guard hstep
    exact .readable
  | allocated buffer =>
    obtain ⟨-, hstep⟩ := Option.ite_none_right_eq_some.mp hstep
    cases buffer with
    | true =>
      cases hstep
      exact .buffer
    | false =>
      cases hstep
      exact .noBuffer
  | kernel r =>
    obtain ⟨-, rfl⟩ := of_guard hstep
    exact .kernel r
  | ret =>
    obtain ⟨-, rfl⟩ := of_guard hstep
    exact .ret

theorem ReadInv.step {a : ReadAction} (h : ReadInv s) (hstep : readStep s a = some s') :
    ReadInv s' := by
  cases readStepped hstep with
  | readStart alloc read userData => exact h.readStart alloc read userData
  | readStartWithFd alloc read userData registered =>
    exact h.readStartWithFd alloc read userData registered
  | readStop => exact h.readStop
  | readable =>
    unfold ReadSide.enter
    split
    · exact h
    · exact h.same rfl rfl rfl rfl rfl
  | noBuffer => exact h.notify _ _
  | kernel r => exact h.answered r
  | buffer | ret => exact h.same rfl rfl rfl rfl rfl

/-! ## Whom a notification reaches -/

/-- Who was told is who was to be told, and there was somebody. -/
def Notification.Right (n : Notification) : Prop := n.current.isSome = true ∧ n.called = n.current

instance (n : Notification) : Decidable n.Right := inferInstanceAs (Decidable (_ ∧ _))

/-- Every notification went to the current reader. -/
def Right (s : ReadSide) : Prop := ∀ n ∈ s.notified, n.Right

instance (s : ReadSide) : Decidable (Right s) := inferInstanceAs (Decidable (∀ n ∈ s.notified, _))

/-- The stream is still reading when somebody is told; and what was read is told while only one of
the two callbacks is set. -/
def Steady (s : ReadSide) : ReadAction → Prop
  | .allocated buffer => buffer = false → s.reading = true
  | .kernel .again => True
  | .kernel _ => s.reading = true ∧ (s.readCb = none ∨ s.readFdCb = none)
  | _ => True

instance (s : ReadSide) : (a : ReadAction) → Decidable (Steady s a)
  | .allocated _ => inferInstanceAs (Decidable (_ → _))
  | .kernel (.got _ _) | .kernel .error => inferInstanceAs (Decidable (_ ∧ _))
  | .kernel .again | .readStart .. | .readStartWithFd .. | .readStop | .readable | .ret =>
    isTrue trivial

theorem right_notify (hright : Right s) (event : ReadEvent) (callback : Option ReadCallback) :
    Right (s.notify event callback) ↔
      s.current.isSome = true ∧
        callback.map (fun callback => ⟨callback, s.readUserData⟩) = s.current := by
  constructor
  · intro h
    exact h _ (List.mem_append_right _ (List.mem_singleton.mpr rfl))
  · intro h n hn
    rcases List.mem_append.mp hn with hn | hn
    · exact hright n hn
    · rw [List.mem_singleton.mp hn]
      exact h

/-- Without a buffer the current reader is told, if there is one. -/
theorem ReadInv.plainFirst_iff (h : ReadInv s) :
    (s.current.isSome = true ∧
      s.plainFirst.map (fun callback => ⟨callback, s.readUserData⟩) = s.current) ↔
    s.reading = true := by
  rw [h.reading]
  refine ⟨fun hc => hc.1, fun hsome => ⟨hsome, ?_⟩⟩
  obtain ⟨⟨callback, userData⟩, hcurrent⟩ := Option.isSome_iff_exists.mp hsome
  unfold ReadSide.plainFirst
  cases callback with
  | plain cb =>
    obtain ⟨hcb, hdata⟩ := h.plain cb userData hcurrent
    rw [hcb, hdata, hcurrent]
    rfl
  | withFd cb =>
    obtain ⟨hcb, hfd, hdata⟩ := h.withFd cb userData hcurrent
    rw [hcb, hfd, hdata, hcurrent]
    rfl

/-- What was read is told to the current reader, unless it is a plain one and the other field is
set as well. -/
theorem ReadInv.withFdFirst_iff (h : ReadInv s) :
    (s.current.isSome = true ∧
      s.withFdFirst.map (fun callback => ⟨callback, s.readUserData⟩) = s.current) ↔
    s.reading = true ∧ (s.readCb = none ∨ s.readFdCb = none) := by
  rw [h.reading]
  refine and_congr_right fun hsome => ?_
  obtain ⟨⟨callback, userData⟩, hcurrent⟩ := Option.isSome_iff_exists.mp hsome
  unfold ReadSide.withFdFirst
  cases callback with
  | plain cb =>
    obtain ⟨hcb, hdata⟩ := h.plain cb userData hcurrent
    rw [hcb, hcurrent]
    cases hfd : s.readFdCb with
    | none =>
      rw [hdata]
      exact ⟨fun _ => Or.inr rfl, fun _ => rfl⟩
    | some other =>
      constructor
      · intro heq
        cases heq
      · intro hnone
        rcases hnone with hnone | hnone <;> cases hnone
  | withFd cb =>
    obtain ⟨hcb, hfd, hdata⟩ := h.withFd cb userData hcurrent
    rw [hcb, hfd, hdata, hcurrent]
    exact ⟨fun _ => Or.inl rfl, fun _ => rfl⟩

theorem readStart_notified (s : ReadSide) (alloc read : Option ℕ) (userData : ℕ) :
    (s.readStart alloc read userData).2.notified = s.notified := by
  unfold ReadSide.readStart
  split
  · split <;> rfl
  · rfl

theorem readStartWithFd_notified (s : ReadSide) (alloc read : Option ℕ) (userData : ℕ)
    (registered : Bool) :
    (s.readStartWithFd alloc read userData registered).2.notified = s.notified := by
  unfold ReadSide.readStartWithFd
  dsimp only
  repeat' split
  all_goals rfl

theorem readStop_notified (s : ReadSide) : s.readStop.notified = s.notified := by
  unfold ReadSide.readStop
  split <;> rfl

theorem enter_notified (s : ReadSide) : s.enter.notified = s.notified := by
  unfold ReadSide.enter
  split <;> rfl

/-- A step without a notification. -/
theorem right_same (hnotified : s'.notified = s.notified) : Right s' ↔ Right s := by
  unfold Right
  rw [hnotified]

/-- A step keeps the record right exactly if it is a steady one. -/
theorem right_step {a : ReadAction} (h : ReadInv s) (hright : Right s)
    (hstep : readStep s a = some s') : Right s' ↔ Steady s a := by
  cases readStepped hstep with
  | readStart =>
    exact iff_of_true ((right_same (readStart_notified ..)).mpr hright) trivial
  | readStartWithFd =>
    exact iff_of_true ((right_same (readStartWithFd_notified ..)).mpr hright) trivial
  | readStop => exact iff_of_true ((right_same (readStop_notified s)).mpr hright) trivial
  | readable => exact iff_of_true ((right_same (enter_notified s)).mpr hright) trivial
  | buffer => exact iff_of_true hright fun h => by cases h
  | noBuffer =>
    rw [right_notify hright, h.plainFirst_iff]
    exact ⟨fun hreading _ => hreading, fun hreading => hreading rfl⟩
  | kernel r =>
    unfold ReadSide.answered
    cases r with
    | got nread nfds =>
      dsimp only
      split
      · rw [right_notify hright]
        exact h.withFdFirst_iff
      · have hclosed : Right { s with readable := false } := hright
        rw [right_notify hclosed]
        exact h.withFdFirst_iff
    | again => exact iff_of_true hright trivial
    | error =>
      rw [right_notify hright]
      exact h.withFdFirst_iff
  | ret => exact iff_of_true hright trivial

/-- Notifications are not taken back. -/
theorem notified_grows {a : ReadAction} (hstep : readStep s a = some s') :
    s.notified <+: s'.notified := by
  have hsame {t : ReadSide} (heq : t.notified = s.notified) : s.notified <+: t.notified :=
    ⟨[], by rw [List.append_nil, heq]⟩
  cases readStepped hstep with
  | readStart => exact hsame (readStart_notified ..)
  | readStartWithFd => exact hsame (readStartWithFd_notified ..)
  | readStop => exact hsame (readStop_notified s)
  | readable => exact hsame (enter_notified s)
  | buffer | ret => exact hsame rfl
  | noBuffer => exact List.prefix_append _ _
  | kernel r =>
    unfold ReadSide.answered
    cases r with
    | got nread nfds =>
      dsimp only
      split
      · exact List.prefix_append _ _
      · exact List.prefix_append _ _
    | again => exact hsame rfl
    | error => exact List.prefix_append _ _

/-- Reads go to the current reader: every notification went to the callback of the last start that
had returned true and was not stopped since, and `loopyStreamIsReading` says whether there is
such a start. -/
structure ReadLaw (s : ReadSide) : Prop where
  right : Right s
  isReading : s.isReading = s.current.isSome

end

/-- **Reads go to the current reader exactly in the runs of steady steps**: whenever somebody is
told, the allocation callback has left the stream reading, and what was read is told while not both
callbacks are set. -/
theorem reads_go_to_reader (type : LoopyStreamType) (fd : Option ℕ) (as : List ReadAction)
    (s : ReadSide) (hrun : Run readStep (fun _ _ => True) (.new type fd) as s) :
    ReadLaw s ↔ Run readStep Steady (.new type fd) as s := by
  have hinv : ReadInv s := by
    refine hrun.invariant (P := ReadInv) (fun _ _ _ h _ hstep => h.step hstep) ?_
    exact .new type fd
  have hclean : Right s ↔ Run readStep Steady (.new type fd) as s := by
    refine hrun.clean_iff (P := ReadInv) (fun _ _ _ h hstep => h.step hstep)
      (fun _ _ _ h hright hstep => right_step h hright hstep) (fun t a t' hstep hright n hn => ?_)
      (.new type fd) (fun _ hn => absurd hn List.not_mem_nil)
    exact hright n ((notified_grows hstep).subset hn)
  rw [← hclean]
  exact ⟨fun h => h.right, fun h => ⟨h, hinv.reading⟩⟩

/-- A plain reader, stopped in its own callback, and one for file descriptors behind it. -/
def readingRun : List ReadAction :=
  [.readStart (some 1) (some 2) 7, .readable, .allocated true, .kernel (.got 5 0), .readStop, .ret,
    .readable, .readStartWithFd (some 1) (some 3) 8 true, .readable, .allocated false, .ret,
    .readable, .allocated true, .kernel (.got 4 2), .ret, .readable, .allocated true,
    .kernel (.got 0 0), .ret]

theorem reads_go_to_reader_readingRun :
    ∃ s, Run readStep (fun _ _ => True) (.new .pipe (some 3)) readingRun s ∧ ReadLaw s ∧
      s.notified.map (·.event) = [.data 5 0, .error, .data 4 2, .eof] := by
  have hexec : (exec readStep Steady (.new .pipe (some 3)) readingRun).map
      (fun s => s.notified.map (·.event)) = some [.data 5 0, .error, .data 4 2, .eof] := by
    decide +kernel
  obtain ⟨s, hsteady, hval⟩ := Run.of_exec_map hexec
  have hrun : Run readStep (fun _ _ => True) (.new .pipe (some 3)) readingRun s :=
    hsteady.mono fun _ _ _ => trivial
  exact ⟨s, hrun, (reads_go_to_reader .pipe (some 3) readingRun s hrun).mpr hsteady, hval⟩

/-- A reader for file descriptors is stopped, and a plain one is started. -/
def staleRun : List ReadAction :=
  [.readStartWithFd (some 1) (some 2) 7 true, .readStop, .readStart (some 1) (some 3) 8,
    .readable, .allocated true, .kernel (.got 5 0)]

/-- The allocation callback stops the reading and provides a buffer. -/
def stoppedRun : List ReadAction :=
  [.readStart (some 1) (some 2) 7, .readable, .readStop, .allocated true, .kernel (.got 5 0)]

/-- The first callback gets the data of the second, and a callback that was stopped gets data. -/
theorem reads_go_astray :
    (∃ s, Run readStep (fun _ _ => True) (.new .pipe (some 3)) staleRun s ∧
      s.notified = [⟨.data 5 0, some ⟨.withFd 2, 8⟩, some ⟨.plain 3, 8⟩⟩] ∧ ¬ ReadLaw s) ∧
    ∃ s, Run readStep (fun _ _ => True) (.new .tcp (some 3)) stoppedRun s ∧
      s.notified = [⟨.data 5 0, some ⟨.plain 2, 7⟩, none⟩] ∧ ¬ ReadLaw s := by
  constructor
  · have hexec : (exec readStep (fun _ _ => True) (.new .pipe (some 3)) staleRun).map
        (fun s => s.notified) = some [⟨.data 5 0, some ⟨.withFd 2, 8⟩, some ⟨.plain 3, 8⟩⟩] := by
      decide +kernel
    obtain ⟨s, hs, hnotified⟩ := Run.of_exec_map hexec
    refine ⟨s, hs, hnotified, fun hlaw => ?_⟩
    have hright := hlaw.right
    rw [Right, hnotified] at hright
    revert hright
    decide
  · have hexec : (exec readStep (fun _ _ => True) (.new .tcp (some 3)) stoppedRun).map
        (fun s => s.notified) = some [⟨.data 5 0, some ⟨.plain 2, 7⟩, none⟩] := by
      decide +kernel
    obtain ⟨s, hs, hnotified⟩ := Run.of_exec_map hexec
    refine ⟨s, hs, hnotified, fun hlaw => ?_⟩
    have hright := hlaw.right
    rw [Right, hnotified] at hright
    revert hright
    decide

end Loopy.Stream
