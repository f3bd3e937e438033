import Loopy.Stream.Queue

/-!
# `loopyStream.c`: the write watcher

While no function of the stream runs, its fd is registered for write exactly when there is
something to wait for. Two branches of the source leave the watcher as it should not be, and
`Watched` is the runs that take neither: a failed connect unregisters the fd whatever is queued,
and a connect to an IPv6 address closes the fd without unregistering it.
-/

namespace Loopy.Stream

open Loopy.Lib
open Function (update update_of_ne update_self)

/-- The fd is registered for write. -/
def LoopyStream.registered (s : LoopyStream) : Bool := (s.fd.bind s.watch).isSome

/-- There is something to wait for. -/
def LoopyStream.waits (s : LoopyStream) : Bool :=
  s.writeHead.isSome || s.shutdownPending || s.connecting

/-- Neither of the two branches is taken: no connect fails while a write is queued or a shutdown is
pending, and none exchanges a registered fd. The stream is not closed. -/
def Watched (s : LoopyStream) : Action → Prop
  | .getsockopt ok => ok = true ∨ s.writeHead = none ∧ s.shutdownPending = false
  | .connect (.ipv6 ..) _ _ => s.type = .tcp → s.registered = false
  | .close _ => False
  | _ => True

instance : ∀ s a, Decidable (Watched s a)
  | _, .getsockopt _ =>
    inferInstanceAs (Decidable (_ ∨ _))
  | _, .connect (.ipv6 ..) _ _ => inferInstanceAs (Decidable (_ → _))
  | _, .connect .ipv4 _ _ | _, .connect .invalid _ _ => isTrue trivial
  | _, .close _ => isFalse id
  | _, .write .. | _, .writeWithFd .. | _, .tryWrite .. | _, .shutdown .. | _, .readStart
  | _, .readStop | _, .writable | _, .endOfFile | _, .kernel _ | _, .run | _, .ret => isTrue trivial

structure WatchInv (s : LoopyStream) : Prop where
  opened : s.pc.closes = false
  tail : s.writeTail ≠ none → s.writeHead ≠ none
  others : ∀ fd, s.fd ≠ some fd → s.watch fd = none
  idle : s.pc = .idle → s.registered = s.waits
  busy : s.pc ≠ .idle → s.registered = true

/-- A new stream watches nothing and has nothing to wait for. -/
theorem WatchInv.new (type : LoopyStreamType) (fd : Option ℕ) (connected : Bool) :
    WatchInv (.new type fd connected) := by
  refine ⟨rfl, nofun, fun _ _ => rfl, fun _ => ?_, fun h => absurd rfl h⟩
  cases fd <;> rfl

/-- Where the fd is registered and waited for. -/
theorem WatchInv.of_registered {s : LoopyStream} (hopened : s.pc.closes = false)
    (htail : s.writeTail ≠ none → s.writeHead ≠ none)
    (hothers : ∀ fd, s.fd ≠ some fd → s.watch fd = none) (hregistered : s.registered = true)
    (hwaits : s.waits = true) : WatchInv s :=
  ⟨hopened, htail, hothers, fun _ => hregistered.trans hwaits.symm, fun _ => hregistered⟩

theorem LoopyStream.fd_of_registered {s : LoopyStream} (h : s.registered = true) : s.fd ≠ none := by
  intro hnone
  rw [registered, hnone] at h
  cases h

theorem LoopyStream.waits_of_head {s : LoopyStream} (h : s.writeHead ≠ none) : s.waits = true := by
  rw [waits, Option.isSome_iff_ne_none.mpr h]
  rfl

/-! ## The watcher is updated -/

section update

variable {s : LoopyStream} {fd : ℕ}

/-- With a descriptor, the watch is set to what is waited for. -/
theorem LoopyStream.updateWriteWatcher_some (h : s.fd = some fd) :
    s.updateWriteWatcher = { s with
      watch := update s.watch fd
        (if s.waits then some .streamWriteCallback else none) } := by
  unfold updateWriteWatcher
  rw [h]
  rfl

/-- Updating registers exactly if something waits. -/
theorem LoopyStream.update_registered (h : s.fd ≠ none) :
    s.updateWriteWatcher.registered = s.waits := by
  obtain ⟨fd, hfd⟩ := Option.ne_none_iff_exists'.mp h
  rw [updateWriteWatcher_some hfd]
  unfold registered
  dsimp only
  rw [hfd, Option.bind_some, update_self]
  cases s.waits <;> rfl

theorem LoopyStream.update_fd : s.updateWriteWatcher.fd = s.fd := by
  unfold updateWriteWatcher
  split <;> rfl

theorem LoopyStream.update_waits : s.updateWriteWatcher.waits = s.waits := by
  unfold updateWriteWatcher
  split <;> rfl

/-- Only the entry of the own fd changes. -/
theorem LoopyStream.update_watch (h : s.fd ≠ some fd) :
    s.updateWriteWatcher.watch fd = s.watch fd := by
  unfold updateWriteWatcher
  split
  · rfl
  · next fd' hfd =>
    refine update_of_ne ?_ ..
    rintro rfl
    exact h hfd

/-- An update behind which the stream is idle. -/
theorem WatchInv.update (htail : s.writeTail ≠ none → s.writeHead ≠ none)
    (hothers : ∀ fd, s.fd ≠ some fd → s.watch fd = none) (hfd : s.fd ≠ none) (depth : ℕ) :
    WatchInv { s.updateWriteWatcher with pc := .idle, depth } := by
  have hsame := s.updateWriteWatcher_same
  refine ⟨rfl, ?_, fun fd h => ?_, fun _ => ?_, fun h => absurd rfl h⟩
  · show s.updateWriteWatcher.writeTail ≠ none → s.updateWriteWatcher.writeHead ≠ none
    rw [hsame.writeTail, hsame.writeHead]
    exact htail
  · have h' : s.fd ≠ some fd := fun hs => h (LoopyStream.update_fd.trans hs)
    exact (LoopyStream.update_watch h').trans (hothers fd h')
  · exact (LoopyStream.update_registered hfd).trans LoopyStream.update_waits.symm

/-- An update while a request is queued. -/
theorem WatchInv.update_queued (hopened : s.pc.closes = false) (hhead : s.writeHead ≠ none)
    (hothers : ∀ fd, s.fd ≠ some fd → s.watch fd = none) (hfd : s.fd ≠ none) :
    WatchInv s.updateWriteWatcher := by
  have hwaits := LoopyStream.waits_of_head hhead
  refine .of_registered ?_ ?_ (fun fd h => ?_) ?_ ?_
  · rw [s.updateWriteWatcher_place.pc]
    exact hopened
  · rw [s.updateWriteWatcher_same.writeHead]
    exact fun _ => hhead
  · rw [LoopyStream.update_fd] at h
    exact (LoopyStream.update_watch h).trans (hothers fd h)
  · rw [LoopyStream.update_registered hfd, hwaits]
  · rw [LoopyStream.update_waits, hwaits]

theorem LoopyStream.unregister_fd : s.unregisterWrite.fd = s.fd := by
  unfold unregisterWrite
  split <;> rfl

theorem LoopyStream.unregister_waits : s.unregisterWrite.waits = s.waits := by
  unfold unregisterWrite
  split <;> rfl

/-- Other descriptors are watched as before. -/
theorem LoopyStream.unregister_watch (h : s.fd ≠ some fd) :
    s.unregisterWrite.watch fd = s.watch fd := by
  unfold unregisterWrite
  split
  · rfl
  · next fd' hfd =>
    refine update_of_ne ?_ ..
    rintro rfl
    exact h hfd

/-- The stream is not registered any more. -/
theorem LoopyStream.unregister_registered : s.unregisterWrite.registered = false := by
  rw [registered, unregister_fd]
  unfold unregisterWrite
  cases hfd : s.fd with
  | none => rfl
  | some fd =>
    dsimp only
    rw [Option.bind_some, update_self]
    rfl

theorem LoopyStream.unregister_others (hothers : ∀ fd, s.fd ≠ some fd → s.watch fd = none) :
    ∀ fd, s.unregisterWrite.fd ≠ some fd → s.unregisterWrite.watch fd = none := by
  intro fd h
  rw [unregister_fd] at h
  exact (unregister_watch h).trans (hothers fd h)

/-- Nothing is waited for, and the fd is unregistered. -/
theorem WatchInv.unregister (htail : s.writeTail ≠ none → s.writeHead ≠ none)
    (hothers : ∀ fd, s.fd ≠ some fd → s.watch fd = none) (hwaits : s.waits = false) (depth : ℕ) :
    WatchInv { s.unregisterWrite with pc := .idle, depth } := by
  have hsame := s.unregisterWrite_same
  refine ⟨rfl, ?_, LoopyStream.unregister_others hothers, fun _ => ?_, fun h => absurd rfl h⟩
  · show s.unregisterWrite.writeTail ≠ none → s.unregisterWrite.writeHead ≠ none
    rw [hsame.writeTail, hsame.writeHead]
    exact htail
  · refine LoopyStream.unregister_registered.trans (Eq.symm ?_)
    exact LoopyStream.unregister_waits.trans hwaits

end update

/-! ## What user code calls -/

section called

variable {s : LoopyStream}

/-- A queue with a new request has a head. -/
theorem LoopyStream.enqueue_head (htail : s.writeTail ≠ none → s.writeHead ≠ none)
    (data : List UInt8) (fds : List ℕ) (cb : Bool) :
    (s.enqueue data fds cb).writeHead ≠ none := by
  unfold enqueue
  dsimp only [setReq]
  split
  · next tail hs => exact htail (by rw [hs]; nofun)
  · nofun

/-- Queueing registers nothing by itself. -/
theorem LoopyStream.enqueue_fd (data : List UInt8) (fds : List ℕ) (cb : Bool) :
    (s.enqueue data fds cb).fd = s.fd ∧ (s.enqueue data fds cb).watch = s.watch := by
  unfold enqueue
  dsimp only [setReq]
  split <;> exact ⟨rfl, rfl⟩

namespace WatchInv

section

variable (hinv : WatchInv s)

include hinv

/-- Queueing and then updating keeps the watcher exact. -/
theorem enqueue (hfd : s.fd ≠ none) (data : List UInt8)
    (fds : List ℕ) (cb : Bool) : WatchInv (s.enqueue data fds cb).updateWriteWatcher := by
  obtain ⟨hfd', hwatch⟩ := s.enqueue_fd data fds cb
  refine .update_queued ?_ (LoopyStream.enqueue_head hinv.tail data fds cb) ?_ ?_
  · rw [(s.enqueue_place data fds cb).pc]
    exact hinv.opened
  · rw [hfd', hwatch]
    exact hinv.others
  · rw [hfd']
    exact hfd

/-- So does a write. -/
theorem write (data : List UInt8) (cb alloc : Bool) : WatchInv (s.write data cb alloc) := by
  unfold LoopyStream.write
  split
  · exact hinv
  · split
    · exact hinv
    · next hguard =>
      split
      · exact hinv
      · exact hinv.enqueue (fun h => hguard (.inl h)) data [] cb

/-- So does a write with descriptors. -/
theorem writeWithFd (data : List UInt8) (fds : List ℕ)
    (cb alloc : Bool) : WatchInv (s.writeWithFd data fds cb alloc) := by
  unfold LoopyStream.writeWithFd
  split
  · exact hinv
  · split
    · exact hinv
    · split
      · exact hinv
      · split
        · exact hinv
        · next hguard =>
          split
          · exact hinv
          · exact hinv.enqueue (fun h => hguard (.inl h)) data fds cb

/-- A write that is only tried leaves the watcher. -/
theorem tryWrite {s' : LoopyStream} {data : List UInt8}
    {r : KernelResult} (h : s.tryWrite data r = some s') : WatchInv s' := by
  unfold LoopyStream.tryWrite at h
  repeat' split at h
  all_goals cases h
  all_goals exact ⟨hinv.opened, hinv.tail, hinv.others, hinv.idle, hinv.busy⟩

/-- A connect in progress is waited for. -/
theorem connectFd (hfd : s.fd ≠ none) (r : ConnectResult)
    (cb : Bool) : WatchInv (s.connectFd r cb) := by
  unfold LoopyStream.connectFd
  cases r with
  | error => exact hinv
  | done => exact ⟨hinv.opened, hinv.tail, hinv.others, hinv.idle, hinv.busy⟩
  | inProgress =>
    obtain ⟨fd, hfd⟩ := Option.ne_none_iff_exists'.mp hfd
    dsimp only
    rw [hfd]
    refine .of_registered hinv.opened hinv.tail (fun fd' h => ?_) ?_ ?_
    · refine (update_of_ne ?_ ..).trans (hinv.others fd' ?_)
      · rintro rfl
        exact h rfl
      · rw [hfd]
        exact h
    · unfold LoopyStream.registered
      dsimp only
      rw [Option.bind_some, update_self]
      rfl
    · exact Bool.or_true _

/-- An fd that is not registered may be exchanged. -/
theorem exchange (hnot : s.registered = false) (fd : Option ℕ) : WatchInv { s with fd } := by
  have hidle : s.pc = .idle := by
    by_contra hpc
    rw [hinv.busy hpc] at hnot
    cases hnot
  -- neither the old fd nor any other one is registered
  have hnone (fd : ℕ) : s.watch fd = none := by
    by_cases hs : s.fd = some fd
    · rw [LoopyStream.registered, hs] at hnot
      exact Option.isNone_iff_eq_none.mp (Option.isSome_eq_false_iff.mp hnot)
    · exact hinv.others fd hs
  have hregistered : ({ s with fd } : LoopyStream).registered = false := by
    unfold LoopyStream.registered
    cases fd with
    | none => rfl
    | some fd =>
      show (s.watch fd).isSome = false
      rw [hnone]
      rfl
  refine ⟨hinv.opened, hinv.tail, fun fd' _ => hnone fd', fun _ => ?_, fun h => absurd hidle h⟩
  rw [hregistered, ← hnot]
  exact hinv.idle hidle

/-- So it is on a socket that the connect has opened. -/
theorem connect {address : Address} {r : ConnectResult} {cb : Bool}
    (hok : Watched s (.connect address r cb)) : WatchInv (s.connect address r cb) := by
  unfold LoopyStream.connect
  split
  · exact hinv
  · next hguard =>
    rw [not_or, not_not] at hguard
    cases address with
    | ipv4 => exact hinv.connectFd hguard.2 r cb
    | invalid => exact hinv
    | ipv6 fd nonBlock =>
      have hexchanged := hinv.exchange (hok hguard.1) fd
      dsimp only
      split
      · exact hexchanged
      · next hfd =>
        split
        · exact hexchanged
        · exact hexchanged.connectFd hfd r cb

/-- A shutdown is pending only behind a request. -/
theorem shutdown (ok cb : Bool) : WatchInv (s.shutdown ok cb) := by
  unfold LoopyStream.shutdown
  dsimp only
  split
  · exact hinv
  · split
    · next hhead =>
      refine ⟨hinv.opened, hinv.tail, hinv.others, fun hpc => ?_, hinv.busy⟩
      have hregistered := (hinv.idle hpc).trans (LoopyStream.waits_of_head hhead)
      refine hregistered.trans (Eq.symm ?_)
      exact LoopyStream.waits_of_head hhead
    · split
      · exact ⟨hinv.opened, hinv.tail, hinv.others, hinv.idle, hinv.busy⟩
      · exact ⟨hinv.opened, hinv.tail, hinv.others, hinv.idle, hinv.busy⟩

end

end WatchInv

end called

/-! ## The events -/

section events

variable {s s' : LoopyStream}

/-- The handlers start with an exact watcher. -/
theorem WatchInv.dispatch (hinv : WatchInv s) (h : s.dispatch = some s') : WatchInv s' := by
  unfold LoopyStream.dispatch at h
  split at h
  · next hwatch =>
    have hregistered : s.registered = true := by rw [LoopyStream.registered, hwatch]; rfl
    cases h
    refine ⟨?_, hinv.tail, hinv.others, fun hpc => ?_, fun _ => hregistered⟩
    · cases s.connecting <;> rfl
    · revert hpc
      cases s.connecting <;> nofun
  · next hwatch =>
    have hregistered : s.registered = true := by rw [LoopyStream.registered, hwatch]; rfl
    cases h
    exact ⟨rfl, hinv.tail, hinv.others, nofun, fun _ => hregistered⟩
  · cases h

/-- The watcher after an attempt to connect. -/
theorem WatchInv.finishConnect (hinv : WatchInv s) (hpc : s.pc = .connectCheck) {ok : Bool}
    (hok : Watched s (.getsockopt ok)) : WatchInv (s.finishConnect ok) := by
  have hfd := LoopyStream.fd_of_registered (hinv.busy (by rw [hpc]; nofun))
  unfold LoopyStream.finishConnect
  dsimp only
  cases ok with
  | true =>
    -- registered again if something is queued
    rw [if_pos rfl]
    let t : LoopyStream := { s with connecting := false, connected := true }
    refine .update (s := t.unregisterWrite) ?_ (LoopyStream.unregister_others hinv.others) ?_ _
    · rw [t.unregisterWrite_same.writeTail, t.unregisterWrite_same.writeHead]
      exact hinv.tail
    · rw [LoopyStream.unregister_fd]
      exact hfd
  | false =>
    rw [if_neg Bool.false_ne_true]
    -- unregistered, which is right as nothing is queued
    obtain hok | ⟨hhead, hshutdown⟩ := hok
    · cases hok
    · let t : LoopyStream := { s with connecting := false }
      have hwaits : t.waits = false := by
        show (s.writeHead.isSome || s.shutdownPending || false) = false
        rw [hhead, hshutdown]
        rfl
      exact .unregister (s := t) hinv.tail hinv.others hwaits _

/-- What is left of a request is still waited for. -/
theorem WatchInv.kernelWrite (hinv : WatchInv s) (hpc : s.pc = .writeLoop) {n : ℕ}
    (hhead : s.writeHead = some n) {r : KernelResult} (h : s.kernelWrite n r = some s') :
    WatchInv s' := by
  have hregistered := hinv.busy (by rw [hpc]; nofun)
  have hsome : s.writeHead ≠ none := by rw [hhead]; nofun
  unfold LoopyStream.kernelWrite at h
  dsimp only at h
  split at h
  · cases h
    refine .of_registered rfl hinv.tail hinv.others hregistered ?_
    exact LoopyStream.waits_of_head hsome
  · cases h
    exact ⟨rfl, hinv.tail, hinv.others, nofun, fun _ => hregistered⟩
  · obtain ⟨_, h⟩ := Option.ite_none_right_eq_some.mp h
    split at h
    · cases h
      refine ⟨?_, ?_, hinv.others, fun h => ?_, fun _ => hregistered⟩
      · dsimp only
        split <;> rfl
      · -- the tail is reset with the head
        dsimp only
        split
        · exact fun h => absurd rfl h
        · next hnext => exact fun _ => hnext
      · dsimp only at h
        split at h <;> cases h
    · cases h
      exact .of_registered hinv.opened hinv.tail hinv.others hregistered
        (LoopyStream.waits_of_head hsome)

/-- Behind the loop the watcher is updated, unless the shutdown callback is called before. -/
theorem WatchInv.finishWrite (hinv : WatchInv s) (hpc : s.pc = .writeLoop) :
    WatchInv s.finishWrite := by
  have hregistered := hinv.busy (by rw [hpc]; nofun)
  have hfd := LoopyStream.fd_of_registered hregistered
  let t : LoopyStream := { s with writable := false, shutdownPending := false }
  unfold LoopyStream.finishWrite
  dsimp only
  split
  · split
    · exact ⟨rfl, hinv.tail, hinv.others, nofun, fun _ => hregistered⟩
    · exact .update (s := t) hinv.tail hinv.others hfd _
  · exact .update hinv.tail hinv.others hfd _

/-- Draining empties the queue without the watcher. -/
theorem WatchInv.drainStep (hinv : WatchInv s) {closing : Bool} {req : Option ℕ}
    (hpc : s.pc = .drain closing req) : WatchInv (s.drainStep closing req) := by
  have hregistered := hinv.busy (by rw [hpc]; nofun)
  have hclosing : closing = false := by
    have hopened := hinv.opened
    rw [hpc] at hopened
    exact hopened
  subst hclosing
  cases req with
  | some n =>
    unfold LoopyStream.drainStep
    refine ⟨?_, hinv.tail, hinv.others, fun h => ?_, fun _ => hregistered⟩
    · dsimp only
      split <;> rfl
    · dsimp only at h
      split at h <;> cases h
  | none =>
    rw [LoopyStream.drainStep_none, if_neg Bool.false_ne_true]
    exact .update (s := s.emptied) (fun h => h) hinv.others
      (LoopyStream.fd_of_registered hregistered) _

/-- A callback returns to an exact watcher. -/
theorem WatchInv.callbackReturns (hinv : WatchInv s) (h : s.callbackReturns = some s') :
    WatchInv s' := by
  unfold LoopyStream.callbackReturns at h
  split at h
  · cases h
    exact ⟨hinv.opened, hinv.tail, hinv.others, hinv.idle, hinv.busy⟩
  · split at h
    · next hpc =>
      have hregistered := hinv.busy (by rw [hpc]; nofun)
      cases h
      exact ⟨rfl, hinv.tail, hinv.others, nofun, fun _ => hregistered⟩
    · next closing next hpc =>
      have hregistered := hinv.busy (by rw [hpc]; nofun)
      have hopened := hinv.opened
      rw [hpc] at hopened
      cases h
      exact ⟨hopened, hinv.tail, hinv.others, nofun, fun _ => hregistered⟩
    · next hpc =>
      have hregistered := hinv.busy (by rw [hpc]; nofun)
      cases h
      exact .update hinv.tail hinv.others (LoopyStream.fd_of_registered hregistered) _
    all_goals cases h

end events

/-! ## Runs -/

/-- **Every watched step keeps the watcher exact.**. -/
theorem WatchInv.step {s s' : LoopyStream} {a : Action} (hinv : WatchInv s) (hok : Watched s a)
    (hstep : step s a = some s') : WatchInv s' := by
  cases stepped hstep with
  | write data cb alloc => exact hinv.write data cb alloc
  | writeWithFd data fds cb alloc => exact hinv.writeWithFd data fds cb alloc
  | tryWrite data r huser h => exact hinv.tryWrite h
  | connect address r cb => exact hinv.connect hok
  | shutdown ok cb => exact hinv.shutdown ok cb
  | readStart | readStop | endOfFile =>
    exact ⟨hinv.opened, hinv.tail, hinv.others, hinv.idle, hinv.busy⟩
  | close cb => exact hok.elim
  | writable hquiet h => exact hinv.dispatch h
  | getsockopt ok hpc => exact hinv.finishConnect hpc hok
  | kernel r n hpc hhead h => exact hinv.kernelWrite hpc hhead h
  | finishWrite hpc => exact hinv.finishWrite hpc
  | drainStep closing req hpc => exact hinv.drainStep hpc
  | ret h => exact hinv.callbackReturns h

/-- **The write watcher**: on every run in which no connect fails while something is queued and
none exchanges a registered fd, a stream of which no function runs has its fd registered for write
exactly when a write is queued, a shutdown is pending or a connect is in progress. -/
theorem watcher_exact {start s : LoopyStream} {as : List Action}
    (hstart : (∃ fd, start = .newTcp fd) ∨ ∃ fd type, start = .fromFd fd type)
    (hrun : Run step Watched start as s) (hidle : s.pc = .idle) :
    s.registered = true ↔
      s.writeHead ≠ none ∨ s.shutdownPending = true ∨ s.connecting = true := by
  have hnew : WatchInv start := by
    obtain ⟨fd, rfl⟩ | ⟨fd, type, rfl⟩ := hstart
    · exact .new ..
    · exact .new ..
  have hinv : WatchInv s :=
    hrun.invariant (fun s a s' h hok hstep => h.step hok hstep) hnew
  rw [hinv.idle hidle, LoopyStream.waits, Bool.or_eq_true, Bool.or_eq_true,
    Option.isSome_iff_ne_none, or_assoc]

/-- A write before the connect, which succeeds later; a shutdown behind the write. -/
def watcherRun : List Action :=
  [.write [1, 2] false true, .connect .ipv4 .inProgress true, .writable, .getsockopt true, .ret,
    .writable, .kernel (.took 1), .kernel .again, .shutdown true true]

theorem watcher_exact_watcherRun :
    ∃ s, Run step Watched (.newTcp 3) watcherRun s ∧ s.pc = .idle ∧ s.registered = true ∧
      (s.registered = true ↔
        s.writeHead ≠ none ∨ s.shutdownPending = true ∨ s.connecting = true) := by
  have hexec : (exec step Watched (.newTcp 3) watcherRun).map (fun s => (s.pc, s.registered)) =
      some (.idle, true) := by decide +kernel
  obtain ⟨s, hrun, hval⟩ := Run.of_exec_map hexec
  obtain ⟨hpc, hregistered⟩ := Prod.mk.inj hval
  exact ⟨s, hrun, hpc, hregistered, watcher_exact (.inl ⟨3, rfl⟩) hrun hpc⟩

/-- A write is queued, and the connect fails. -/
def strandedRun : List Action :=
  [.connect .ipv4 .inProgress false, .write [1] false true, .writable, .getsockopt false]

/-- The write stays on the queue of an fd that is not registered. -/
theorem watcher_stranded :
    ¬ ∀ (as : List Action) (s : LoopyStream), Run step (fun _ _ => True) (.newTcp 3) as s →
      s.quiet → (s.registered = true ↔
        s.writeHead ≠ none ∨ s.shutdownPending = true ∨ s.connecting = true) := by
  intro hall
  have hexec : (exec step (fun _ _ => True) (.newTcp 3) strandedRun).map
      (fun s => (decide s.quiet, s.registered, s.writeHead)) = some (true, false, some 0) := by
    decide +kernel
  obtain ⟨s, hs, hval⟩ := Run.of_exec_map hexec
  obtain ⟨hquiet, hval⟩ := Prod.mk.inj hval
  obtain ⟨hregistered, hhead⟩ := Prod.mk.inj hval
  have hlaw := hall strandedRun s hs (of_decide_eq_true hquiet)
  have hset := hlaw.mpr (.inl (by rw [hhead]; nofun))
  rw [hregistered] at hset
  cases hset

-- the other branch: a connect closes the fd with a write queued, and the new fd is not registered
example :
    (exec step (fun _ _ => True) (.newTcp 3)
      [.write [1] false true, .connect (.ipv6 (some 4) true) .error false]).map
        (fun s => (decide s.quiet, s.registered, s.writeHead)) = some (true, false, some 0) := by
  decide +kernel

end Loopy.Stream
