import Loopy.Stream.Basic

/-!
# `loopyStream.c`: what an action does to the write queue

Every action leaves the queue and the record as they are, or it is one of five: a direct write to
the kernel, a new request, bytes of the first request that the kernel takes, a request that is
drained, and the end of a drain (`step_effect`). In a drain the pending requests hang on the local
variable of `streamDrainWriteQueue`, and `writeHead` is stale.
-/

namespace Loopy.Stream

open Loopy.Lib

/-- The stream is in `streamDrainWriteQueue`. -/
def LoopyStream.draining (s : LoopyStream) : Bool :=
  match s.pc with
  | .drain .. | .drained .. => true
  | _ => false

/-- Where the pending requests begin. -/
def LoopyStream.pending (s : LoopyStream) : Option ℕ :=
  match s.pc with
  | .drain _ p | .drained _ p => p
  | _ => s.writeHead

/-- The bytes of a request that the kernel has yet to take. -/
def LoopyWriteReq.unwritten (req : LoopyWriteReq) : List UInt8 := req.data.drop req.written

theorem LoopyWriteReq.length_unwritten (req : LoopyWriteReq) :
    req.unwritten.length = req.data.length - req.written := List.length_drop

/-- The queue and the record are the same. -/
structure SameQueue (s s' : LoopyStream) : Prop where
  type : s'.type = s.type
  req : s'.req = s.req
  allocated : s'.allocated = s.allocated
  completed : s'.completed = s.completed
  accepted : s'.accepted = s.accepted
  wire : s'.wire = s.wire
  writeHead : s'.writeHead = s.writeHead
  writeTail : s'.writeTail = s.writeTail
  writeQueueSize : s'.writeQueueSize = s.writeQueueSize
  writeQueueCount : s'.writeQueueCount = s.writeQueueCount
  pending : s'.pending = s.pending
  draining : s'.draining = s.draining
  closed : s'.pc = .closed → s.pc = .closed

theorem SameQueue.refl (s : LoopyStream) : SameQueue s s :=
  ⟨rfl, rfl, rfl, rfl, rfl, rfl, rfl, rfl, rfl, rfl, rfl, rfl, id⟩

variable {s s' : LoopyStream}

theorem SameQueue.trans {s'' : LoopyStream} (h : SameQueue s s') (h' : SameQueue s' s'') :
    SameQueue s s'' where
  type := h'.type.trans h.type
  req := h'.req.trans h.req
  allocated := h'.allocated.trans h.allocated
  completed := h'.completed.trans h.completed
  accepted := h'.accepted.trans h.accepted
  wire := h'.wire.trans h.wire
  writeHead := h'.writeHead.trans h.writeHead
  writeTail := h'.writeTail.trans h.writeTail
  writeQueueSize := h'.writeQueueSize.trans h.writeQueueSize
  writeQueueCount := h'.writeQueueCount.trans h.writeQueueCount
  pending := h'.pending.trans h.pending
  draining := h'.draining.trans h.draining
  closed := fun hc => h.closed (h'.closed hc)

namespace LoopyStream

/-- `loopyStreamWrite` and `loopyStreamWriteWithFd` accept what they are called with. -/
def accepts (s : LoopyStream) : Action → Bool
  | .write data _ alloc =>
    decide (data ≠ []) && (s.fd.isSome && s.writable && !s.closing) && alloc
  | .writeWithFd data fds _ alloc =>
    decide (data ≠ []) && decide (fds ≠ []) && decide (s.type = .pipe) &&
      decide (fds.length ≤ maxFds) && (s.fd.isSome && s.writable && !s.closing) && alloc
  | _ => false

/-- The kernel has taken bytes of a `loopyStreamTryWrite`. -/
def tookDirectly (s : LoopyStream) (data : List UInt8) : LoopyStream :=
  { s with
    wire := s.wire ++ [{ req := none, bytes := data, fds := [] }]
    accepted := s.accepted ++ data }

/-- The kernel has taken bytes of the request `n` at the head. -/
def tookBytes (s : LoopyStream) (n bytes : ℕ) : LoopyStream :=
  let req := s.req n
  let sendmsg := decide (req.fds ≠ []) && !req.fdsSent && decide (s.type = .pipe)
  let chunk : Chunk :=
    { req := some n
      bytes := req.unwritten.take bytes
      fds := if sendmsg then req.fds else [] }
  { s.setReq n { req with
      fdsSent := req.fdsSent || (sendmsg && decide (bytes > 0))
      written := req.written + bytes } with
    writeQueueSize := s.writeQueueSize - bytes
    wire := if bytes > 0 then s.wire ++ [chunk] else s.wire }

/-- The request `n` at the head is complete. -/
def completeHead (s : LoopyStream) (n : ℕ) : LoopyStream :=
  { s with
    writeHead := s.next n
    writeTail := if s.next n = none then none else s.writeTail
    writeQueueCount := s.writeQueueCount - 1
    completed := s.completed ++ [(n, true)]
    pc := if (s.req n).cb then .writeDone else .writeLoop }

/-- The queue behind a drain. -/
def emptied (s : LoopyStream) : LoopyStream :=
  { s with writeHead := none, writeTail := none, writeQueueSize := 0, writeQueueCount := 0 }

theorem drainStep_none (s : LoopyStream) (closing : Bool) :
    s.drainStep closing none =
      if closing then
        { s.emptied with fd := none, pc := .closed, depth := if s.closeCb then 1 else 0 }
      else { s.emptied.updateWriteWatcher with pc := .idle } := rfl

end LoopyStream

/-- What begins a drain. -/
def Action.drains : Action → Bool
  | .kernel .error | .close _ => true
  | _ => false

/-- The effect of an action on the queue and the record. -/
inductive Effect (s : LoopyStream) (a : Action) : LoopyStream → Prop
  | same {s' : LoopyStream} (h : SameQueue s s') : Effect s a s'
  | tries {s' : LoopyStream} (data : List UInt8) (huser : s.user = true)
      (hempty : s.writeHead = none)
      (h : SameQueue (s.tookDirectly data) s') : Effect s a s'
  | enqueues {s' : LoopyStream} (data : List UInt8) (fds : List ℕ) (cb : Bool)
      (huser : s.user = true) (haccepts : s.accepts a = true) (hclosing : s.closing = false)
      (hdata : data ≠ []) (hfds : fds ≠ [] → s.type = .pipe)
      (h : SameQueue (s.enqueue data fds cb) s') : Effect s a s'
  | takes (n bytes : ℕ) (hpc : s.pc = .writeLoop) (hhead : s.writeHead = some n)
      (hbytes : bytes ≤ (s.req n).unwritten.length)
      (hrest : (s.req n).written + bytes < (s.req n).data.length) : Effect s a (s.tookBytes n bytes)
  | completes (n bytes : ℕ) (hpc : s.pc = .writeLoop) (hhead : s.writeHead = some n)
      (hbytes : bytes ≤ (s.req n).unwritten.length)
      (hrest : (s.req n).data.length ≤ (s.req n).written + bytes) :
      Effect s a ((s.tookBytes n bytes).completeHead n)
  | begins {t : LoopyStream} (closing : Bool) (ha : a.drains = true)
      (hdraining : s.draining = false) (h : SameQueue s t) :
      Effect s a { t with pc := .drain closing t.writeHead }
  | drains (closing : Bool) (n : ℕ) (hpc : s.pc = .drain closing (some n)) :
      Effect s a (s.drainStep closing (some n))
  | ends (closing : Bool) (hpc : s.pc = .drain closing none) :
      Effect s a (s.drainStep closing none)

theorem LoopyStream.updateWriteWatcher_same (s : LoopyStream) :
    SameQueue s s.updateWriteWatcher := by
  unfold updateWriteWatcher
  split <;> exact ⟨rfl, rfl, rfl, rfl, rfl, rfl, rfl, rfl, rfl, rfl, rfl, rfl, id⟩

theorem LoopyStream.updateWriteWatcher_goes (s : LoopyStream) (pc : Pc) :
    SameQueue { s with pc } { s.updateWriteWatcher with pc } := by
  unfold updateWriteWatcher
  split <;> exact ⟨rfl, rfl, rfl, rfl, rfl, rfl, rfl, rfl, rfl, rfl, rfl, rfl, id⟩

theorem LoopyStream.unregisterWrite_same (s : LoopyStream) : SameQueue s s.unregisterWrite := by
  unfold unregisterWrite
  split <;> exact ⟨rfl, rfl, rfl, rfl, rfl, rfl, rfl, rfl, rfl, rfl, rfl, rfl, id⟩

/-- A move to another place, with the pending requests and in a drain if it was in one. -/
theorem SameQueue.goes (h : SameQueue s s') (pc : Pc) (depth : ℕ)
    (hpending : { s' with pc, depth }.pending = s'.pending)
    (hdraining : { s' with pc, depth }.draining = s'.draining) (hclosed : pc ≠ .closed) :
    SameQueue s { s' with pc, depth } :=
  h.trans ⟨rfl, rfl, rfl, rfl, rfl, rfl, rfl, rfl, rfl, rfl, hpending, hdraining,
    fun h => absurd h hclosed⟩

theorem LoopyStream.pending_of_not_draining (h : s.draining = false) : s.pending = s.writeHead := by
  unfold draining at h
  unfold pending
  split <;> simp_all

theorem LoopyStream.connectFd_same (s : LoopyStream) (r : ConnectResult) (cb : Bool) :
    SameQueue s (s.connectFd r cb) := by
  unfold connectFd
  cases r with
  | error => exact .refl s
  | done => exact ⟨rfl, rfl, rfl, rfl, rfl, rfl, rfl, rfl, rfl, rfl, rfl, rfl, id⟩
  | inProgress =>
    dsimp only
    split <;> exact ⟨rfl, rfl, rfl, rfl, rfl, rfl, rfl, rfl, rfl, rfl, rfl, rfl, id⟩

theorem LoopyStream.connect_same (s : LoopyStream) (address : Address) (r : ConnectResult)
    (cb : Bool) : SameQueue s (s.connect address r cb) := by
  unfold connect
  split
  · exact .refl s
  · cases address with
    | ipv4 => exact s.connectFd_same r cb
    | invalid => exact .refl s
    | ipv6 fd nonBlock =>
      have hfd : SameQueue s { s with fd } :=
        ⟨rfl, rfl, rfl, rfl, rfl, rfl, rfl, rfl, rfl, rfl, rfl, rfl, id⟩
      dsimp only
      split
      · exact hfd
      · split
        · exact hfd
        · exact hfd.trans (connectFd_same _ r cb)

theorem LoopyStream.shutdown_same (s : LoopyStream) (ok cb : Bool) :
    SameQueue s (s.shutdown ok cb) := by
  unfold shutdown
  dsimp only
  repeat' split
  all_goals exact ⟨rfl, rfl, rfl, rfl, rfl, rfl, rfl, rfl, rfl, rfl, rfl, rfl, id⟩

/-- A move between places outside a drain. -/
theorem SameQueue.leaves (h : SameQueue s s') (hs' : s'.draining = false) (pc : Pc) (depth : ℕ)
    (hpc : { s' with pc, depth }.draining = false) (hclosed : pc ≠ .closed) :
    SameQueue s { s' with pc, depth } := by
  refine h.goes pc depth ?_ (hpc.trans hs'.symm) hclosed
  rw [LoopyStream.pending_of_not_draining hpc, LoopyStream.pending_of_not_draining hs']

namespace LoopyStream

theorem draining_update (s : LoopyStream) :
    s.updateWriteWatcher.draining = s.draining := by
  unfold updateWriteWatcher
  split <;> rfl

theorem draining_unregister (s : LoopyStream) :
    s.unregisterWrite.draining = s.draining := by
  unfold unregisterWrite
  split <;> rfl

/-- Outside a drain the watcher is updated and the stream goes on. -/
theorem update_leaves (hs : s.draining = false) (pc : Pc)
    (hpc : { s.updateWriteWatcher with pc }.draining = false) (hclosed : pc ≠ .closed) :
    SameQueue s { s.updateWriteWatcher with pc } :=
  s.updateWriteWatcher_same.leaves (s.draining_update.trans hs) pc _ hpc hclosed

theorem finishConnect_same (hpc : s.pc = .connectCheck) (ok : Bool) :
    SameQueue s (s.finishConnect ok) := by
  have hdraining : s.draining = false := by rw [draining, hpc]
  have hconnecting : SameQueue s { s with connecting := false } :=
    ⟨rfl, rfl, rfl, rfl, rfl, rfl, rfl, rfl, rfl, rfl, rfl, rfl, id⟩
  unfold finishConnect
  dsimp only
  cases ok with
  | false =>
    rw [if_neg Bool.false_ne_true]
    exact (hconnecting.trans (unregisterWrite_same _)).leaves
      ((draining_unregister _).trans hdraining) _ _ rfl nofun
  | true =>
    rw [if_pos rfl]
    have hconnected : SameQueue s { s with connecting := false, connected := true } :=
      ⟨rfl, rfl, rfl, rfl, rfl, rfl, rfl, rfl, rfl, rfl, rfl, rfl, id⟩
    refine ((hconnected.trans (unregisterWrite_same _)).trans
      (updateWriteWatcher_same _)).leaves ?_ _ _ rfl nofun
    exact ((draining_update _).trans (draining_unregister _)).trans hdraining

theorem finishWrite_same (hpc : s.pc = .writeLoop) : SameQueue s s.finishWrite := by
  have hdraining : s.draining = false := by rw [draining, hpc]
  unfold finishWrite
  split
  · have hshutdown : SameQueue s { s with writable := false, shutdownPending := false } :=
      ⟨rfl, rfl, rfl, rfl, rfl, rfl, rfl, rfl, rfl, rfl, rfl, rfl, id⟩
    dsimp only
    split
    · exact hshutdown.leaves hdraining _ _ rfl nofun
    · have hleaves : ({ s with writable := false, shutdownPending := false } :
          LoopyStream).draining = false := hdraining
      exact hshutdown.trans (update_leaves hleaves _ rfl nofun)
  · exact update_leaves hdraining _ rfl nofun

theorem dispatch_same (hpc : s.pc = .idle) (h : s.dispatch = some s') :
    SameQueue s s' := by
  have hdraining : s.draining = false := by rw [draining, hpc]
  unfold dispatch at h
  split at h
  · cases h
    refine (SameQueue.refl s).leaves hdraining _ _ ?_ ?_
    · unfold draining
      cases s.connecting <;> rfl
    · cases s.connecting <;> nofun
  · cases h
    exact (SameQueue.refl s).leaves hdraining _ _ rfl nofun
  · cases h

theorem callbackReturns_same (h : s.callbackReturns = some s') : SameQueue s s' := by
  unfold callbackReturns at h
  split at h
  · cases h
    exact ⟨rfl, rfl, rfl, rfl, rfl, rfl, rfl, rfl, rfl, rfl, rfl, rfl, id⟩
  · split at h
    · next hpc =>
      cases h
      exact (SameQueue.refl s).leaves (by rw [draining, hpc]) _ _ rfl nofun
    · next closing next hpc =>
      cases h
      refine (SameQueue.refl s).goes _ _ ?_ ?_ (by nofun)
      · show next = s.pending
        rw [pending, hpc]
      · show true = s.draining
        rw [draining, hpc]
    · next hpc =>
      cases h
      exact update_leaves (by rw [draining, hpc]) _ rfl nofun
    all_goals cases h

theorem close_effect (hpc : s.pc = .idle) (cb : Bool) :
    Effect s (.close cb) (s.close cb) := by
  unfold close
  split
  · exact .same (.refl s)
  · have hdraining : s.draining = false := by rw [draining, hpc]
    have hclosing : SameQueue s { s with closing := true, closeCb := cb, reading := false } :=
      ⟨rfl, rfl, rfl, rfl, rfl, rfl, rfl, rfl, rfl, rfl, rfl, rfl, id⟩
    have hunregistered := hclosing.trans (unregisterWrite_same _)
    exact .begins true rfl hdraining hunregistered

/-- A guard that does not refuse. -/
theorem accepts_guard (h : ¬ (s.fd = none ∨ s.writable = false ∨ s.closing = true)) :
    (s.fd.isSome && s.writable && !s.closing) = true := by
  rw [not_or, not_or] at h
  rw [Option.isSome_iff_ne_none.mpr h.1, Bool.of_not_eq_false h.2.1, Bool.of_not_eq_true h.2.2]
  rfl

theorem closing_of_guard (h : ¬ (s.fd = none ∨ s.writable = false ∨ s.closing = true)) :
    s.closing = false := by
  rw [not_or, not_or] at h
  exact Bool.of_not_eq_true h.2.2

/-- A write that is accepted appends its request, one that is refused changes nothing. -/
theorem write_effect (huser : s.user = true) (data : List UInt8) (cb alloc : Bool) :
    Effect s (.write data cb alloc) (s.write data cb alloc) := by
  unfold write
  split
  · exact .same (.refl s)
  · next hdata =>
    split
    · exact .same (.refl s)
    · next hguard =>
      split
      · exact .same (.refl s)
      · next halloc =>
        have hclosing : s.closing = false := closing_of_guard hguard
        refine .enqueues data [] cb huser ?_ hclosing hdata (fun h => absurd rfl h)
          (updateWriteWatcher_same _)
        rw [accepts, accepts_guard hguard, decide_eq_true hdata, Bool.of_not_eq_false halloc]
        rfl

theorem writeWithFd_effect (huser : s.user = true) (data : List UInt8) (fds : List ℕ)
    (cb alloc : Bool) :
    Effect s (.writeWithFd data fds cb alloc) (s.writeWithFd data fds cb alloc) := by
  unfold writeWithFd
  split
  · exact .same (.refl s)
  · next hdata =>
    rw [not_or] at hdata
    split
    · exact .same (.refl s)
    · next htype =>
      split
      · exact .same (.refl s)
      · next hlength =>
        split
        · exact .same (.refl s)
        · next hguard =>
          split
          · exact .same (.refl s)
          · next halloc =>
            have hclosing : s.closing = false := closing_of_guard hguard
            refine .enqueues data fds cb huser ?_ hclosing hdata.1 (fun _ => not_not.mp htype)
              (updateWriteWatcher_same _)
            rw [accepts, accepts_guard hguard, decide_eq_true hdata.1, decide_eq_true hdata.2,
              decide_eq_true (not_not.mp htype), decide_eq_true (Nat.not_lt.mp hlength),
              Bool.of_not_eq_false halloc]
            rfl

theorem tryWrite_effect (huser : s.user = true) {data : List UInt8} {r : KernelResult}
    (h : s.tryWrite data r = some s') : Effect s (.tryWrite data r) s' := by
  unfold tryWrite at h
  split at h
  · cases h
    exact .same (.refl s)
  · split at h
    · cases h
      exact .same (.refl s)
    · split at h
      · cases h
        exact .same (.refl s)
      · next hempty =>
        split at h
        · split at h
          · cases h
            exact .tries _ huser (not_not.mp hempty) (.refl _)
          · cases h
        · cases h
          exact .same (.refl s)
        · cases h
          exact .same (.refl s)

/-- What the kernel takes of the request at the head may be the rest of it. -/
theorem kernelWrite_effect {n bytes : ℕ} {a : Action} (hpc : s.pc = .writeLoop)
    (hhead : s.writeHead = some n) (h : s.kernelWrite n (.took bytes) = some s') :
    Effect s a s' := by
  obtain ⟨hbytes, h⟩ := Option.ite_none_right_eq_some.mp h
  rw [← LoopyWriteReq.length_unwritten] at hbytes
  split at h
  · next hrest =>
    -- the link of the head is read after its bytes are counted
    have hnext : (s.tookBytes n bytes).req n = _ := Function.update_self ..
    cases h
    convert Effect.completes n bytes hpc hhead hbytes hrest using 1
    simp only [completeHead, next, hnext]
    rfl
  · next hrest =>
    cases h
    exact .takes n bytes hpc hhead hbytes (Nat.lt_of_not_le hrest)

end LoopyStream

theorem step_effect {a : Action} (hstep : step s a = some s') : Effect s a s' := by
  cases stepped hstep with
  | write data cb alloc huser => exact LoopyStream.write_effect huser data cb alloc
  | writeWithFd data fds cb alloc huser =>
    exact LoopyStream.writeWithFd_effect huser data fds cb alloc
  | tryWrite data r huser h => exact LoopyStream.tryWrite_effect huser h
  | connect address r cb => exact .same (s.connect_same address r cb)
  | shutdown ok cb => exact .same (s.shutdown_same ok cb)
  | readStart | readStop | endOfFile =>
    exact .same ⟨rfl, rfl, rfl, rfl, rfl, rfl, rfl, rfl, rfl, rfl, rfl, rfl, id⟩
  | close cb hquiet => exact LoopyStream.close_effect hquiet.1 cb
  | writable hquiet h => exact .same (LoopyStream.dispatch_same hquiet.1 h)
  | getsockopt ok hpc => exact .same (LoopyStream.finishConnect_same hpc ok)
  | kernel r n hpc hhead h =>
    have hdraining : s.draining = false := by rw [LoopyStream.draining, hpc]
    cases r with
    | took bytes => exact LoopyStream.kernelWrite_effect hpc hhead h
    | again =>
      cases h
      exact .same ((SameQueue.refl s).leaves hdraining _ _ rfl nofun)
    | error =>
      cases h
      exact .begins false rfl hdraining (.refl s)
  | finishWrite hpc hhead => exact .same (LoopyStream.finishWrite_same hpc)
  | drainStep closing req hpc =>
    cases req with
    | some n => exact .drains closing n hpc
    | none => exact .ends closing hpc
  | ret h => exact .same (LoopyStream.callbackReturns_same h)

end Loopy.Stream
