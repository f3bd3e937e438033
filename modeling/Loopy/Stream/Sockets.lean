import Loopy.Stream.Connects
import Loopy.Stream.Watcher

/-!
# `loopyStream.c`: the sockets of a stream

`loopyStreamBind6` and `loopyStreamConnect` to an IPv6 address close the socket of the stream and
open another one. Neither looks at the table of the event loop, so a socket that is registered is
closed under its registrations, and the new socket has none of them. `loopyStreamClose` unregisters
the socket first, but it is closed behind the callbacks of the queue, which may register it again.
A run is `Orderly` if no socket is replaced while it is registered, and if the callbacks of
`loopyStreamClose` register nothing.

What the event loop registers is an input: it may refuse. `owned` is a record of the descriptors
that the stream has opened, or been given, and not closed.
-/

namespace Loopy.Stream

open Loopy.Lib

/-! ## Read registrations and sockets -/

/-- What the event loop calls when the fd is readable. -/
inductive ReadHandler
  | streamReadCallback
  | streamListenCallback
deriving DecidableEq, Repr

/-- A descriptor is closed: whether it is registered at that moment. -/
structure Closing where
  read : Bool
  write : Bool
deriving DecidableEq, Repr

/-- A call that replaces the socket returns true: whether the stream reads and has writes queued,
and whether the new socket is registered. -/
structure Replacement where
  reading : Bool
  queued : Bool
  read : Bool
  write : Bool
deriving DecidableEq, Repr

/-- A stream, the read side of the table of the event loop, and the record. -/
structure Sockets where
  stream : LoopyStream
  listening : Bool
  read : ℕ → Option ReadHandler
  owned : List ℕ
  closings : List Closing
  replacements : List Replacement

namespace Sockets

/-- A new stream. -/
def new (stream : LoopyStream) : Sockets :=
  { stream
    listening := false
    read := fun _ => none
    owned := stream.fd.toList
    closings := []
    replacements := [] }

/-- The fd is registered for read. -/
def registeredRead (s : Sockets) : Bool := (s.stream.fd.bind s.read).isSome

/-- `loopyRegisterRead(stream->loop, stream->fd, handler, stream)`. -/
def registerRead (s : Sockets) (handler : ReadHandler) (registers : Bool) : Sockets :=
  match s.stream.fd with
  | none => s
  | some fd =>
    if registers then { s with read := Function.update s.read fd (some handler) } else s

/-- `loopyUnregisterRead(stream->loop, stream->fd)`. -/
def unregisterRead (s : Sockets) : Sockets :=
  match s.stream.fd with
  | none => s
  | some fd => { s with read := Function.update s.read fd none }

/-- `close(stream->fd)`, if there is an fd. -/
def closeFd (s : Sockets) : Sockets :=
  match s.stream.fd with
  | none => s
  | some fd =>
    { s with
      owned := s.owned.erase fd
      closings := s.closings ++ [{ read := s.registeredRead, write := s.stream.registered }] }

/-- The stream has another socket, or none. -/
def opened (s : Sockets) (stream : LoopyStream) : Sockets :=
  { s with stream, owned := stream.fd.toList ++ s.owned }

/-- `loopyStreamBind`; `valid` is what `inet_pton` makes of the address, and `bound` what `bind`
answers. -/
def bind (s : Sockets) (valid bound : Bool) : Bool × Sockets :=
  if s.stream.type ≠ .tcp ∨ s.stream.fd = none then (false, s)
  else if valid = false then (false, s)
  else if bound = false then (false, s)
  else (true, s)

/-- `loopyStreamBind6`; `socket` is the new socket, and `nonBlock` whether it could be made
non-blocking. -/
def bind6 (s : Sockets) (socket : Option ℕ) (nonBlock valid bound : Bool) :
    Bool × Sockets :=
  if s.stream.type ≠ .tcp then (false, s)
  else
    -- the old fd is closed, but not unregistered
    let s := s.closeFd.opened { s.stream with fd := socket }
    if socket = none then (false, s)
    else if nonBlock = false then (false, s)
    else if valid = false then (false, s)
    else if bound = false then (false, s)
    else (true, s)

/-- `loopyStreamListen`; `ok` is what `listen` answers. -/
def listen (s : Sockets) (ok cb registers : Bool) : Bool × Sockets :=
  if s.stream.type ≠ .tcp ∨ s.stream.fd = none ∨ cb = false then (false, s)
  else if ok = false then (false, s)
  else (true, { s with listening := true }.registerRead .streamListenCallback registers)

/-- A call of `s` that replaces the socket returns true. -/
def replaced (s s' : Sockets) : Sockets :=
  { s' with
    replacements := s'.replacements ++
      [{ reading := s.stream.reading
         queued := s.stream.writeHead.isSome
         read := s'.registeredRead
         write := s'.stream.registered }] }

end Sockets

/-! ## The machine -/

/-- The event loop refuses what an action registers; `streamConnectCallback` has unregistered the
fd before. -/
def LoopyStream.refused (s stream : LoopyStream) (a : Action) : LoopyStream :=
  let watch :=
    match a with
    | .getsockopt _ => s.unregisterWrite.watch
    | _ => s.watch
  { stream with watch := fun fd => if (stream.watch fd).isSome then watch fd else none }

/-- What an action of the stream is for its sockets. -/
def Sockets.after (s : Sockets) (registers : Bool) (stream : LoopyStream) : Action → Sockets
  | .connect address r _ =>
    if s.stream.replaces address then
      let s' := s.closeFd.opened stream
      if s.stream.connects address && decide (r ≠ .error) then s.replaced s' else s'
    else { s with stream }
  | .readStart =>
    if s.stream.readable then
      { s.registerRead .streamReadCallback registers with stream }
    else { s with stream }
  | .readStop =>
    if s.stream.reading && !s.listening then { s.unregisterRead with stream }
    else { s with stream }
  | .close _ => if s.stream.closing then { s with stream } else { s.unregisterRead with stream }
  | .run =>
    if s.stream.pc = .drain true none then { s.closeFd with stream } else { s with stream }
  | _ => { s with stream }

/-- The calls of user code, and the actions of the stream. -/
inductive SocketAction
  | bind (valid bound : Bool)
  | bind6 (socket : Option ℕ) (nonBlock valid bound : Bool)
  | listen (ok cb registers : Bool)
  | act (a : Action) (registers : Bool)
deriving DecidableEq, Repr

/-- One action. -/
def Sockets.step (s : Sockets) : SocketAction → Option Sockets
  | .bind valid bound => if s.stream.user then some (s.bind valid bound).2 else none
  | .bind6 socket nonBlock valid bound =>
    if s.stream.user then
      match s.bind6 socket nonBlock valid bound with
      | (true, s') => some (s.replaced s')
      | (false, s') => some s'
    else none
  | .listen ok cb registers => if s.stream.user then some (s.listen ok cb registers).2 else none
  | .act a registers =>
    (tailStep s.stream a).map fun stream =>
      s.after registers (if registers then stream else s.stream.refused stream a) a

/-- No registered descriptor is closed, the socket that replaces another one is registered for what
the stream waits for, and the fd is open. -/
structure SocketLaw (s : Sockets) : Prop where
  closings : ∀ c ∈ s.closings, c.read = false ∧ c.write = false
  replacements : ∀ r ∈ s.replacements,
    (r.reading = true → r.read = true) ∧ (r.queued = true → r.write = true)
  owned : ∀ fd, s.stream.fd = some fd → fd ∈ s.owned

/-- The socket can be replaced: the stream neither reads nor listens, and the event loop does not
wait for it to become writable. `loopyStreamClose` has unregistered a stream that listens. -/
def Sockets.Loose (s : Sockets) : Prop :=
  s.stream.reading = false ∧ (s.listening = true → s.stream.closing = true) ∧
    s.stream.registered = false

instance (s : Sockets) : Decidable s.Loose := inferInstanceAs (Decidable (_ ∧ _ ∧ _))

/-- Only a loose socket is replaced, with writes queued only by a connect that waits and is
registered; and the callbacks of `loopyStreamClose` register nothing. -/
def Orderly (s : Sockets) : SocketAction → Prop
  | .bind6 socket nonBlock valid bound =>
    s.stream.type = .tcp → s.Loose ∧
      (socket ≠ none → nonBlock = true → valid = true → bound = true → s.stream.writeHead = none)
  | .listen ok cb registers =>
    s.stream.closing = true → ok = true → cb = true → registers = true →
      s.stream.type = .tcp → s.stream.fd = none
  | .act (.connect address r _) registers =>
    (s.stream.replaces address = true → s.Loose ∧
      (s.stream.connects address = true → r ≠ .error → s.stream.writeHead ≠ none →
        r = .inProgress ∧ registers = true)) ∧
    (s.stream.closing = true → registers = true → s.stream.connects address = true →
      r ≠ .inProgress)
  | .act .readStart registers =>
    s.stream.closing = true → registers = true → s.stream.readable = true → s.stream.fd = none
  | _ => True

instance : ∀ s a, Decidable (Orderly s a)
  | _, .bind6 .. => inferInstanceAs (Decidable (_ → _))
  | _, .listen .. => inferInstanceAs (Decidable (_ → _))
  | _, .act (.connect ..) _ => inferInstanceAs (Decidable (_ ∧ _))
  | _, .act .readStart _ => inferInstanceAs (Decidable (_ → _))
  | _, .bind .. => isTrue trivial
  | _, .act (.write ..) _ | _, .act (.writeWithFd ..) _ | _, .act (.tryWrite ..) _
  | _, .act (.shutdown ..) _ | _, .act .readStop _ | _, .act (.close _) _ | _, .act .writable _
  | _, .act .endOfFile _ | _, .act (.getsockopt _) _ | _, .act (.kernel _) _ | _, .act .run _
  | _, .act .ret _ => isTrue trivial

/-! ## What the functions of the stream do to its socket -/

/-- The socket is the same, and only its own entry in the table may change, and only while the
stream is not being closed. -/
structure SameSocket (s s' : LoopyStream) : Prop where
  fd : s'.fd = s.fd
  reading : s'.reading = s.reading
  watch : s'.watch = s.watch ∨
    (s.closing = false ∨ s.pc.closes = false) ∧ ∀ n, s.fd ≠ some n → s'.watch n = s.watch n

section frame

variable {s s' : LoopyStream}

theorem SameSocket.of_eq (hfd : s'.fd = s.fd) (hreading : s'.reading = s.reading)
    (hwatch : s'.watch = s.watch) : SameSocket s s' := ⟨hfd, hreading, .inl hwatch⟩

theorem LoopyStream.updateWriteWatcher_reading (s : LoopyStream) :
    s.updateWriteWatcher.reading = s.reading := by
  unfold updateWriteWatcher
  split <;> rfl

/-- The watcher is updated behind something that leaves the socket alone. -/
theorem SameSocket.update (h : SameSocket s s') (hopen : s.closing = false ∨ s.pc.closes = false)
    (pc : Pc) : SameSocket s { s'.updateWriteWatcher with pc } where
  fd := LoopyStream.update_fd.trans h.fd
  reading := s'.updateWriteWatcher_reading.trans h.reading
  watch := by
    refine .inr ⟨hopen, fun n hn => ?_⟩
    have hn' : s'.fd ≠ some n := fun hs => hn (h.fd.symm.trans hs)
    refine (LoopyStream.update_watch hn').trans ?_
    rcases h.watch with heq | ⟨-, hothers⟩
    · rw [heq]
    · exact hothers n hn

namespace LoopyStream

theorem enqueue_socket (s : LoopyStream) (data : List UInt8) (fds : List ℕ)
    (cb : Bool) : SameSocket s (s.enqueue data fds cb) := by
  unfold enqueue setReq
  dsimp only
  split <;> exact .of_eq rfl rfl rfl

theorem queued_socket (hclosing : s.closing = false) (data : List UInt8)
    (fds : List ℕ) (cb : Bool) : SameSocket s (s.enqueue data fds cb).updateWriteWatcher := by
  obtain ⟨hfd, hreading, hwatch⟩ := (s.enqueue_socket data fds cb).update (.inl hclosing) .idle
  exact ⟨hfd, hreading, hwatch⟩

theorem write_socket (s : LoopyStream) (data : List UInt8) (cb alloc : Bool) :
    SameSocket s (s.write data cb alloc) := by
  unfold write
  split
  · exact .of_eq rfl rfl rfl
  · split
    · exact .of_eq rfl rfl rfl
    · next hguard =>
      split
      · exact .of_eq rfl rfl rfl
      · exact queued_socket (closing_of_guard hguard) ..

theorem writeWithFd_socket (s : LoopyStream) (data : List UInt8) (fds : List ℕ)
    (cb alloc : Bool) : SameSocket s (s.writeWithFd data fds cb alloc) := by
  unfold writeWithFd
  split
  · exact .of_eq rfl rfl rfl
  · split
    · exact .of_eq rfl rfl rfl
    · split
      · exact .of_eq rfl rfl rfl
      · split
        · exact .of_eq rfl rfl rfl
        · next hguard =>
          split
          · exact .of_eq rfl rfl rfl
          · exact queued_socket (closing_of_guard hguard) ..

variable {r : KernelResult}

theorem tryWrite_socket {data : List UInt8} (h : s.tryWrite data r = some s') :
    SameSocket s s' := by
  unfold tryWrite at h
  repeat' split at h
  all_goals cases h
  all_goals exact .of_eq rfl rfl rfl

theorem shutdown_socket (s : LoopyStream) (ok cb : Bool) :
    SameSocket s (s.shutdown ok cb) := by
  unfold shutdown
  dsimp only
  repeat' split
  all_goals exact .of_eq rfl rfl rfl

theorem dispatch_socket (h : s.dispatch = some s') : SameSocket s s' := by
  unfold dispatch at h
  split at h
  all_goals cases h
  all_goals exact .of_eq rfl rfl rfl

theorem kernelWrite_socket {n : ℕ} (h : s.kernelWrite n r = some s') : SameSocket s s' := by
  unfold kernelWrite setReq at h
  dsimp only at h
  repeat' split at h
  all_goals cases h
  all_goals exact .of_eq rfl rfl rfl

theorem finishWrite_socket (hpc : s.pc = .writeLoop) : SameSocket s s.finishWrite := by
  have hopen : s.closing = false ∨ s.pc.closes = false := .inr (by rw [hpc]; rfl)
  have hended : SameSocket s { s with writable := false, shutdownPending := false } :=
    .of_eq rfl rfl rfl
  unfold finishWrite
  dsimp only
  split
  · split
    · exact .of_eq rfl rfl rfl
    · exact hended.update hopen .idle
  · exact SameSocket.update (.of_eq rfl rfl rfl) hopen .idle

theorem drainStep_socket {closing : Bool} {req : Option ℕ}
    (hpc : s.pc = .drain closing req) (hmore : s.pc ≠ .drain true none) :
    SameSocket s (s.drainStep closing req) := by
  unfold drainStep
  dsimp only
  split
  · exact .of_eq rfl rfl rfl
  · cases closing with
    | true => exact absurd hpc hmore
    | false =>
      rw [if_neg Bool.false_ne_true]
      have hempty : SameSocket s
          { s with
            writeHead := none
            writeTail := none
            writeQueueSize := 0
            writeQueueCount := 0 } := .of_eq rfl rfl rfl
      exact hempty.update (.inr (by rw [hpc]; rfl)) .idle

theorem callbackReturns_socket (h : s.callbackReturns = some s') :
    SameSocket s s' := by
  unfold callbackReturns at h
  split at h
  · cases h
    exact .of_eq rfl rfl rfl
  · split at h
    · cases h
      exact .of_eq rfl rfl rfl
    · cases h
      exact .of_eq rfl rfl rfl
    · next hpc =>
      cases h
      exact SameSocket.update (.of_eq rfl rfl rfl) (.inr (by rw [hpc]; rfl)) .idle
    all_goals cases h

theorem unregister_socket (h : SameSocket s s')
    (hopen : s.closing = false ∨ s.pc.closes = false) : SameSocket s s'.unregisterWrite where
  fd := unregister_fd.trans h.fd
  reading := by
    refine Eq.trans ?_ h.reading
    unfold unregisterWrite
    split <;> rfl
  watch := by
    refine .inr ⟨hopen, fun n hn => ?_⟩
    have hn' : s'.fd ≠ some n := fun hs => hn (h.fd.symm.trans hs)
    refine (unregister_watch hn').trans ?_
    rcases h.watch with heq | ⟨-, hothers⟩
    · rw [heq]
    · exact hothers n hn

theorem finishConnect_socket (hpc : s.pc = .connectCheck) (ok : Bool) :
    SameSocket s (s.finishConnect ok) := by
  have hopen : s.closing = false ∨ s.pc.closes = false := .inr (by rw [hpc]; rfl)
  have hcleared : SameSocket s { s with connecting := false } := .of_eq rfl rfl rfl
  unfold finishConnect
  dsimp only
  cases ok with
  | true =>
    have hconnected : SameSocket s { s with connecting := false, connected := true } :=
      .of_eq rfl rfl rfl
    obtain ⟨hfd, hreading, hwatch⟩ := (unregister_socket hconnected hopen).update hopen .idle
    exact ⟨hfd, hreading, hwatch⟩
  | false =>
    obtain ⟨hfd, hreading, hwatch⟩ := unregister_socket hcleared hopen
    exact ⟨hfd, hreading, hwatch⟩

end LoopyStream

/-! ## What a connect does to the socket -/

/-- The new socket of an address. -/
def Address.socket : Address → Option ℕ
  | .ipv6 fd _ => fd
  | .ipv4 | .invalid => none

namespace LoopyStream

/-- The socket on which `connect` is called. -/
def onSocket (s : LoopyStream) (address : Address) : LoopyStream :=
  if s.replaces address then { s with fd := address.socket } else s

theorem connect_eq (s : LoopyStream) (address : Address) (r : ConnectResult)
    (cb : Bool) :
    s.connect address r cb =
      if s.connects address then (s.onSocket address).connectFd r cb else s.onSocket address := by
  unfold connect onSocket
  by_cases hguard : s.type ≠ .tcp ∨ s.fd = none
  · rw [if_pos hguard]
    cases address <;> rcases hguard with h | h <;> simp [connects, replaces, h]
  · rw [if_neg hguard]
    rw [not_or, not_not] at hguard
    obtain ⟨htcp, hfd⟩ := hguard
    have hsome : s.fd.isSome = true := Option.isSome_iff_ne_none.mpr hfd
    cases address with
    | ipv4 => simp [connects, replaces, htcp, hsome]
    | ipv6 fd nonBlock =>
      cases fd with
      | none => simp [connects, replaces, Address.socket, htcp, hsome]
      | some fd => cases nonBlock <;> simp [connects, replaces, Address.socket, htcp, hsome]
    | invalid => simp [connects, replaces]

variable {address : Address} {r : ConnectResult}

theorem onSocket_fd_of_connects (h : s.connects address = true) :
    (s.onSocket address).fd ≠ none := by
  unfold onSocket
  cases address with
  | ipv4 =>
    simp only [connects, Bool.and_eq_true] at h
    exact Option.isSome_iff_ne_none.mp h.2
  | ipv6 fd nonBlock =>
    simp only [connects, Bool.and_eq_true] at h
    have hreplaces : s.replaces (.ipv6 fd nonBlock) = true := by
      rw [replaces, h.1.1.1, h.1.1.2]
      rfl
    rw [if_pos hreplaces]
    exact Option.isSome_iff_ne_none.mp h.1.2
  | invalid => cases h

/-- `connect` leaves the socket alone; if it is in progress the fd is registered. -/
theorem connectFd_socket (s : LoopyStream) (r : ConnectResult) (cb : Bool) :
    (s.connectFd r cb).fd = s.fd ∧ (s.connectFd r cb).reading = s.reading ∧
    (∀ n, s.fd ≠ some n → (s.connectFd r cb).watch n = s.watch n) ∧
    (r ≠ .inProgress → (s.connectFd r cb).watch = s.watch) ∧
    (s.fd ≠ none → r = .inProgress → (s.connectFd r cb).registered = true) := by
  unfold connectFd
  cases r with
  | done | error => exact ⟨rfl, rfl, fun _ _ => rfl, fun _ => rfl, fun _ h => nomatch h⟩
  | inProgress =>
    dsimp only
    split
    · next hfd => exact ⟨rfl, rfl, fun _ _ => rfl, fun h => absurd rfl h, fun h => absurd hfd h⟩
    · next fd hfd =>
      refine ⟨rfl, rfl, fun n hn => ?_, fun h => absurd rfl h, fun _ _ => ?_⟩
      · exact Function.update_of_ne (fun h => hn (hfd.trans (congrArg some h.symm))) ..
      · have hfd' : s.fd = some fd := hfd
        rw [registered]
        dsimp only
        rw [hfd', Option.bind_some, Function.update_self]
        rfl

theorem onSocket_same (s : LoopyStream) (address : Address) :
    (s.onSocket address).reading = s.reading ∧ (s.onSocket address).watch = s.watch := by
  unfold onSocket
  split <;> exact ⟨rfl, rfl⟩

theorem connect_fd (s : LoopyStream) (address : Address) (r : ConnectResult)
    (cb : Bool) : (s.connect address r cb).fd = (s.onSocket address).fd := by
  rw [connect_eq]
  split
  · exact (connectFd_socket ..).1
  · rfl

theorem connect_reading (s : LoopyStream) (address : Address) (r : ConnectResult)
    (cb : Bool) : (s.connect address r cb).reading = s.reading := by
  rw [connect_eq]
  split
  · exact (connectFd_socket ..).2.1.trans (s.onSocket_same address).1
  · exact (s.onSocket_same address).1

theorem connect_watch {cb : Bool} {n : ℕ} (hn : (s.connect address r cb).fd ≠ some n) :
    (s.connect address r cb).watch n = s.watch n := by
  rw [connect_fd] at hn
  rw [connect_eq]
  split
  · exact ((connectFd_socket ..).2.2.1 n hn).trans (congrFun (s.onSocket_same address).2 n)
  · exact congrFun (s.onSocket_same address).2 n

/-- Only a connect in progress is registered. -/
theorem connect_unwatched (cb : Bool) (h : s.connects address = true → r ≠ .inProgress) :
    (s.connect address r cb).watch = s.watch := by
  rw [connect_eq]
  split
  · next hconnects =>
    exact ((connectFd_socket ..).2.2.2.1 (h hconnects)).trans (s.onSocket_same address).2
  · exact (s.onSocket_same address).2

theorem connect_registered (h : s.connects address = true) (cb : Bool) :
    (s.connect address .inProgress cb).registered = true := by
  rw [connect_eq, if_pos h]
  exact (connectFd_socket ..).2.2.2.2 (onSocket_fd_of_connects h) rfl

end LoopyStream

end frame

end Loopy.Stream
