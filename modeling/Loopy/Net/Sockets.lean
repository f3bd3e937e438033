import Loopy.Lib.Loops

/-!
# `loopyNet.c`: TCP sockets

`loopyNetTcpGenericConnect` and `_loopyNetTcpServer`. What the system calls answer for an address is
part of the address (`Addrinfo`), and what `getaddrinfo` answers is a `Resolved`.

* A system call that fails sets `errno`; one that succeeds leaves it, but for `socket` and
  `getaddrinfo` it may be any value.
* `close` releases a socket also if it reports an error, as it does on Linux; of a socket that is not
  open it fails.
* Sockets are numbered in the order in which they are opened. `l->sock` may also be a descriptor
  of the caller, or a number that is none.

The error texts and the ports are left out, and so is `SO_NOSIGPIPE`, which is not set here.
-/

namespace Loopy.Net

open Loopy.Lib

/-! ## Data -/

inductive Errno
  | EAFNOSUPPORT
  | EINPROGRESS
  | other (n : ℕ)
deriving DecidableEq, Repr

/-- What a system call answers. -/
inductive Answer
  | ok
  | error (errno : Errno)
deriving DecidableEq, Repr

/-- A `struct addrinfo`, with what the system calls for it answer. -/
structure Addrinfo where
  ai_addr : ℕ
  socket : Answer
  /-- What a successful `socket` leaves in `errno`; `none` is what was there. -/
  socketErrno : Option Errno
  v6only : Answer
  reuseaddr : Answer
  getfl : Answer
  setfl : Answer
  reuseport : Answer
  loadBalance : Answer
  /-- `bind` to the addresses of the list of bind addresses; a server has one address. -/
  bind : ℕ → Answer
  connect : Answer
  listen : Answer
  close : Answer

/-- An address for which every call succeeds. -/
def Addrinfo.good (ai_addr : ℕ) : Addrinfo where
  ai_addr := ai_addr
  socket := .ok
  socketErrno := none
  v6only := .ok
  reuseaddr := .ok
  getfl := .ok
  setfl := .ok
  reuseport := .ok
  loadBalance := .ok
  bind := fun _ => .ok
  connect := .ok
  listen := .ok
  close := .ok

/-- What `getaddrinfo` answers: the addresses, and how many bind addresses there are; `none` is an
error. -/
structure Resolved where
  servinfo : Option (List Addrinfo)
  bservinfo : Option ℕ
  errno : Option Errno
  /-- What the `close` at the end of the function answers. -/
  close : Answer

/-- What a socket has been made into. -/
inductive SocketState
  | new
  | inProgress
  | connected
  | listening
deriving DecidableEq, Repr

/-- A socket that is open. -/
structure Socket where
  ai_addr : ℕ
  state : SocketState
deriving DecidableEq, Repr

/-- `l->sock`. -/
inductive Sock
  /-- `LN_SOCK_CLOSED`. -/
  | closed
  /-- What the caller has put there. -/
  | caller
  | own (n : ℕ)
deriving DecidableEq, Repr

/-- `loopyNet`, with `errno` and the sockets that are open. -/
structure LoopyNet where
  sock : Sock
  SERVER_REUSEPORT : Bool
  SERVER_L4_LOAD_BALANCE : Bool
  errno : Errno
  sockets : ℕ → Option Socket
  count : ℕ

/-- `loopyNetConnectFlag`. -/
structure ConnectFlags where
  NONBLOCK : Bool
  BEST_EFFORT_BIND : Bool
deriving DecidableEq, Repr

/-- How an attempt with an address ends the loop. -/
inductive Exit
  /-- `goto error` or `break`. -/
  | error
  /-- `goto end`, or a server that listens. -/
  | done
deriving DecidableEq, Repr

/-- A `loopyNet` whose socket is closed. -/
def LoopyNet.new : LoopyNet where
  sock := .closed
  SERVER_REUSEPORT := false
  SERVER_L4_LOAD_BALANCE := false
  errno := .other 0
  sockets := fun _ => none
  count := 0

namespace LoopyNet

/-! ## The helpers -/

/-- A system call without other effects. -/
def sysCall (l : LoopyNet) : Answer → Bool × LoopyNet
  | .ok => (true, l)
  | .error errno => (false, { l with errno := errno })

/-- The socket in `l->sock` has another state. -/
def setState (l : LoopyNet) (state : SocketState) : LoopyNet :=
  match l.sock with
  | .own n =>
    let socket := (l.sockets n).map fun s => { s with state := state }
    { l with sockets := Function.update l.sockets n socket }
  | _ => l

/-- `loopyNetSocketClose`, if `close` answers `close` for a descriptor that is open. -/
def loopyNetSocketClose (l : LoopyNet) (close : Answer) : LoopyNet :=
  match l.sock with
  | .closed => l
  | .caller =>
    match close with
    | .ok => { l with sock := .closed }
    | .error errno => { l with errno := errno }
  | .own n =>
    match l.sockets n with
    | none => { l with errno := .other 9 }
    | some _ =>
      let l := { l with sockets := Function.update l.sockets n none }
      match close with
      | .ok => { l with sock := .closed }
      | .error errno => { l with errno := errno }

/-- `socket`: the descriptor, or `none` for -1. -/
def socket (l : LoopyNet) (ai : Addrinfo) : Option ℕ × LoopyNet :=
  match ai.socket with
  | .ok =>
    (some l.count, { l with
      errno := ai.socketErrno.getD l.errno
      sockets := Function.update l.sockets l.count (some ⟨ai.ai_addr, .new⟩)
      count := l.count + 1 })
  | .error errno => (none, { l with errno := errno })

/-- `loopyNetSocketNewFromAddrinfo`. -/
def loopyNetSocketNewFromAddrinfo (l : LoopyNet) (ai : Addrinfo) : Bool × LoopyNet :=
  let (sock, l) := l.socket ai
  -- `errno` is read whether or not `socket` has failed
  if l.errno = .EAFNOSUPPORT then (false, l)
  else
    match sock with
    | none => (false, l)
    | some n => (true, { l with sock := .own n })

/-- `loopyNetSetReuseAddr`. -/
def loopyNetSetReuseAddr (l : LoopyNet) (ai : Addrinfo) : Bool × LoopyNet := l.sysCall ai.reuseaddr

/-- `loopyNetNonBlockEnable`. -/
def loopyNetNonBlockEnable (l : LoopyNet) (ai : Addrinfo) : Bool × LoopyNet :=
  match l.sysCall ai.getfl with
  | (false, l) => (false, l)
  | (true, l) => l.sysCall ai.setfl

/-- `loopyNetV6Only`. -/
def loopyNetV6Only (l : LoopyNet) (ai : Addrinfo) : Bool × LoopyNet := l.sysCall ai.v6only

/-- `loopyNetSetReusePort`. -/
def loopyNetSetReusePort (l : LoopyNet) (reuseport : Answer) : Bool × LoopyNet :=
  l.sysCall reuseport

/-- `loopyNetL4LoadBalanceEnable`, where the kernel has a load balancer. -/
def loopyNetL4LoadBalanceEnable (l : LoopyNet) (ai : Addrinfo) : Bool × LoopyNet :=
  l.loopyNetSetReusePort ai.loadBalance

/-! ## Connecting -/

/-- The loop over the bind addresses. -/
def bindAny (l : LoopyNet) (bind : ℕ → Answer) : List ℕ → Bool × LoopyNet
  | [] => (false, l)
  | b :: bs =>
    match l.sysCall (bind b) with
    | (true, l) => (true, l)
    | (false, l) => bindAny l bind bs

/-- The call of `bind`, if there is a list of bind addresses. -/
def bindTo (l : LoopyNet) (ai : Addrinfo) (bservinfo : ℕ) : Bool × LoopyNet :=
  if bservinfo = 0 then (true, l) else l.bindAny ai.bind (List.range bservinfo)

/-- The body of the loop of `loopyNetTcpGenericConnect`; `bservinfo` counts the bind addresses. -/
def connectTo (flags : ConnectFlags) (bservinfo : ℕ) (l : LoopyNet) (ai : Addrinfo) :
    Option Exit × LoopyNet :=
  match l.loopyNetSocketNewFromAddrinfo ai with
  | (false, l) => (none, l)
  | (true, l) =>
    match l.loopyNetSetReuseAddr ai with
    | (false, l) => (some .error, l)
    | (true, l) =>
      match if flags.NONBLOCK then l.loopyNetNonBlockEnable ai else (true, l) with
      | (false, l) => (some .error, l)
      | (true, l) =>
        match l.bindTo ai bservinfo with
        | (false, l) => (some .error, l)
        | (true, l) =>
          match l.sysCall ai.connect with
          | (true, l) => (some .done, l.setState .connected)
          | (false, l) =>
            if l.errno = .EINPROGRESS ∧ flags.NONBLOCK = true then
              (some .done, l.setState .inProgress)
            else (none, l.loopyNetSocketClose ai.close)

/-- `loopyNetTcpGenericConnect` up to the label `end`; `false` is an early return. -/
def tryConnect (flags : ConnectFlags) (bindAddr : Bool) (l : LoopyNet) (resolved : Resolved) :
    Bool × LoopyNet :=
  let l := { l with errno := resolved.errno.getD l.errno }
  match resolved.servinfo with
  | none => (false, l)
  | some servinfo =>
    match if bindAddr then resolved.bservinfo else some 0 with
    | none => (false, l)
    | some bservinfo =>
      match tryEach (connectTo flags bservinfo) l servinfo with
      | (some .done, l) => (true, l)
      | (_, l) => (true, l.loopyNetSocketClose resolved.close)

/-- `loopyNetTcpGenericConnect` with a bind address or without; `again` is what `getaddrinfo`
answers to the second call of the function. -/
def loopyNetTcpGenericConnect (flags : ConnectFlags) (resolved again : Resolved) :
    (bindAddr : Bool) → LoopyNet → Bool × LoopyNet
  | false, l => l.tryConnect flags false resolved
  | true, l =>
    match l.tryConnect flags true resolved with
    | (false, l) => (false, l)
    | (true, l) =>
      if l.sock = .closed ∧ flags.BEST_EFFORT_BIND = true then
        l.tryConnect flags false again
      else (true, l)

/-! ## Listening -/

/-- `loopyNetListen`. -/
def loopyNetListen (l : LoopyNet) (ai : Addrinfo) : Bool × LoopyNet :=
  match if l.SERVER_REUSEPORT then l.loopyNetSetReusePort ai.reuseport else (true, l) with
  | (false, l) => (false, l)
  | (true, l) =>
    match if l.SERVER_L4_LOAD_BALANCE then l.loopyNetL4LoadBalanceEnable ai else (true, l) with
    | (false, l) => (false, l)
    | (true, l) =>
      match l.sysCall (ai.bind 0) with
      | (false, l) => (false, l.loopyNetSocketClose ai.close)
      | (true, l) =>
        match l.sysCall ai.listen with
        | (false, l) => (false, l.loopyNetSocketClose ai.close)
        | (true, l) => (true, l.setState .listening)

/-- The body of the loop of `_loopyNetTcpServer`; `inet6` says that `af` is `AF_INET6`. -/
def listenOn (inet6 : Bool) (l : LoopyNet) (ai : Addrinfo) : Option Exit × LoopyNet :=
  match l.loopyNetSocketNewFromAddrinfo ai with
  | (false, l) => (none, l)
  | (true, l) =>
    match if inet6 then l.loopyNetV6Only ai else (true, l) with
    | (false, l) => (some .error, l.loopyNetSocketClose ai.close)
    | (true, l) =>
      match l.loopyNetSetReuseAddr ai with
      | (false, l) => (some .error, l.loopyNetSocketClose ai.close)
      | (true, l) =>
        match l.loopyNetListen ai with
        | (false, l) => (some .error, l)
        | (true, l) => (some .done, l)

/-- `_loopyNetTcpServer`. -/
def loopyNetTcpServer (inet6 : Bool) (l : LoopyNet) (resolved : Resolved) : Bool × LoopyNet :=
  let l := { l with errno := resolved.errno.getD l.errno }
  match resolved.servinfo with
  | none => (false, l)
  | some servinfo =>
    match tryEach (listenOn inet6) l servinfo with
    | (some .done, l) => (true, l)
    | (_, l) => (false, l)

end LoopyNet

end Loopy.Net
