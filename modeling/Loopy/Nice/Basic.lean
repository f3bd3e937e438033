import Loopy.Net.Sockets

/-!
# `loopyNice.c`: server sockets

`loopyNiceServerCreateSockets` for a descriptor without `bindDesc`, `loopyNiceServerListenToSockets`,
and what they use of `loopyNet.c`. The functions for a listening socket are those of
`Loopy.Net.Sockets` with a record of the calls of `close` (`loopyNetTcpServer_net`).

What the system calls and the event loop answer is an input (`Kernel`). Descriptors are numbered in
the order in which they are opened, and `none` is -1. The assertions are those of a release build.
The second socket of a server is never descriptor 0, as the first one took a lower number, so the
test `listen[1] > 0` says whether there is one.
-/

namespace Loopy.Nice

open Loopy.Lib (tryEach)
open Loopy.Net
open Function (update)

/-! ## Data -/

/-- `loopyNice`: its `net` with the descriptors that are open, a record of the calls of `close`, and
the descriptors that are non-blocking and registered for read with its loop. -/
structure LoopyNice where
  net : LoopyNet
  closed : List ℕ
  nonBlock : ℕ → Bool
  registered : ℕ → Bool

/-- What `fcntl` answers when a descriptor is made non-blocking. -/
structure Fcntl where
  getfl : Answer
  setfl : Answer
deriving DecidableEq, Repr

/-- Both calls succeed. -/
def Fcntl.ok (f : Fcntl) : Bool := f.getfl = .ok && f.setfl = .ok

/-- What is answered while a server is set up: `fcntl` and `register` for its first descriptor, 0, and
its second one, 1. -/
structure Kernel where
  socketpair : Answer
  pipe : Answer
  eventfd : Answer
  fcntl : ℕ → Fcntl
  domain : Addrinfo
  tcp6 : Resolved
  tcp4 : Resolved
  register : ℕ → Bool

/-- `loopyNiceServerDesc` without `bindDesc`: which fields are set, and the descriptors. `bindAddr`
says whether the address is an IPv6 one; of `socketpairFd` and `listen` there are the entries 0 and
1. -/
structure LoopyNiceServerDesc where
  useSocketPair : Bool
  usePipe : Bool
  useEventFd : Bool
  path : Bool
  bindAddr : Option Bool
  socketpairFd : ℕ → Option ℕ
  readFd : Option ℕ
  writeFd : Option ℕ
  domainFd : Option ℕ
  listen : ℕ → Option ℕ

/-- A `loopyNice` of which no descriptor is open. -/
def LoopyNice.new (sock : Sock) (REUSEPORT L4_LOAD_BALANCE : Bool) (errno : Errno) : LoopyNice where
  net :=
    { LoopyNet.new with
      sock
      SERVER_REUSEPORT := REUSEPORT
      SERVER_L4_LOAD_BALANCE := L4_LOAD_BALANCE
      errno }
  closed := []
  nonBlock := fun _ => false
  registered := fun _ => false

namespace LoopyNice

/-! ## Descriptors -/

/-- A call that closes nothing. -/
def onNet (s : LoopyNice) (f : LoopyNet → Bool × LoopyNet) : Bool × LoopyNice :=
  ((f s.net).1, { s with net := (f s.net).2 })

/-- A descriptor is opened that is not the socket of an address. -/
def opens (s : LoopyNice) : LoopyNice :=
  { s with
    net := { s.net with
      sockets := update s.net.sockets s.net.count (some ⟨0, .new⟩)
      count := s.net.count + 1 } }

/-- `close(fd)`. -/
def close (s : LoopyNice) (fd : ℕ) : LoopyNice :=
  { s with
    net := { s.net with sockets := update s.net.sockets fd none }
    closed := s.closed ++ [fd] }

/-- `loopyNetSocketClose`. -/
def loopyNetSocketClose (s : LoopyNice) (close : Answer) : LoopyNice :=
  { s with
    net := s.net.loopyNetSocketClose close
    closed :=
      match s.net.sock with
      | .own fd => s.closed ++ [fd]
      | .closed | .caller => s.closed }

/-- `loopyNetSetNonBlock`. -/
def loopyNetSetNonBlock (s : LoopyNice) (fd : ℕ) (answers : Fcntl) : Bool × LoopyNice :=
  match s.onNet fun l => l.sysCall answers.getfl with
  | (false, s) => (false, s)
  | (true, s) =>
    match s.onNet fun l => l.sysCall answers.setfl with
    | (false, s) => (false, s)
    | (true, s) => (true, { s with nonBlock := update s.nonBlock fd true })

/-! ## Listening sockets -/

/-- `loopyNetListen`. -/
def loopyNetListen (s : LoopyNice) (ai : Addrinfo) : Bool × LoopyNice :=
  match s.onNet fun l =>
    if l.SERVER_REUSEPORT then l.loopyNetSetReusePort ai.reuseport else (true, l) with
  | (false, s) => (false, s)
  | (true, s) =>
    match s.onNet fun l =>
      if l.SERVER_L4_LOAD_BALANCE then l.loopyNetL4LoadBalanceEnable ai else (true, l) with
    | (false, s) => (false, s)
    | (true, s) =>
      match s.onNet fun l => l.sysCall (ai.bind 0) with
      | (false, s) => (false, s.loopyNetSocketClose ai.close)
      | (true, s) =>
        match s.onNet fun l => l.sysCall ai.listen with
        | (false, s) => (false, s.loopyNetSocketClose ai.close)
        | (true, s) => (true, { s with net := s.net.setState .listening })

/-- The body of the loop of `_loopyNetTcpServer` behind the call of `socket`. -/
def setUp (inet6 : Bool) (s : LoopyNice) (ai : Addrinfo) : Option Exit × LoopyNice :=
  match s.onNet fun l => if inet6 then l.loopyNetV6Only ai else (true, l) with
  | (false, s) => (some .error, s.loopyNetSocketClose ai.close)
  | (true, s) =>
    match s.onNet fun l => l.loopyNetSetReuseAddr ai with
    | (false, s) => (some .error, s.loopyNetSocketClose ai.close)
    | (true, s) =>
      match s.loopyNetListen ai with
      | (false, s) => (some .error, s)
      | (true, s) => (some .done, s)

/-- The body of the loop of `_loopyNetTcpServer`; `inet6` says that `af` is `AF_INET6`. -/
def listenOn (inet6 : Bool) (s : LoopyNice) (ai : Addrinfo) : Option Exit × LoopyNice :=
  match s.onNet fun l => l.loopyNetSocketNewFromAddrinfo ai with
  | (false, s) => (none, s)
  | (true, s) => s.setUp inet6 ai

/-- `_loopyNetTcpServer`. -/
def loopyNetTcpServer (inet6 : Bool) (s : LoopyNice) (resolved : Resolved) : Bool × LoopyNice :=
  let s := { s with net := { s.net with errno := resolved.errno.getD s.net.errno } }
  match resolved.servinfo with
  | none => (false, s)
  | some servinfo =>
    match tryEach (listenOn inet6) s servinfo with
    | (some .done, s) => (true, s)
    | (_, s) => (false, s)

/-- `loopyNetSocketNew`. -/
def loopyNetSocketNew (s : LoopyNice) (ai : Addrinfo) : Bool × LoopyNice :=
  match s.net.socket ai with
  | (none, l) => (false, { s with net := { l with sock := .closed } })
  | (some fd, l) =>
    let s := { s with net := { l with sock := .own fd } }
    match s.onNet fun l => l.loopyNetSetReuseAddr ai with
    | (false, s) => (false, s.loopyNetSocketClose ai.close)
    | (true, s) => (true, s)

/-- `loopyNetUnixServer`; the answer of `chmod` is not looked at. -/
def loopyNetUnixServer (s : LoopyNice) (ai : Addrinfo) : Bool × LoopyNice :=
  match s.loopyNetSocketNew ai with
  | (false, s) => (false, s)
  | (true, s) => s.loopyNetListen ai

/-- `loopyNetSockGet`: the descriptor in `l->sock`, which a server that has been set up has opened. -/
def loopyNetSockGet (s : LoopyNice) : Option ℕ :=
  match s.net.sock with
  | .own fd => some fd
  | .closed | .caller => none

/-- `loopyNetNonBlockEnable`. -/
def loopyNetNonBlockEnable (s : LoopyNice) (answers : Fcntl) : Bool × LoopyNice :=
  match s.loopyNetSockGet with
  | none => (false, { s with net := { s.net with errno := .other 9 } })
  | some fd => s.loopyNetSetNonBlock fd answers

/-- `close` of a descriptor that may be -1. -/
def closeIf (s : LoopyNice) : Option ℕ → LoopyNice
  | none => s
  | some fd => s.close fd

/-! ## Creating sockets -/

/-- `loopyNiceServerCreateSockets` for a socket pair. -/
def createSocketPair (k : Kernel) (s : LoopyNice) (sd : LoopyNiceServerDesc) :
    Bool × LoopyNice × LoopyNiceServerDesc :=
  match s.onNet fun l => l.sysCall k.socketpair with
  | (false, s) => (false, s, sd)
  | (true, s) =>
    let first := s.net.count
    let second := s.net.count + 1
    let s := s.opens.opens
    let sd :=
      { sd with socketpairFd := update sd.socketpairFd 0 (some first) }
    match s.loopyNetSetNonBlock first (k.fcntl 0) with
    | (false, s) => (false, s.close first, sd) -- the second one stays open
    | (true, s) =>
      let sd := { sd with socketpairFd := update sd.socketpairFd 1 (some second) }
      match s.loopyNetSetNonBlock second (k.fcntl 1) with
      | (false, s) => (false, (s.close second).close first, sd)
      | (true, s) => (true, s, sd)

/-- `loopyNiceServerCreateSockets` for an eventfd, which is made non-blocking as it is created. -/
def createEventFd (k : Kernel) (s : LoopyNice) (sd : LoopyNiceServerDesc) :
    Bool × LoopyNice × LoopyNiceServerDesc :=
  match s.onNet fun l => l.sysCall k.eventfd with
  | (false, s) => (true, s, { sd with readFd := none, writeFd := none }) -- nobody looks
  | (true, s) =>
    let fd := s.net.count
    (true, { s.opens with nonBlock := update s.nonBlock fd true },
      { sd with readFd := some fd, writeFd := some fd })

/-- `loopyNiceServerCreateSockets` for a pipe. -/
def createPipe (k : Kernel) (s : LoopyNice) (sd : LoopyNiceServerDesc) :
    Bool × LoopyNice × LoopyNiceServerDesc :=
  match s.onNet fun l => l.sysCall k.pipe with
  | (false, s) => (false, s, sd)
  | (true, s) =>
    let readFd := s.net.count
    let writeFd := s.net.count + 1
    let s := s.opens.opens
    let sd := { sd with readFd := some readFd, writeFd := some writeFd }
    match s.loopyNetSetNonBlock readFd (k.fcntl 0) with
    | (false, s) => (false, (s.close readFd).close writeFd, sd)
    | (true, s) =>
      match s.loopyNetSetNonBlock writeFd (k.fcntl 1) with
      | (false, s) => (false, (s.close readFd).close writeFd, sd)
      | (true, s) => (true, s, sd)

/-- `loopyNiceServerCreateSockets` for a domain path. -/
def createDomain (k : Kernel) (s : LoopyNice) (sd : LoopyNiceServerDesc) :
    Bool × LoopyNice × LoopyNiceServerDesc :=
  match s.loopyNetUnixServer k.domain with
  | (false, s) => (false, s, sd)
  | (true, s) =>
    let fd := s.loopyNetSockGet
    match s.loopyNetNonBlockEnable (k.fcntl 0) with
    | (false, s) => (false, s.closeIf fd, sd)
    | (true, s) => (true, s, { sd with domainFd := fd })

/-- `loopyNiceServerCreateSockets` for a bind address. -/
def createAddr (k : Kernel) (inet6 : Bool) (s : LoopyNice) (sd : LoopyNiceServerDesc) :
    Bool × LoopyNice × LoopyNiceServerDesc :=
  match s.loopyNetTcpServer inet6 (if inet6 then k.tcp6 else k.tcp4) with
  | (false, s) => (false, s, sd)
  | (true, s) =>
    let sock := s.loopyNetSockGet
    let sd := { sd with listen := fun i => if i = 0 then sock else none }
    match s.loopyNetNonBlockEnable (k.fcntl 0) with
    | (false, s) => (false, s.closeIf sock, sd)
    | (true, s) => (true, s, sd)

/-- `loopyNiceServerCreateSockets` without a bind address. -/
def createBoth (k : Kernel) (s : LoopyNice) (sd : LoopyNiceServerDesc) :
    Bool × LoopyNice × LoopyNiceServerDesc :=
  match s.loopyNetTcpServer true k.tcp6 with
  | (false, s) => (false, s, sd)
  | (true, s) =>
    let sock6 := s.loopyNetSockGet
    let sd := { sd with listen := update sd.listen 0 sock6 }
    match s.loopyNetNonBlockEnable (k.fcntl 0) with
    | (false, s) => (false, s.closeIf sock6, sd)
    | (true, s) =>
      match s.loopyNetTcpServer false k.tcp4 with
      | (false, s) => (false, s.closeIf sock6, sd)
      | (true, s) =>
        let sock4 := s.loopyNetSockGet
        let sd := { sd with listen := update sd.listen 1 sock4 }
        match s.loopyNetNonBlockEnable (k.fcntl 1) with
        | (false, s) => (false, (s.closeIf sock6).closeIf sock4, sd)
        | (true, s) => (true, s, sd)

/-- `loopyNiceServerCreateSockets`. -/
def loopyNiceServerCreateSockets (USE_EVENTFD : Bool) (k : Kernel) (s : LoopyNice)
    (sd : LoopyNiceServerDesc) : Bool × LoopyNice × LoopyNiceServerDesc :=
  if sd.useSocketPair then s.createSocketPair k sd
  else if sd.usePipe then
    if USE_EVENTFD && sd.useEventFd then s.createEventFd k sd else s.createPipe k sd
  else if sd.path then s.createDomain k sd
  else
    match sd.bindAddr with
    | none => s.createBoth k sd
    | some inet6 => s.createAddr k inet6 sd

/-! ## Listening -/

/-- `sockReadableAdd`; -1 cannot be registered. -/
def sockReadableAdd (s : LoopyNice) (sock : Option ℕ) (registers : Bool) : Bool × LoopyNice :=
  match sock with
  | none => (false, s)
  | some fd =>
    if registers then (true, { s with registered := update s.registered fd true })
    else (false, s)

/-- `loopyNiceServerListenToSockets`. -/
def loopyNiceServerListenToSockets (k : Kernel) (s : LoopyNice) (sd : LoopyNiceServerDesc) :
    Bool × LoopyNice :=
  let result := true
  if sd.useSocketPair then
    let (added, s) := s.sockReadableAdd (sd.socketpairFd 0) (k.register 0)
    let result := result || added
    let (added, s) := s.sockReadableAdd (sd.socketpairFd 1) (k.register 1)
    (result || added, s)
  else if sd.usePipe then
    let (added, s) := s.sockReadableAdd sd.readFd (k.register 0)
    (result || added, s)
  else if sd.path then
    let (added, s) := s.sockReadableAdd sd.domainFd (k.register 0)
    (result || added, s)
  else
    let (added, s) := s.sockReadableAdd (sd.listen 0) (k.register 0)
    let result := result || added
    if (sd.listen 1).isSome then
      let (added, s) := s.sockReadableAdd (sd.listen 1) (k.register 1)
      (result || added, s)
    else (result, s)

/-- `loopyNiceServerCreateSocketsAndListen`. -/
def loopyNiceServerCreateSocketsAndListen (USE_EVENTFD : Bool) (k : Kernel) (s : LoopyNice)
    (sd : LoopyNiceServerDesc) : Bool × LoopyNice × LoopyNiceServerDesc :=
  match s.loopyNiceServerCreateSockets USE_EVENTFD k sd with
  | (true, s, sd) => (true, (s.loopyNiceServerListenToSockets k sd).2, sd)
  | (false, s, sd) => (false, s, sd)

end LoopyNice

end Loopy.Nice
