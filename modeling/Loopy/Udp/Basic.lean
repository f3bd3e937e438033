import Loopy.Lib.Bytes
import Loopy.Lib.LinkedQueue
import Loopy.Lib.Run

/-!
# `loopyUDP.c`: sending

A UDP handle as a machine. Send callbacks are user code that may send again, so the machine stops
where one is running; `pc` is the function that called it. What the resolver and the kernel answer
comes with each step; allocations and registrations succeed. Requests and calls have the same
numbers. `log` is a ghost: the calls, the datagrams that the kernel took and the callbacks. The
socket options and the receiving side are left out.
-/

namespace Loopy.Udp

open Loopy.Lib

/-! ## Data -/

/-- What the kernel is asked to send; a connected send has no destination. -/
structure Datagram where
  dest : List UInt8
  data : List UInt8
deriving DecidableEq, Repr

/-- `loopyUDPSendReq` without its link; `dest` has `destLen` bytes, `data` has `len` bytes. -/
structure LoopyUDPSendReq where
  dest : List UInt8
  data : List UInt8
  cb : Option ℕ
  userData : ℕ
deriving DecidableEq, Repr

/-- `sendto` with a destination, and `send` without one. -/
def LoopyUDPSendReq.datagram (req : LoopyUDPSendReq) : Datagram :=
  if req.dest.length > 0 then { dest := req.dest, data := req.data }
  else { dest := [], data := req.data }

/-- A call of `loopyUDPSend` or `loopyUDPSendConnected`. -/
structure Call where
  cb : Option ℕ
  userData : ℕ
  /-- What is to be sent, if the call returns true. -/
  accepted : Option Datagram
deriving DecidableEq, Repr

/-- A callback, with the number of its call. -/
structure Completion where
  call : ℕ
  cb : ℕ
  status : ℤ
  userData : ℕ
deriving DecidableEq, Repr

structure SendLog where
  calls : List Call
  sent : List (ℕ × Datagram)
  done : List Completion
deriving DecidableEq, Repr

/-- The call of a request. -/
def LoopyUDPSendReq.call (req : LoopyUDPSendReq) : Call :=
  { cb := req.cb, userData := req.userData, accepted := some req.datagram }

def SendLog.accept (log : SendLog) (req : LoopyUDPSendReq) : SendLog :=
  { log with calls := log.calls ++ [req.call] }

def SendLog.reject (log : SendLog) (cb : Option ℕ) (userData : ℕ) : SendLog :=
  { log with calls := log.calls ++ [{ cb, userData, accepted := none }] }

def SendLog.transmit (log : SendLog) (n : ℕ) (datagram : Datagram) : SendLog :=
  { log with sent := log.sent ++ [(n, datagram)] }

/-- `if (req->cb) req->cb(udp, status, req->userData)`. -/
def SendLog.invoke (log : SendLog) (n : ℕ) (req : LoopyUDPSendReq) (status : ℤ) : SendLog :=
  match req.cb with
  | some cb =>
    { log with done := log.done ++ [{ call := n, cb, status, userData := req.userData }] }
  | none => log

/-- Where the machine is; `free` and `freeCb` have the next request of the loop. -/
inductive Pc
  /-- In user code, or in the loop. -/
  | idle
  /-- In `udpProcessSendQueue`, before the test of `sendHead`. -/
  | process
  /-- In the callback of a request of `udpProcessSendQueue`. -/
  | processCb (req : ℕ)
  /-- In `loopyUDPFree`, before the test of `req`. -/
  | free (req : Option ℕ)
  /-- In a callback of `loopyUDPFree`. -/
  | freeCb (next : Option ℕ)
  | freed
deriving DecidableEq, Repr

/-- `loopyUDP`, with its registration for write events. -/
structure LoopyUDP where
  fd : Option ℕ
  connected : Bool
  /-- `sendHead`, `sendTail` and the links of the requests. -/
  sendQueue : LinkedQueue ℕ
  sendQueueCount : ℕ
  errorString : CString
  req : ℕ → LoopyUDPSendReq
  writable : Bool
  pc : Pc
  /-- The callbacks that run inside calls of `loopyUDPSend` and `loopyUDPSendConnected`. -/
  depth : ℕ
  log : SendLog

/-- `loopyUDPNew`. -/
def loopyUDPNew : LoopyUDP :=
  { fd := none, connected := false, sendQueue := .empty ℕ, sendQueueCount := 0, errorString := [],
    req := fun _ => ⟨[], [], none, 0⟩, writable := false, pc := .idle, depth := 0,
    log := ⟨[], [], []⟩ }

/-! ## Answers of the system -/

/-- What `getaddrinfo` finds for a name and a port: the address, or the text of the error. -/
abbrev GetAddrInfo := CString → CString → Except CString (List UInt8)

/-- Opening a non-blocking socket: its fd, or the call that fails with the text of the error. -/
inductive SocketResult
  | opened (fd : ℕ)
  | socket (error : CString)
  | getfl (error : CString)
  | setfl (error : CString)

/-- What `sendto` and `send` return. -/
inductive SendResult
  | sent
  /-- `EAGAIN` or `EWOULDBLOCK`. -/
  | again
  | error (error : CString)

/-- The answers to one call. -/
structure Answers where
  /-- The first resolution, which is for the address family. -/
  family : GetAddrInfo
  socket : SocketResult
  getaddrinfo : GetAddrInfo
  send : SendResult

/-! ## Helpers -/

def bytes (s : String) : CString := s.toUTF8.data.toList

/-- `snprintf` of an error into `errorString`. -/
def LoopyUDP.setError (udp : LoopyUDP) (field : String) (error : CString) : LoopyUDP :=
  { udp with errorString := (bytes field ++ bytes ": " ++ error).take 127 }

/-- `udpResolveAddress`. -/
def udpResolveAddress (udp : LoopyUDP) (addr : CString) (port : ℤ) (getaddrinfo : GetAddrInfo) :
    LoopyUDP × Option (List UInt8) :=
  let portStr := (bytes (toString port)).take 5
  match getaddrinfo addr portStr with
  | .ok dest => (udp, some dest)
  | .error error => (udp.setError "getaddrinfo" error, none)

/-- `udpCreateSocket` without flags. -/
def udpCreateSocket (udp : LoopyUDP) (socket : SocketResult) : LoopyUDP × Bool :=
  if udp.fd.isSome then (udp, true)
  else
    match socket with
    | .opened fd => ({ udp with fd := some fd }, true)
    | .socket error => (udp.setError "socket" error, false)
    | .getfl error => (udp.setError "fcntl getfl" error, false)
    | .setfl error => (udp.setError "fcntl setfl" error, false)

/-! ## Calls -/

/-- `loopyUDPConnect`; `connect` is the error of `connect`, if it fails. -/
def loopyUDPConnect (udp : LoopyUDP) (addr : Option CString) (port : ℤ) (answers : Answers)
    (connect : Option CString) : LoopyUDP × Bool :=
  match addr with
  | none => (udp, false)
  | some addr =>
    match udpResolveAddress udp addr port answers.getaddrinfo with
    | (udp, none) => (udp, false)
    | (udp, some _) =>
      match udpCreateSocket udp answers.socket with
      | (udp, false) => (udp, false)
      | (udp, true) =>
        match connect with
        | some error => (udp.setError "connect" error, false)
        | none => ({ udp with connected := true }, true)

/-- `loopyUDPDisconnect`. -/
def loopyUDPDisconnect (udp : LoopyUDP) : LoopyUDP :=
  if udp.connected && udp.fd.isSome then { udp with connected := false } else udp

/-- The request is queued, with the number of its call. -/
def LoopyUDP.enqueue (udp : LoopyUDP) (req : LoopyUDPSendReq) : LoopyUDP :=
  let n := udp.log.calls.length
  { udp with
    sendQueue := udp.sendQueue.push n
    req := Function.update udp.req n req
    sendQueueCount := udp.sendQueueCount + 1
    writable := true
    log := udp.log.accept req }

/-- The call returns false. -/
def LoopyUDP.reject (udp : LoopyUDP) (cb : Option ℕ) (userData : ℕ) : LoopyUDP :=
  { udp with log := udp.log.reject cb userData }

/-- A send that has passed its checks is made at once if the queue is empty, and queued otherwise or
if the socket is full. -/
def LoopyUDP.sendOrQueue (udp : LoopyUDP) (req : LoopyUDPSendReq) (field : String)
    (result : SendResult) : LoopyUDP × Bool :=
  if udp.sendQueue.head.isNone then
    match result with
    | .sent =>
      let n := udp.log.calls.length
      let log := ((udp.log.accept req).transmit n req.datagram).invoke n req 0
      ({ udp with log, depth := if req.cb.isSome then udp.depth + 1 else udp.depth }, true)
    | .again => (udp.enqueue req, true)
    | .error error => ((udp.setError field error).reject req.cb req.userData, false)
  else (udp.enqueue req, true)

/-- The socket is created if there is none, for the family of the destination. -/
def LoopyUDP.ensureSocket (udp : LoopyUDP) (addr : CString) (port : ℤ) (answers : Answers) :
    LoopyUDP × Bool :=
  if udp.fd.isSome then (udp, true)
  else
    match udpResolveAddress udp addr port answers.family with
    | (udp, none) => (udp, false)
    | (udp, some _) => udpCreateSocket udp answers.socket

/-- The request of a call of `loopyUDPSend`, if the arguments are valid, there is a socket and the
address is known. -/
def LoopyUDP.request (udp : LoopyUDP) (addr : Option CString) (port : ℤ)
    (data : Option (List UInt8)) (cb : Option ℕ) (userData : ℕ) (answers : Answers) :
    LoopyUDP × Option LoopyUDPSendReq :=
  match addr, data with
  | some addr, some data =>
    if data.length = 0 then (udp, none)
    else
      match udp.ensureSocket addr port answers with
      | (udp, false) => (udp, none)
      | (udp, true) =>
        match udpResolveAddress udp addr port answers.getaddrinfo with
        | (udp, none) => (udp, none)
        | (udp, some dest) => (udp, some { dest, data, cb, userData })
  | _, _ => (udp, none)

/-- `loopyUDPSend`. -/
def loopyUDPSend (udp : LoopyUDP) (addr : Option CString) (port : ℤ) (data : Option (List UInt8))
    (cb : Option ℕ) (userData : ℕ) (answers : Answers) : LoopyUDP × Bool :=
  match udp.request addr port data cb userData answers with
  | (udp, none) => (udp.reject cb userData, false)
  | (udp, some req) => udp.sendOrQueue req "sendto" answers.send

/-- The request of a call of `loopyUDPSendConnected`, if the arguments are valid. -/
def LoopyUDP.requestConnected (udp : LoopyUDP) (data : Option (List UInt8)) (cb : Option ℕ)
    (userData : ℕ) : Option LoopyUDPSendReq :=
  match data with
  | some data =>
    if !udp.connected || data.length = 0 then none else some { dest := [], data, cb, userData }
  | none => none

/-- `loopyUDPSendConnected`. -/
def loopyUDPSendConnected (udp : LoopyUDP) (data : Option (List UInt8)) (cb : Option ℕ)
    (userData : ℕ) (result : SendResult) : LoopyUDP × Bool :=
  match udp.requestConnected data cb userData with
  | none => (udp.reject cb userData, false)
  | some req => udp.sendOrQueue req "send" result

/-! ## The machine -/

/-- The steps. -/
inductive Action
  | connect (addr : Option CString) (port : ℤ) (answers : Answers) (connect : Option CString)
  | disconnect
  | send (addr : Option CString) (port : ℤ) (data : Option (List UInt8)) (cb : Option ℕ)
    (userData : ℕ) (answers : Answers)
  | sendConnected (data : Option (List UInt8)) (cb : Option ℕ) (userData : ℕ) (result : SendResult)
  /-- A callback returns. -/
  | cbReturn
  /-- A write event. -/
  | write
  /-- A round of the loop of `udpProcessSendQueue`. -/
  | process (result : SendResult)
  | free
  /-- A round of the loop of `loopyUDPFree`. -/
  | freeReq

/-- User code runs. -/
def Pc.user : Pc → Bool
  | .idle | .processCb _ | .freeCb _ => true
  | .process | .free _ | .freed => false

/-- The request is done and leaves the queue. -/
def LoopyUDP.unlink (udp : LoopyUDP) (n : ℕ) : LoopyUDP :=
  { udp with
    sendQueue := udp.sendQueue.unlink n
    sendQueueCount := udp.sendQueueCount - 1
    pc := .process }

/-- The callback of the first request, if it has one. -/
def LoopyUDP.notify (udp : LoopyUDP) (n : ℕ) (status : ℤ) : LoopyUDP :=
  let udp' := { udp with log := udp.log.invoke n (udp.req n) status }
  if (udp.req n).cb.isSome then { udp' with pc := .processCb n } else udp'.unlink n

/-- A round of the loop of `udpProcessSendQueue`. -/
def LoopyUDP.processNext (udp : LoopyUDP) (result : SendResult) : LoopyUDP :=
  match udp.sendQueue.head with
  | none => { udp with writable := false, pc := .idle }
  | some n =>
    match result with
    | .again => { udp with pc := .idle }
    | .error _ => udp.notify n (-1)
    | .sent => { udp with log := udp.log.transmit n (udp.req n).datagram }.notify n 0

/-- `loopyUDPFree`, up to its loop. -/
def LoopyUDP.startFree (udp : LoopyUDP) : LoopyUDP :=
  { udp with
    writable := if udp.fd.isSome then false else udp.writable
    pc := .free udp.sendQueue.head }

/-- A round of the loop of `loopyUDPFree`. -/
def LoopyUDP.freeNext (udp : LoopyUDP) : Option ℕ → LoopyUDP
  | none => { udp with pc := .freed }
  | some n =>
    let next := udp.sendQueue.next n
    let udp' := { udp with log := udp.log.invoke n (udp.req n) (-1) }
    if (udp.req n).cb.isSome then { udp' with pc := .freeCb next }
    else { udp' with pc := .free next }

/-- One step. -/
def step (udp : LoopyUDP) : Action → Option LoopyUDP
  | .connect addr port answers connect =>
    if udp.pc.user then some (loopyUDPConnect udp addr port answers connect).1 else none
  | .disconnect => if udp.pc.user then some (loopyUDPDisconnect udp) else none
  | .send addr port data cb userData answers =>
    if udp.pc.user then some (loopyUDPSend udp addr port data cb userData answers).1 else none
  | .sendConnected data cb userData result =>
    if udp.pc.user then some (loopyUDPSendConnected udp data cb userData result).1 else none
  | .cbReturn =>
    if udp.depth > 0 then some { udp with depth := udp.depth - 1 }
    else
      match udp.pc with
      | .processCb n => some (udp.unlink n)
      | .freeCb next => some { udp with pc := .free next }
      | _ => none
  | .write =>
    if udp.pc = .idle ∧ udp.depth = 0 ∧ udp.writable then some { udp with pc := .process } else none
  | .process result => if udp.pc = .process then some (udp.processNext result) else none
  | .free => if udp.pc = .idle ∧ udp.depth = 0 then some udp.startFree else none
  | .freeReq =>
    match udp.pc with
    | .free req => some (udp.freeNext req)
    | _ => none

end Loopy.Udp
