import Loopy.Lib.Bytes
import Loopy.Lib.Run

/-!
# `loopyDNS.c`: the resolver

A `loopyDNS` with its callers, its workers and the loop, as a machine whose steps are the critical
sections and what lies between them. Queries are numbered in the order in which they are accepted;
a number is the address of a query in `queries`, and the two lists hold addresses and results. `W`
names the workers and `L` the runs of `dnsProcessCompleted`, nested ones included. Allocations
succeed; the addresses and names that a resolution finds are left out. `cancels`, `tried` and
`delivered` are ghosts: the cancelled queries, the attempts to submit one, the callbacks.
-/

namespace Loopy.Dns

open Loopy.Lib

/-! ## Data -/

/-- `loopyDNSQueryKind`. -/
inductive LoopyDNSQueryKind
  | forward
  | reverse
deriving DecidableEq, Repr

/-- `loopyDNSQueryType`. -/
inductive LoopyDNSQueryType
  | a
  | aaaa
  | any
deriving DecidableEq, Repr

/-- `loopyDNSStatus`. -/
inductive LoopyDNSStatus
  | ok
  | nxdomain
  | servfail
  | timeout
  | cancelled
  | error
deriving DecidableEq, Repr

/-- `loopyDNSQuery`; `name` is the host name or the address. -/
structure LoopyDNSQuery where
  id : UInt64
  kind : LoopyDNSQueryKind
  name : CString
  port : ℕ
  type : LoopyDNSQueryType
  callback : ℕ
  userData : ℕ
  cancelled : Bool
deriving DecidableEq, Repr

/-- `loopyDNSCompletedQuery`, with the number of its query. -/
structure LoopyDNSCompletedQuery where
  query : ℕ
  kind : LoopyDNSQueryKind
  queryId : UInt64
  userData : ℕ
  name : CString
  callback : ℕ
  status : LoopyDNSStatus
deriving DecidableEq, Repr

/-- What `getaddrinfo` or `getnameinfo` returns. -/
inductive GaiErr
  | ok
  | noname
  | nodata
  | again
  | fail
  | other
deriving DecidableEq, Repr

/-- The status of an answer. -/
def GaiErr.status : GaiErr → LoopyDNSStatus
  | .ok => .ok
  | .noname | .nodata => .nxdomain
  | .again | .fail => .servfail
  | .other => .error

/-- Where a worker is in `dnsWorkerThread`. -/
inductive Worker
  | idle
  | dequeued (query : ℕ)
  | resolved (completed : LoopyDNSCompletedQuery)
  | notifying
deriving DecidableEq, Repr

/-- A run of `dnsProcessCompleted`. -/
inductive Processor
  | idle
  | processing
  /-- Before the callback. -/
  | popped (completed : LoopyDNSCompletedQuery)
deriving DecidableEq, Repr

/-- `loopyDNS` and its threads. -/
structure LoopyDNS (W L : Type) where
  maxConcurrent : UInt64
  pending : List ℕ
  pendingCount : ℕ
  nextQueryId : UInt64
  completed : List LoopyDNSCompletedQuery
  queries : ℕ → LoopyDNSQuery
  accepted : ℕ
  worker : W → Worker
  processor : L → Processor
  delivered : List LoopyDNSCompletedQuery
  cancels : List ℕ
  /-- Whether an attempt was accepted, and how many queries were outstanding before it. -/
  tried : List (Bool × ℕ)

variable {W L : Type}

/-- `loopyDNSNew`. -/
def loopyDNSNew (W L : Type) (maxConcurrent : UInt64) : LoopyDNS W L :=
  { maxConcurrent, pending := [], pendingCount := 0, nextQueryId := 1, completed := [],
    queries := fun _ => ⟨0, .forward, [], 0, .any, 0, 0, false⟩, accepted := 0,
    worker := fun _ => .idle, processor := fun _ => .idle, delivered := [], cancels := [],
    tried := [] }

/-- The accepted queries whose callbacks have not been called. -/
def LoopyDNS.outstanding (dns : LoopyDNS W L) : ℕ := dns.accepted - dns.delivered.length

/-! ## Calls -/

/-- `dns->pendingCount >= dns->config.maxConcurrent`. -/
def LoopyDNS.atCapacity (dns : LoopyDNS W L) : Bool :=
  decide (dns.pendingCount ≥ dns.maxConcurrent.toNat)

/-- A query is appended to the pending list, unless the resolver is at capacity; the answer is its
id, or 0. -/
def LoopyDNS.submit (dns : LoopyDNS W L) (kind : LoopyDNSQueryKind) (name : CString) (port : ℕ)
    (type : LoopyDNSQueryType) (callback userData : ℕ) : UInt64 × LoopyDNS W L :=
  if dns.atCapacity then (0, { dns with tried := dns.tried ++ [(false, dns.outstanding)] })
  else
    let query : LoopyDNSQuery :=
      { id := dns.nextQueryId, kind, name, port, type, callback, userData, cancelled := false }
    (query.id, { dns with
      nextQueryId := dns.nextQueryId + 1
      queries := Function.update dns.queries dns.accepted query
      pending := dns.pending ++ [dns.accepted]
      pendingCount := dns.pendingCount + 1
      accepted := dns.accepted + 1
      tried := dns.tried ++ [(true, dns.outstanding)] })

/-- `loopyDNSResolve`; `NULL` arguments are refused before. -/
def loopyDNSResolve (dns : LoopyDNS W L) (hostname : CString) (type : LoopyDNSQueryType)
    (callback userData : ℕ) : UInt64 × LoopyDNS W L :=
  dns.submit .forward hostname 0 type callback userData

/-- `loopyDNSReverseLookup`; `family` is what `inet_pton` says of the address. -/
def loopyDNSReverseLookup (dns : LoopyDNS W L) (addr : CString) (port : ℕ)
    (family : Option LoopyDNSQueryType) (callback userData : ℕ) : UInt64 × LoopyDNS W L :=
  match family with
  | none => (0, dns)
  | some type => dns.submit .reverse addr port type callback userData

/-- `q->cancelled = true`. -/
def LoopyDNS.markCancelled (dns : LoopyDNS W L) (n : ℕ) : LoopyDNS W L :=
  { dns with
    queries := Function.update dns.queries n { dns.queries n with cancelled := true }
    cancels := dns.cancels ++ [n] }

/-- `loopyDNSCancel`. -/
def loopyDNSCancel (dns : LoopyDNS W L) (queryId : UInt64) : Bool × LoopyDNS W L :=
  if queryId = 0 then (false, dns)
  else
    match dns.pending.find? fun n => (dns.queries n).id = queryId with
    | some n => (true, dns.markCancelled n)
    | none => (false, dns)

/-- `loopyDNSCancelAll`. -/
def loopyDNSCancelAll (dns : LoopyDNS W L) : LoopyDNS W L :=
  dns.pending.foldl LoopyDNS.markCancelled dns

/-- `dnsProcessForwardQuery` and `dnsProcessReverseQuery`, with what the resolution returns. -/
def LoopyDNS.processQuery (dns : LoopyDNS W L) (n : ℕ) (gaiErr : GaiErr) :
    LoopyDNSCompletedQuery :=
  let query := dns.queries n
  { query := n
    kind := query.kind
    queryId := query.id
    userData := query.userData
    name := query.name
    callback := query.callback
    status := if query.cancelled then .cancelled else gaiErr.status }

/-! ## The machine -/

/-- The steps. -/
inductive Action (W L : Type)
  | resolve (hostname : CString) (type : LoopyDNSQueryType) (callback userData : ℕ)
  | reverseLookup (addr : CString) (port : ℕ) (family : Option LoopyDNSQueryType)
    (callback userData : ℕ)
  | cancel (queryId : UInt64)
  | cancelAll
  | dequeue (w : W)
  | resolved (w : W) (gaiErr : GaiErr)
  | enqueueCompleted (w : W)
  | notify (w : W)
  | process (l : L)
  | pop (l : L)
  | callback (l : L)
deriving DecidableEq, Repr

variable [DecidableEq W] [DecidableEq L]

def LoopyDNS.setWorker (dns : LoopyDNS W L) (w : W) (pc : Worker) : LoopyDNS W L :=
  { dns with worker := Function.update dns.worker w pc }

def LoopyDNS.setProcessor (dns : LoopyDNS W L) (l : L) (pc : Processor) : LoopyDNS W L :=
  { dns with processor := Function.update dns.processor l pc }

/-- One step. -/
def step (dns : LoopyDNS W L) : Action W L → Option (LoopyDNS W L)
  | .resolve hostname type callback userData =>
    some (loopyDNSResolve dns hostname type callback userData).2
  | .reverseLookup addr port family callback userData =>
    some (loopyDNSReverseLookup dns addr port family callback userData).2
  | .cancel queryId => some (loopyDNSCancel dns queryId).2
  | .cancelAll => some (loopyDNSCancelAll dns)
  | .dequeue w =>
    match dns.worker w, dns.pending with
    | .idle, n :: rest =>
      some { dns.setWorker w (.dequeued n) with
        pending := rest
        pendingCount := dns.pendingCount - 1 }
    | _, _ => none
  | .resolved w gaiErr =>
    match dns.worker w with
    | .dequeued n => some (dns.setWorker w (.resolved (dns.processQuery n gaiErr)))
    | _ => none
  | .enqueueCompleted w =>
    match dns.worker w with
    | .resolved completed =>
      some { dns.setWorker w .notifying with completed := dns.completed ++ [completed] }
    | _ => none
  | .notify w => if dns.worker w = .notifying then some (dns.setWorker w .idle) else none
  | .process l =>
    if dns.processor l = .idle then some (dns.setProcessor l .processing) else none
  | .pop l =>
    if dns.processor l = .processing then
      match dns.completed with
      | [] => some (dns.setProcessor l .idle)
      | completed :: rest => some { dns.setProcessor l (.popped completed) with completed := rest }
    else none
  | .callback l =>
    match dns.processor l with
    | .popped completed =>
      some { dns.setProcessor l .processing with delivered := dns.delivered ++ [completed] }
    | _ => none

end Loopy.Dns
