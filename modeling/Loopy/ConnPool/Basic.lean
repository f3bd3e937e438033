import Loopy.Lib.Chain
import Loopy.Lib.Run

/-!
# `loopyConnPool.c`: the pool

The pool as a machine whose actions are the calls of its functions. What the callbacks and the
clock answer during a call is an input (`Answers`). The callback of an asynchronous request may
call the pool again; nothing is left to do behind it but to count the acquisition, so `frames`
keeps only which function called it.

User connections are numbered in the order in which `createCb` made them, and asynchronous requests
in the order of their calls. `userConns`, `held`, `destroyedConns`, `asked`, `served` and `lost`
are a record: how many user connections there are, those that are in the hands of callers, those
that `destroyCb` was called for, how many requests there are, those whose callback was called, and
those that could not be queued for want of memory.
-/

namespace Loopy.ConnPool

open Loopy.Lib

/-- `loopyConnPoolConfig`. -/
structure LoopyConnPoolConfig where
  minIdle : ℕ
  maxTotal : ℕ
  idleTimeoutUs : UInt64
  maxLifetimeUs : UInt64

/-- `loopyConnPoolConn`. -/
structure LoopyConnPoolConn where
  createTime : UInt64
  lastUseTime : UInt64
  inUse : Bool
  next : Option ℕ

/-- How an attempt to create a connection goes. -/
inductive CreateResult
  | created
  | createCbFails
  | zcallocFails
deriving DecidableEq, Repr

/-- What the callbacks and the clock answer in the course of a call. No function looks at a
connection twice, so the answers are per connection, or per attempt to create one. -/
structure Answers where
  validate : ℕ → Bool
  create : ℕ → CreateResult
  /-- When a connection is checked. -/
  checked : ℕ → UInt64
  /-- When one is created. -/
  createdAt : ℕ → UInt64
  /-- When `lastUseTime` is set. -/
  used : UInt64

/-- The function that has called the callback of a request. -/
inductive Frame
  | acquireAsync
  | release
deriving DecidableEq, Repr

/-- `loopyConnPool`, its connections and requests, and the record. -/
structure LoopyConnPool where
  config : LoopyConnPoolConfig
  validateCb : Bool
  conn : ℕ → LoopyConnPoolConn
  idleConns : Option ℕ
  totalConns : ℕ
  idleCount : ℕ
  activeCount : UInt32
  waitNext : ℕ → Option ℕ
  waitQueueHead : Option ℕ
  waitQueueTail : Option ℕ
  totalAcquires : ℕ
  totalReleases : ℕ
  totalCreates : ℕ
  totalDestroys : ℕ
  totalTimeouts : ℕ
  totalValidationFailures : ℕ
  lastError : Option String
  userConns : ℕ
  held : List ℕ
  destroyedConns : List ℕ
  asked : ℕ
  served : List ℕ
  lost : List ℕ
  frames : List Frame

namespace LoopyConnPool

/-- The link of a connection. -/
def next (s : LoopyConnPool) (n : ℕ) : Option ℕ := (s.conn n).next

/-- A write to a connection. -/
def setConn (s : LoopyConnPool) (n : ℕ) (conn : LoopyConnPoolConn) : LoopyConnPool :=
  { s with conn := Function.update s.conn n conn }

/-! ## Connections -/

/-- `createConnection`. -/
def createConnection (s : LoopyConnPool) (r : CreateResult) (now : UInt64) :
    LoopyConnPool × Option ℕ :=
  if s.totalConns ≥ s.config.maxTotal then
    ({ s with lastError := some "Pool at maximum capacity" }, none)
  else
    let n := s.userConns
    match r with
    | .createCbFails => ({ s with lastError := some "Connection creation callback failed" }, none)
    | .zcallocFails =>
      ({ s with
        lastError := some "Memory allocation failed"
        userConns := n + 1
        destroyedConns := s.destroyedConns ++ [n] }, none)
    | .created =>
      ({ s.setConn n { createTime := now, lastUseTime := now, inUse := false, next := none } with
        userConns := n + 1
        totalConns := s.totalConns + 1
        totalCreates := s.totalCreates + 1
        lastError := none }, some n)

/-- `destroyConnection`. -/
def destroyConnection (s : LoopyConnPool) (n : ℕ) : LoopyConnPool :=
  { s with
    destroyedConns := s.destroyedConns ++ [n]
    totalConns := s.totalConns - 1
    totalDestroys := s.totalDestroys + 1 }

/-- `validateConnection`; `answer` is what `validateCb` answers. -/
def validateConnection (s : LoopyConnPool) (answer : Bool) : Bool := !s.validateCb || answer

/-- `isConnectionExpired`. -/
def isConnectionExpired (s : LoopyConnPool) (n : ℕ) (now : UInt64) : Bool :=
  if s.config.maxLifetimeUs = 0 then false
  else decide (now - (s.conn n).createTime ≥ s.config.maxLifetimeUs)

/-- `isConnectionIdleTooLong`. -/
def isConnectionIdleTooLong (s : LoopyConnPool) (n : ℕ) (now : UInt64) : Bool :=
  if s.config.idleTimeoutUs = 0 then false
  else decide (now - (s.conn n).lastUseTime ≥ s.config.idleTimeoutUs)

/-- `addToIdleList`. -/
def addToIdleList (s : LoopyConnPool) (n : ℕ) : LoopyConnPool :=
  { s.setConn n { s.conn n with next := s.idleConns } with
    idleConns := some n
    idleCount := s.idleCount + 1 }

/-- `removeFromIdleList`. -/
def removeFromIdleList (s : LoopyConnPool) : LoopyConnPool × Option ℕ :=
  match s.idleConns with
  | none => (s, none)
  | some n =>
    ({ s.setConn n { s.conn n with next := none } with
      idleConns := s.next n
      idleCount := s.idleCount - 1
      activeCount := s.activeCount + 1 }, some n)

/-- `conn->lastUseTime` and `conn->inUse`, set. -/
def touch (s : LoopyConnPool) (n : ℕ) (now : UInt64) (inUse : Bool) : LoopyConnPool :=
  s.setConn n { s.conn n with lastUseTime := now, inUse }

/-! ## Waiting requests -/

/-- `enqueueWaitRequest`; `alloc` says whether its allocation succeeds. -/
def enqueueWaitRequest (s : LoopyConnPool) (r : ℕ) (alloc : Bool) : LoopyConnPool :=
  if alloc = false then { s with lost := s.lost ++ [r] }
  else
    let s := { s with waitNext := Function.update s.waitNext r none }
    match s.waitQueueHead, s.waitQueueTail with
    | none, _ => { s with waitQueueHead := some r, waitQueueTail := some r }
    | some _, some tail =>
      { s with waitNext := Function.update s.waitNext tail (some r), waitQueueTail := some r }
    | some _, none => { s with waitQueueTail := some r }

/-- `dequeueWaitRequest`. -/
def dequeueWaitRequest (s : LoopyConnPool) : LoopyConnPool × Option ℕ :=
  match s.waitQueueHead with
  | none => (s, none)
  | some r =>
    ({ s with
      waitQueueHead := s.waitNext r
      waitQueueTail := if s.waitNext r = none then none else s.waitQueueTail }, some r)

/-- The callback of the request `r` is called with a connection, or with `NULL`. -/
def callback (s : LoopyConnPool) (r : ℕ) (conn : Option ℕ) (frame : Frame) : LoopyConnPool :=
  { s with
    served := s.served ++ [r]
    held := conn.toList ++ s.held
    frames := frame :: s.frames }

/-! ## Acquire and release -/

/-- The loop of `loopyConnPoolAcquire`. -/
def acquireIdle (answers : Answers) : ℕ → LoopyConnPool → LoopyConnPool × Option ℕ
  | 0, s => (s, none)
  | fuel + 1, s =>
    match s.removeFromIdleList with
    | (s, none) => (s, none)
    | (s, some n) =>
      if s.validateConnection (answers.validate n) = false then
        acquireIdle answers fuel
          ({ s with totalValidationFailures := s.totalValidationFailures + 1 }.destroyConnection n)
      else if s.isConnectionExpired n (answers.checked n) then
        acquireIdle answers fuel (s.destroyConnection n)
      else (s, some n)

/-- `loopyConnPoolAcquire` behind its loop: an idle connection, or a new one. -/
def acquireFound (s : LoopyConnPool) (found : Option ℕ) (answers : Answers) :
    LoopyConnPool × Option ℕ :=
  match found with
  | some n =>
    ({ s.touch n answers.used true with
      totalAcquires := s.totalAcquires + 1
      lastError := none }, some n)
  | none =>
    match s.createConnection (answers.create 0) (answers.createdAt 0) with
    | (s, none) => ({ s with totalTimeouts := s.totalTimeouts + 1 }, none)
    | (s, some n) =>
      ({ s.touch n answers.used true with
        activeCount := s.activeCount + 1
        totalAcquires := s.totalAcquires + 1
        lastError := none }, some n)

/-- `loopyConnPoolAcquire`. -/
def acquire (s : LoopyConnPool) (answers : Answers) : LoopyConnPool × Option ℕ :=
  let (s, found) := acquireIdle answers s.userConns s
  s.acquireFound found answers

/-- `loopyConnPoolAcquireAsync`. -/
def acquireAsync (s : LoopyConnPool) (answers : Answers) (alloc : Bool) : LoopyConnPool :=
  let r := s.asked
  let s := { s with asked := r + 1 }
  if s.idleConns.isSome || decide (s.totalConns < s.config.maxTotal) then
    let (s, conn) := s.acquire answers
    s.callback r conn .acquireAsync
  else { s.enqueueWaitRequest r alloc with lastError := none }

/-- `loopyConnPoolRelease` for a connection that is destroyed. -/
def releaseBroken (s : LoopyConnPool) (n : ℕ) (answers : Answers) : LoopyConnPool :=
  let s := { s with activeCount := s.activeCount - 1 }.destroyConnection n
  if s.totalConns < s.config.minIdle then
    match s.createConnection (answers.create 0) (answers.createdAt 0) with
    | (s, none) => s
    | (s, some m) => s.addToIdleList m
  else s

/-- `loopyConnPoolRelease` for a connection that is good. -/
def releaseGood (s : LoopyConnPool) (n : ℕ) (answers : Answers) : LoopyConnPool :=
  match s.dequeueWaitRequest with
  | (s, some r) => (s.touch n answers.used true).callback r (some n) .release
  | (s, none) =>
    { s.touch n answers.used false with activeCount := s.activeCount - 1 }.addToIdleList n

/-- `loopyConnPoolRelease`. -/
def release (s : LoopyConnPool) (n : ℕ) (healthy : Bool) (answers : Answers) : LoopyConnPool :=
  let s : LoopyConnPool :=
    { s.setConn n { s.conn n with inUse := false } with
      held := s.held.erase n
      totalReleases := s.totalReleases + 1 }
  if healthy = false ∨ s.isConnectionExpired n (answers.checked n) = true then
    s.releaseBroken n answers
  else s.releaseGood n answers

/-! ## Maintenance -/

/-- `curr` is taken out of the idle list; `prev` is the connection before it. -/
def unlink (s : LoopyConnPool) (prev : Option ℕ) (curr : ℕ) : LoopyConnPool :=
  let s :=
    match prev with
    | some prev => s.setConn prev { s.conn prev with next := s.next curr }
    | none => { s with idleConns := s.next curr }
  { s with idleCount := s.idleCount - 1 }

/-- The loop of `loopyConnPoolHealthCheck` and `loopyConnPoolCleanupIdle`: the connections that
`doomed` says are unlinked and handed to `drop`. -/
def sweep (doomed : LoopyConnPool → ℕ → Bool) (drop : LoopyConnPool → ℕ → LoopyConnPool) :
    ℕ → LoopyConnPool → Option ℕ → Option ℕ → ℕ → LoopyConnPool × ℕ
  | 0, s, _, _, count => (s, count)
  | _ + 1, s, _, none, count => (s, count)
  | fuel + 1, s, prev, some curr, count =>
    -- the link of `curr` is read before `curr` is freed
    if doomed s curr then
      sweep doomed drop fuel (drop (s.unlink prev curr) curr) prev (s.next curr) (count + 1)
    else sweep doomed drop fuel s (some curr) (s.next curr) count

/-- `loopyConnPoolHealthCheck`. -/
def healthCheck (s : LoopyConnPool) (answers : Answers) : LoopyConnPool × ℕ :=
  sweep (fun s n => !s.validateConnection (answers.validate n))
    (fun s n =>
      { s with totalValidationFailures := s.totalValidationFailures + 1 }.destroyConnection n)
    s.userConns s none s.idleConns 0

/-- `loopyConnPoolCleanupIdle`. -/
def cleanupIdle (s : LoopyConnPool) (answers : Answers) : LoopyConnPool × ℕ :=
  sweep (fun s n => s.isConnectionIdleTooLong n (answers.checked n) &&
      decide (s.totalConns > s.config.minIdle))
    destroyConnection s.userConns s none s.idleConns 0

/-- The loop of `loopyConnPoolPrewarm`, with `i` connections created. -/
def prewarmLoop (answers : Answers) : ℕ → LoopyConnPool → ℕ → LoopyConnPool × ℕ
  | 0, s, i => (s, i)
  | count + 1, s, i =>
    if s.totalConns < s.config.maxTotal then
      match s.createConnection (answers.create i) (answers.createdAt i) with
      | (s, none) => (s, i)
      | (s, some n) => prewarmLoop answers count (s.addToIdleList n) (i + 1)
    else (s, i)

/-- `loopyConnPoolPrewarm`. -/
def prewarm (s : LoopyConnPool) (count : ℕ) (answers : Answers) : LoopyConnPool × ℕ :=
  prewarmLoop answers (if count = 0 then s.config.minIdle else count) s 0

/-! ## The machine -/

/-- The pool before it is filled. -/
def empty (config : LoopyConnPoolConfig) (validateCb : Bool) : LoopyConnPool where
  config
  validateCb
  conn := fun _ => { createTime := 0, lastUseTime := 0, inUse := false, next := none }
  idleConns := none
  totalConns := 0
  idleCount := 0
  activeCount := 0
  waitNext := fun _ => none
  waitQueueHead := none
  waitQueueTail := none
  totalAcquires := 0
  totalReleases := 0
  totalCreates := 0
  totalDestroys := 0
  totalTimeouts := 0
  totalValidationFailures := 0
  lastError := none
  userConns := 0
  held := []
  destroyedConns := []
  asked := 0
  served := []
  lost := []
  frames := []

/-- `loopyConnPoolNew`. -/
def new (config : LoopyConnPoolConfig) (validateCb : Bool) (answers : Answers) :
    Option LoopyConnPool :=
  if config.minIdle > 0 then
    let (s, created) := (empty config validateCb).prewarm config.minIdle answers
    if created < config.minIdle then none else some { s with lastError := none }
  else some (empty config validateCb)

end LoopyConnPool

/-- The calls of user code, of its callbacks and of the timers. -/
inductive Action
  | acquire (answers : Answers)
  | acquireAsync (answers : Answers) (alloc : Bool)
  | release (n : ℕ) (healthy : Bool) (answers : Answers)
  | healthCheck (answers : Answers)
  | cleanupIdle (answers : Answers)
  | prewarm (count : ℕ) (answers : Answers)
  /-- A callback returns. -/
  | ret

/-- One action. Only a connection that is held is released. -/
def step (s : LoopyConnPool) : Action → Option LoopyConnPool
  | .acquire answers =>
    let (s, conn) := s.acquire answers
    some { s with held := conn.toList ++ s.held }
  | .acquireAsync answers alloc => some (s.acquireAsync answers alloc)
  | .release n healthy answers => if n ∈ s.held then some (s.release n healthy answers) else none
  | .healthCheck answers => some (s.healthCheck answers).1
  | .cleanupIdle answers => some (s.cleanupIdle answers).1
  | .prewarm count answers => some (s.prewarm count answers).1
  | .ret =>
    match s.frames with
    | [] => none
    | .acquireAsync :: frames => some { s with frames }
    | .release :: frames => some { s with frames, totalAcquires := s.totalAcquires + 1 }

end Loopy.ConnPool
