import Loopy.ConnPool.Tally

/-!
# `loopyConnPool.c`: the end of a pool

`loopyConnPoolFree` calls `destroyCb` for the idle connections and the callbacks of the requests
that wait, and frees the pool. Its callbacks may call the pool again: the flag `destroyed` refuses
them everything but a release, which destroys its connection at once. A release that comes later
looks for the flag in the pool that is gone.

* A pool is freed once, from the outside or in the callback of a request, and after
  `loopyConnPoolFree` only connections that are held are released.
* `fault` is a record: the freed pool has been read or written.
-/

namespace Loopy.ConnPool

open Loopy.Lib

/-! ## `loopyConnPoolFree` -/

/-- `destroyConnection` up to the call of `destroyCb`. -/
def LoopyConnPool.callDestroyCb (s : LoopyConnPool) (n : ℕ) : LoopyConnPool :=
  { s with destroyedConns := s.destroyedConns ++ [n] }

/-- `destroyConnection` behind the call of `destroyCb`. -/
def LoopyConnPool.destroyed (s : LoopyConnPool) : LoopyConnPool :=
  { s with totalConns := s.totalConns - 1, totalDestroys := s.totalDestroys + 1 }

/-- The callback that `loopyConnPoolFree` has called. -/
inductive FreePoint
  | destroying (n : ℕ)
  | answering (r : ℕ)
deriving DecidableEq, Repr

/-- The second loop of `loopyConnPoolFree`, up to the next callback; `none` is its end, where the
pool is freed. -/
def LoopyConnPool.drainWait (s : LoopyConnPool) : LoopyConnPool × Option FreePoint :=
  match s.dequeueWaitRequest with
  | (s, none) => (s, none)
  | (s, some r) => ({ s with served := s.served ++ [r] }, some (.answering r))

/-- The first loop, up to the next callback. -/
def LoopyConnPool.drainIdle (s : LoopyConnPool) : LoopyConnPool × Option FreePoint :=
  match s.removeFromIdleList with
  | (s, none) => s.drainWait
  | (s, some n) => (s.callDestroyCb n, some (.destroying n))

/-- `loopyConnPoolFree` goes on behind a callback. -/
def LoopyConnPool.resume (s : LoopyConnPool) : FreePoint → LoopyConnPool × Option FreePoint
  | .destroying _ => s.destroyed.drainIdle
  | .answering _ => s.drainWait

/-! ## The life of a pool -/

/-- Whether the pool has been freed. While `loopyConnPoolFree` runs, `nested` are the connections
that its callbacks have released and whose `destroyCb` runs. -/
inductive Phase
  | alive
  | freeing (point : FreePoint) (nested : List ℕ)
  | freed
deriving DecidableEq, Repr

structure Lifetime where
  pool : LoopyConnPool
  phase : Phase
  fault : Bool

/-- A call of user code or the return of a callback, or `loopyConnPoolFree`. -/
inductive Event
  | action (a : Action)
  | free

/-- `loopyConnPoolFree` has called a callback, or has freed the pool. -/
def Lifetime.enter (s : Lifetime) (r : LoopyConnPool × Option FreePoint) : Lifetime :=
  match r with
  | (pool, some point) => { s with pool, phase := .freeing point [] }
  | (pool, none) => { s with pool, phase := .freed }

/-- A call in a callback of `loopyConnPoolFree`, or the return of one. -/
def freeingStep (s : Lifetime) (point : FreePoint) (nested : List ℕ) : Action → Option Lifetime
  | .acquire _ =>
    some { s with pool := { s.pool with lastError := some "Invalid or destroyed pool" } }
  | .acquireAsync _ _ =>
    some { s with pool := { s.pool with lastError := some "Pool is destroyed" } }
  | .release n _ _ =>
    if n ∈ s.pool.held then
      some { s with
        pool := (s.pool.released n).callDestroyCb n
        phase := .freeing point (n :: nested) }
    else none
  | .healthCheck _ | .cleanupIdle _ | .prewarm _ _ => some s
  | .ret =>
    match nested with
    | _ :: nested => some { s with pool := s.pool.destroyed, phase := .freeing point nested }
    | [] => some (s.enter (s.pool.resume point))

/-- What is left to do when the pool is gone. The functions that go on or are called read the pool
that was freed, but for `loopyConnPoolAcquireAsync`, which returns. -/
def freedStep (s : Lifetime) : Action → Option Lifetime
  | .release n _ _ =>
    if n ∈ s.pool.held then
      some { s with pool := { s.pool with held := s.pool.held.erase n }, fault := true }
    else none
  | .ret =>
    match s.pool.frames with
    | [] => none
    | .acquireAsync :: frames => some { s with pool := { s.pool with frames } }
    | .release :: frames => some { s with pool := { s.pool with frames }, fault := true }
  | .acquire _ | .acquireAsync _ _ | .healthCheck _ | .cleanupIdle _ | .prewarm _ _ => none

def lifeStep (s : Lifetime) (e : Event) : Option Lifetime :=
  match s.phase, e with
  | .alive, .action a => (step s.pool a).map fun pool => { s with pool }
  | .alive, .free => some (s.enter s.pool.drainIdle)
  | .freeing point nested, .action a => freeingStep s point nested a
  | .freed, .action a => freedStep s a
  | .freeing _ _, .free | .freed, .free => none

/-- A new pool. -/
def Lifetime.start (pool : LoopyConnPool) : Lifetime := { pool, phase := .alive, fault := false }

/-- Any runs. -/
abbrev LifeRun : Lifetime → List Event → Lifetime → Prop := Run lifeStep fun _ _ => True

/-! ## The law -/

/-- The freed pool is not touched; when it is freed and all connections have been released, every
user connection has been destroyed once; when it is freed, every request that was not lost has
been answered once. -/
structure Accounted (s : Lifetime) : Prop where
  untouched : s.fault = false
  destroyedOnce : s.phase = .freed → s.pool.held = [] →
    ∀ n < s.pool.userConns, s.pool.destroyedConns.count n = 1
  answeredOnce : s.phase = .freed →
    ∀ r < s.pool.asked, r ∉ s.pool.lost → s.pool.served.count r = 1

/-- The pool is freed, all connections have been released, and all callbacks have returned. -/
structure Finished (s : Lifetime) : Prop where
  freed : s.phase = .freed
  held : s.pool.held = []
  frames : s.pool.frames = []

/-- This event takes `loopyConnPoolFree` to its end. -/
def Lifetime.Ends (s : Lifetime) (e : Event) : Prop :=
  s.pool.waitQueueHead = none ∧
    match s.phase, e with
    | .alive, .free => s.pool.idleConns = none
    | .freeing (.destroying _) [], .action .ret => s.pool.idleConns = none
    | .freeing (.answering _) [], .action .ret => True
    | _, _ => False

/-- When `loopyConnPoolFree` ends no connection is held, and no `loopyConnPoolRelease` waits for
the callback that has freed the pool. -/
def NoneHeld (s : Lifetime) (e : Event) : Prop :=
  s.Ends e → s.pool.held = [] ∧ Frame.release ∉ s.pool.frames

variable {s s' t : Lifetime} {pool pool' : LoopyConnPool} {idle waiting : List ℕ} {n r : ℕ} {e : Event}

/-! ## Places -/

/-- Every user connection is idle, held, or has been destroyed, and it is one of these once. -/
structure Placed (pool : LoopyConnPool) (idle : List ℕ) : Prop where
  chain : Chain pool.next pool.idleConns idle
  nodup : (idle ++ pool.held ++ pool.destroyedConns).Nodup
  bound : ∀ n ∈ idle ++ pool.held ++ pool.destroyedConns, n < pool.userConns
  all : ∀ n < pool.userConns, n ∈ idle ++ pool.held ++ pool.destroyedConns

/-- As many names below a bound as there are. -/
theorem mem_of_length_eq {l : List ℕ} {k : ℕ} (hnodup : l.Nodup) (hbound : ∀ n ∈ l, n < k)
    (hlength : l.length = k) (hn : n < k) : n ∈ l := by
  have hsub : l.Subperm (List.range k) :=
    List.Nodup.subperm hnodup fun m hm => List.mem_range.mpr (hbound m hm)
  have hperm : l.Perm (List.range k) := hsub.perm_of_length_le (by rw [hlength, List.length_range])
  exact hperm.mem_iff.mpr (List.mem_range.mpr hn)

/-- The pool, before `loopyConnPoolFree`. -/
theorem Owned.placed (h : Owned pool idle []) (htally : pool.Tally) : Placed pool idle := by
  have hnodup := h.nodup
  have hbound := h.bound
  have htotal := h.total
  have hcreates := h.creates
  rw [List.append_nil] at hnodup hbound
  unfold LoopyConnPool.Tally at htally
  refine ⟨h.chain, hnodup, hbound, fun n hn => mem_of_length_eq hnodup hbound ?_ hn⟩
  rw [List.length_append, List.length_append]
  rw [List.length_nil] at htotal
  omega

/-- The same connections, in other places. -/
theorem Placed.moved (h : Placed pool idle) {idle' : List ℕ}
    (hchain : Chain pool'.next pool'.idleConns idle')
    (hperm : (idle' ++ pool'.held ++ pool'.destroyedConns).Perm
      (idle ++ pool.held ++ pool.destroyedConns))
    (huser : pool'.userConns = pool.userConns) : Placed pool' idle' where
  chain := hchain
  nodup := hperm.nodup_iff.mpr h.nodup
  bound n hn := by
    rw [huser]
    exact h.bound n (hperm.mem_iff.mp hn)
  all n hn := by
    rw [huser] at hn
    exact hperm.mem_iff.mpr (h.all n hn)

theorem Placed.same (h : Placed pool idle) (hnext : pool'.next = pool.next)
    (hidle : pool'.idleConns = pool.idleConns) (hheld : pool'.held = pool.held)
    (hdestroyed : pool'.destroyedConns = pool.destroyedConns)
    (huser : pool'.userConns = pool.userConns) : Placed pool' idle := by
  refine h.moved ?_ ?_ huser
  · rw [hnext, hidle]
    exact h.chain
  · rw [hheld, hdestroyed]

/-- A held connection is destroyed when it is released. -/
theorem Placed.release (h : Placed pool idle) (hn : n ∈ pool.held) :
    Placed ((pool.released n).callDestroyCb n) idle := by
  have hnext : (pool.setConn n { pool.conn n with inUse := false }).next = pool.next :=
    LoopyConnPool.next_setConn_same rfl
  refine h.moved ?_ ?_ rfl
  · exact (congrArg (Chain · pool.idleConns idle) hnext).mpr h.chain
  · show (idle ++ pool.held.erase n ++ (pool.destroyedConns ++ [n])).Perm _
    have hperm : (pool.held.erase n ++ (pool.destroyedConns ++ [n])).Perm
        (pool.held ++ pool.destroyedConns) := by
      rw [← List.append_assoc]
      refine (List.perm_append_singleton n _).trans ?_
      rw [← List.cons_append]
      exact (List.perm_cons_erase hn).symm.append_right _
    rw [List.append_assoc, List.append_assoc]
    exact hperm.append_left idle

/-! ## The two loops -/

/-- What `loopyConnPoolFree` leaves alone. -/
structure SameHands (pool pool' : LoopyConnPool) : Prop where
  held : pool'.held = pool.held
  frames : pool'.frames = pool.frames

theorem LoopyConnPool.drainWait_some (hhead : pool.waitQueueHead = some r) :
    pool.drainWait = ({ pool with
      waitQueueHead := pool.waitNext r
      waitQueueTail := if pool.waitNext r = none then none else pool.waitQueueTail
      served := pool.served ++ [r] }, some (.answering r)) := by
  unfold drainWait dequeueWaitRequest
  rw [hhead]

theorem LoopyConnPool.drainWait_none (hhead : pool.waitQueueHead = none) :
    pool.drainWait = (pool, none) := by
  unfold drainWait dequeueWaitRequest
  rw [hhead]

theorem LoopyConnPool.drainIdle_some (hhead : pool.idleConns = some n) :
    pool.drainIdle = (LoopyConnPool.callDestroyCb
      { pool.setConn n { pool.conn n with next := none } with
        idleConns := pool.next n
        idleCount := pool.idleCount - 1
        activeCount := pool.activeCount + 1 } n, some (.destroying n)) := by
  unfold drainIdle removeFromIdleList
  rw [hhead]

theorem LoopyConnPool.drainIdle_none (hhead : pool.idleConns = none) :
    pool.drainIdle = pool.drainWait := by
  unfold drainIdle removeFromIdleList
  rw [hhead]

/-- The second loop calls the callback of the first request, or ends with the pool as it is. -/
theorem Queued.drainWait (h : Queued pool waiting) (hplaced : Placed pool []) :
    (∃ r l pool', pool.waitQueueHead = some r ∧ pool.drainWait = (pool', some (.answering r)) ∧
        Placed pool' [] ∧ Queued pool' l ∧ SameHands pool pool') ∨
      pool.waitQueueHead = none ∧ waiting = [] ∧ pool.drainWait = (pool, none) := by
  have hhead : pool.waitQueueHead = waiting.head? := h.chain.head
  cases waiting with
  | nil => exact .inr ⟨hhead, rfl, LoopyConnPool.drainWait_none hhead⟩
  | cons r l =>
    exact .inl ⟨r, l, _, hhead, LoopyConnPool.drainWait_some hhead,
      hplaced.same rfl rfl rfl rfl rfl, h.serve rfl rfl rfl rfl, ⟨rfl, rfl⟩⟩

/-- The first loop calls `destroyCb` for the first idle connection, or goes on to the second. -/
theorem Placed.drainIdle (h : Placed pool idle) (hqueued : Queued pool waiting) :
    (∃ n l pool', pool.idleConns = some n ∧ pool.drainIdle = (pool', some (.destroying n)) ∧
        Placed pool' l ∧ Queued pool' waiting ∧ SameHands pool pool') ∨
      pool.idleConns = none ∧ idle = [] ∧ pool.drainIdle = pool.drainWait := by
  have hhead : pool.idleConns = idle.head? := h.chain.head
  cases idle with
  | nil => exact .inr ⟨hhead, rfl, LoopyConnPool.drainIdle_none hhead⟩
  | cons n l =>
    have hnot : n ∉ l := (List.nodup_cons.mp h.chain.nodup).1
    refine .inl ⟨n, l, _, hhead, LoopyConnPool.drainIdle_some hhead, h.moved ?_ ?_ rfl,
      hqueued.same ⟨rfl, rfl, rfl, rfl, rfl, rfl⟩, ⟨rfl, rfl⟩⟩
    · refine h.chain.tail.congr fun m hm => LoopyConnPool.next_setConn_of_ne ?_
      rintro rfl
      exact hnot hm
    · show (l ++ pool.held ++ (pool.destroyedConns ++ [n])).Perm _
      rw [← List.append_assoc]
      exact List.perm_append_singleton n _

/-- Where everything is, in each phase. -/
def LifeInv (s : Lifetime) : Prop :=
  match s.phase with
  | .alive => (∃ idle, Owned s.pool idle []) ∧ s.pool.Tally ∧ ∃ waiting, Queued s.pool waiting
  | .freeing point _ => ∃ idle waiting, Placed s.pool idle ∧ Queued s.pool waiting ∧
      ∀ r, point = .answering r → idle = []
  | .freed => (s.fault = false → Placed s.pool []) ∧ Queued s.pool []

/-- `loopyConnPoolFree` ends exactly if nothing is left in either list. -/
theorem LifeInv.enter_drainWait (s : Lifetime) (h : Placed pool []) (hqueued : Queued pool waiting) :
    LifeInv (s.enter pool.drainWait) ∧ (s.enter pool.drainWait).fault = s.fault ∧
      SameHands pool (s.enter pool.drainWait).pool ∧
      ((s.enter pool.drainWait).phase = .freed ↔ pool.waitQueueHead = none) := by
  obtain ⟨r, l, pool', hhead, hdrain, hplaced', hqueued', hsame⟩ | ⟨hhead, rfl, hdrain⟩ :=
    hqueued.drainWait h
  · rw [hdrain]
    refine ⟨⟨[], l, hplaced', hqueued', fun _ _ => rfl⟩, rfl, hsame, ?_⟩
    rw [hhead]
    exact iff_of_false nofun nofun
  · rw [hdrain]
    exact ⟨⟨fun _ => h, hqueued⟩, rfl, ⟨rfl, rfl⟩, iff_of_true rfl hhead⟩

theorem LifeInv.enter_drainIdle (s : Lifetime) (h : Placed pool idle)
    (hqueued : Queued pool waiting) :
    LifeInv (s.enter pool.drainIdle) ∧ (s.enter pool.drainIdle).fault = s.fault ∧
      SameHands pool (s.enter pool.drainIdle).pool ∧
      ((s.enter pool.drainIdle).phase = .freed ↔
        pool.waitQueueHead = none ∧ pool.idleConns = none) := by
  obtain ⟨n, l, pool', hhead, hdrain, hplaced', hqueued', hsame⟩ | ⟨hhead, rfl, hdrain⟩ :=
    h.drainIdle hqueued
  · rw [hdrain]
    refine ⟨⟨l, waiting, hplaced', hqueued', nofun⟩, rfl, hsame, ?_⟩
    rw [hhead]
    exact iff_of_false nofun fun hboth => nomatch hboth.2
  · rw [hdrain, hhead]
    obtain ⟨hinv, hfault, hsame, hfreed⟩ := LifeInv.enter_drainWait s h hqueued
    exact ⟨hinv, hfault, hsame, hfreed.trans ⟨fun hnone => ⟨hnone, rfl⟩, fun hboth => hboth.1⟩⟩

/-! ## Steps -/

/-- A step, before, at and after the end of `loopyConnPoolFree`. -/
inductive Moves (s s' : Lifetime) (e : Event) : Prop
  | before (hends : ¬s.Ends e) (hphase : s.phase ≠ .freed) (hphase' : s'.phase ≠ .freed)
      (hfault : s'.fault = s.fault)
  | ends (hends : s.Ends e) (hphase : s.phase ≠ .freed) (hphase' : s'.phase = .freed)
      (hfault : s'.fault = s.fault) (hsame : SameHands s.pool s'.pool)
  | returns (hends : ¬s.Ends e) (hphase : s.phase = .freed) (hphase' : s'.phase = .freed)
      (hfault : s'.fault = s.fault) (hheld : s'.pool.held = s.pool.held)
      (hframes : s.pool.frames = .acquireAsync :: s'.pool.frames)
  | touches (hends : ¬s.Ends e) (hphase : s.phase = .freed) (hphase' : s'.phase = .freed)
      (hfault : s'.fault = true)
      (howed : s.pool.held ≠ [] ∨ .release ∈ s.pool.frames)

theorem Moves.of_iff (hphase : s.phase ≠ .freed) (hfault : s'.fault = s.fault)
    (hsame : SameHands s.pool s'.pool) (hfreed : s'.phase = .freed ↔ s.Ends e) : Moves s s' e := by
  by_cases hends : s.Ends e
  · exact .ends hends hphase (hfreed.mpr hends) hfault hsame
  · exact .before hends hphase (fun hphase' => hends (hfreed.mp hphase')) hfault

variable {fault validateCb : Bool} {a : Action} {config : LoopyConnPoolConfig} {answers : Answers}

/-- The calls in a callback of `loopyConnPoolFree` move no connection to the idle list and no request
to the queue. -/
theorem LifeInv.freeingStep {point : FreePoint} {nested : List ℕ}
    (h : LifeInv ⟨pool, .freeing point nested, fault⟩)
    (hstep : ConnPool.freeingStep ⟨pool, .freeing point nested, fault⟩ point nested a = some s') :
    LifeInv s' ∧ Moves ⟨pool, .freeing point nested, fault⟩ s' (.action a) := by
  obtain ⟨idle, waiting, hplaced, hqueued, hpoint⟩ := h
  -- within the callback, or behind one that is nested in it
  have hstay {pool' : LoopyConnPool} {nested' : List ℕ} (hplaced' : Placed pool' idle)
      (hqueued' : Queued pool' waiting)
      (hends : ¬Lifetime.Ends ⟨pool, .freeing point nested, fault⟩ (.action a)) :
      LifeInv ⟨pool', .freeing point nested', fault⟩ ∧
        Moves ⟨pool, .freeing point nested, fault⟩ ⟨pool', .freeing point nested', fault⟩
          (.action a) :=
    ⟨⟨idle, waiting, hplaced', hqueued', hpoint⟩, .before hends nofun nofun rfl⟩
  have hcall (ha : a ≠ .ret) :
      ¬Lifetime.Ends ⟨pool, .freeing point nested, fault⟩ (.action a) := by
    rintro ⟨-, hend⟩
    cases a <;> cases nested <;> cases point <;> first | exact hend | exact ha rfl
  cases a with
  | acquire answers | acquireAsync answers alloc =>
    obtain rfl := Option.some.inj hstep
    exact hstay (hplaced.same rfl rfl rfl rfl rfl) (hqueued.same ⟨rfl, rfl, rfl, rfl, rfl, rfl⟩)
      (hcall nofun)
  | healthCheck answers | cleanupIdle answers | prewarm count answers =>
    obtain rfl := Option.some.inj hstep
    exact hstay hplaced hqueued (hcall nofun)
  | release n healthy answers =>
    obtain ⟨hn, rfl⟩ := of_guard hstep
    exact hstay (hplaced.release hn) (hqueued.same ⟨rfl, rfl, rfl, rfl, rfl, rfl⟩) (hcall nofun)
  | ret =>
    cases nested with
    | cons n nested =>
      obtain rfl := Option.some.inj hstep
      refine hstay (hplaced.same rfl rfl rfl rfl rfl)
        (hqueued.same ⟨rfl, rfl, rfl, rfl, rfl, rfl⟩) ?_
      rintro ⟨-, hend⟩
      cases point <;> exact hend
    | nil =>
      obtain rfl := Option.some.inj hstep
      cases point with
      | destroying n =>
        have hplaced' : Placed pool.destroyed idle := hplaced.same rfl rfl rfl rfl rfl
        have hqueued' : Queued pool.destroyed waiting :=
          hqueued.same ⟨rfl, rfl, rfl, rfl, rfl, rfl⟩
        obtain ⟨hinv, hfault, hsame, hfreed⟩ := LifeInv.enter_drainIdle
          ⟨pool, .freeing (.destroying n) [], fault⟩ hplaced' hqueued'
        exact ⟨hinv, .of_iff nofun hfault ⟨hsame.held, hsame.frames⟩ hfreed⟩
      | answering r =>
        obtain rfl := hpoint r rfl
        obtain ⟨hinv, hfault, hsame, hfreed⟩ := LifeInv.enter_drainWait
          ⟨pool, .freeing (.answering r) [], fault⟩ hplaced hqueued
        exact ⟨hinv, .of_iff nofun hfault hsame
          (hfreed.trans ⟨fun hnone => ⟨hnone, trivial⟩, fun hends => hends.1⟩)⟩

/-- Behind the end of `loopyConnPoolFree`. -/
theorem LifeInv.freedStep (h : LifeInv ⟨pool, .freed, fault⟩)
    (hstep : ConnPool.freedStep ⟨pool, .freed, fault⟩ a = some s') :
    LifeInv s' ∧ Moves ⟨pool, .freed, fault⟩ s' (.action a) := by
  obtain ⟨hplaced, hqueued⟩ := h
  have hends : ¬Lifetime.Ends ⟨pool, .freed, fault⟩ (.action a) := fun hend => hend.2
  cases a with
  | acquire answers => cases hstep
  | acquireAsync answers alloc => cases hstep
  | healthCheck answers => cases hstep
  | cleanupIdle answers => cases hstep
  | prewarm count answers => cases hstep
  | release n healthy answers =>
    obtain ⟨hn, rfl⟩ := of_guard hstep
    refine ⟨⟨(fun hfault => nomatch hfault), hqueued.same ⟨rfl, rfl, rfl, rfl, rfl, rfl⟩⟩,
      .touches hends rfl rfl rfl (.inl ?_)⟩
    exact List.ne_nil_of_mem hn
  | ret =>
    rw [ConnPool.freedStep] at hstep
    split at hstep
    · cases hstep
    · next frames hframes =>
      obtain rfl := Option.some.inj hstep
      exact ⟨⟨fun hfault => (hplaced hfault).same rfl rfl rfl rfl rfl,
        hqueued.same ⟨rfl, rfl, rfl, rfl, rfl, rfl⟩⟩, .returns hends rfl rfl rfl rfl hframes⟩
    · next frames hframes =>
      obtain rfl := Option.some.inj hstep
      refine ⟨⟨(fun hfault => nomatch hfault), hqueued.same ⟨rfl, rfl, rfl, rfl, rfl, rfl⟩⟩,
        .touches hends rfl rfl rfl (.inr ?_)⟩
      exact List.mem_of_mem_head? (by rw [hframes]; rfl)

/-- Every step keeps the invariant and is one of the four. -/
theorem LifeInv.step (h : LifeInv s) (hstep : lifeStep s e = some s') :
    LifeInv s' ∧ Moves s s' e := by
  obtain ⟨pool, phase, fault⟩ := s
  cases phase with
  | alive =>
    obtain ⟨⟨idle, howned⟩, htally, ⟨waiting, hqueued⟩⟩ := h
    cases e with
    | action a =>
      obtain ⟨pool', hpool, rfl⟩ := Option.map_eq_some_iff.mp hstep
      exact ⟨⟨howned.step hpool, htally.step hpool, hqueued.step hpool⟩,
        .before (fun hend => hend.2) nofun nofun rfl⟩
    | free =>
      obtain rfl := Option.some.inj hstep
      obtain ⟨hinv, hfault, hsame, hfreed⟩ := LifeInv.enter_drainIdle ⟨pool, .alive, fault⟩
        (howned.placed htally) hqueued
      exact ⟨hinv, .of_iff nofun hfault hsame hfreed⟩
  | freeing point nested =>
    cases e with
    | action a => exact h.freeingStep hstep
    | free => cases hstep
  | freed =>
    cases e with
    | action a => exact h.freedStep hstep
    | free => cases hstep

/-- Nothing will touch the freed pool. -/
def Clean (s : Lifetime) : Prop :=
  s.fault = false ∧ (s.phase = .freed → s.pool.held = [] ∧ Frame.release ∉ s.pool.frames)

/-- Nothing will touch it exactly if nothing is owed to it when it is freed. -/
theorem Moves.clean_iff (h : Moves s s' e) : Clean s' ↔ Clean s ∧ NoneHeld s e := by
  unfold Clean NoneHeld
  cases h with
  | before hends hphase hphase' hfault =>
    rw [hfault]
    exact ⟨fun hclean => ⟨⟨hclean.1, fun hfreed => absurd hfreed hphase⟩,
      fun hend => absurd hend hends⟩, fun hclean => ⟨hclean.1.1, fun hfreed => absurd hfreed hphase'⟩⟩
  | ends hends hphase hphase' hfault hsame =>
    rw [hfault, hsame.held, hsame.frames]
    exact ⟨fun hclean => ⟨⟨hclean.1, fun hfreed => absurd hfreed hphase⟩,
      fun _ => hclean.2 hphase'⟩, fun hclean => ⟨hclean.1.1, fun _ => hclean.2 hends⟩⟩
  | returns hends hphase hphase' hfault hheld hframes =>
    rw [hfault, hheld, hframes, List.mem_cons, not_or]
    exact ⟨fun hclean => ⟨⟨hclean.1, fun _ => ⟨(hclean.2 hphase').1, nofun, (hclean.2 hphase').2⟩⟩,
      fun hend => absurd hend hends⟩,
      fun hclean => ⟨hclean.1.1, fun _ => ⟨(hclean.1.2 hphase).1, (hclean.1.2 hphase).2.2⟩⟩⟩
  | touches hends hphase hphase' hfault howed =>
    refine iff_of_false (fun hclean => ?_) fun hclean => ?_
    · rw [hfault] at hclean
      cases hclean.1
    · obtain ⟨hheld, hframes⟩ := hclean.1.2 hphase
      exact howed.elim (fun hne => hne hheld) hframes

/-! ## Runs -/

theorem LifeInv.start (hnew : LoopyConnPool.new config validateCb answers = some pool) :
    LifeInv (.start pool) := by
  obtain ⟨idle, waiting, hserve⟩ := ServeInv.new hnew
  exact ⟨⟨idle, hserve.owned⟩, .new hnew, ⟨waiting, hserve.queue.toQueued⟩⟩

theorem LifeInv.accounted (h : LifeInv s) (hfault : s.fault = false) : Accounted s := by
  obtain ⟨pool, phase, fault⟩ := s
  refine ⟨hfault, ?_, ?_⟩
  · rintro rfl hheld n hn
    have hplaced := h.1 hfault
    have hmem := hplaced.all n hn
    have hnodup := hplaced.nodup
    rw [hheld, List.nil_append, List.nil_append] at hmem hnodup
    exact List.count_eq_one_of_mem hnodup hmem
  · rintro rfl r hr hlost
    have hqueued := h.2
    have hnodup := hqueued.nodup
    rw [List.append_nil] at hnodup
    obtain hserved | hwaits | hlose := hqueued.all r hr
    · exact List.count_eq_one_of_mem hnodup hserved
    · cases hwaits
    · exact absurd hlose hlost

/-- **The end of a pool**: on every run in which no connection is held, and no release waits for a
callback, when `loopyConnPoolFree` ends, the freed pool is not touched and everything is accounted
for; and a run that has come to its end without touching the freed pool is such a run. -/
theorem accounted_iff {config : LoopyConnPoolConfig} {validateCb : Bool} {answers : Answers}
    (hnew : LoopyConnPool.new config validateCb answers = some pool) {es : List Event}
    (hrun : LifeRun (.start pool) es t) :
    (Run lifeStep NoneHeld (.start pool) es t → Accounted t) ∧
      (Finished t → (Accounted t ↔ Run lifeStep NoneHeld (.start pool) es t)) := by
  have hinv : LifeInv t := hrun.invariant (fun _ _ _ h _ hstep => (h.step hstep).1) (.start hnew)
  have hclean : Clean t ↔ Run lifeStep NoneHeld (.start pool) es t := by
    have hwithin : Clean t ↔ Run lifeStep (fun s e => True ∧ NoneHeld s e) (.start pool) es t :=
      hrun.clean_iff_within (P := LifeInv) (fun _ _ _ h _ hstep => (h.step hstep).1)
        (fun _ _ _ h _ hstep => (h.step hstep).2.clean_iff) (.start hnew) ⟨rfl, nofun⟩
    exact hwithin.trans ⟨fun h => h.mono fun _ _ hok => hok.2,
      fun h => h.mono fun _ _ hok => ⟨trivial, hok⟩⟩
  refine ⟨fun hok => hinv.accounted (hclean.mpr hok).1, fun hfinished => ?_⟩
  rw [← hclean]
  constructor
  · intro haccounted
    refine ⟨haccounted.untouched, fun _ => ⟨hfinished.held, ?_⟩⟩
    rw [hfinished.frames]
    exact List.not_mem_nil
  · intro hclean
    exact hinv.accounted hclean.1

/-- A run from a new pool of which the execution shows a part of the last state. -/
theorem lifeRun_of_exec_map {es : List Event} {β : Type} {f : Lifetime → β} {b : β}
    (h : ((LoopyConnPool.new config validateCb answers).bind fun pool =>
      exec lifeStep (fun _ _ => True) (.start pool) es).map f = some b) :
    ∃ pool t, LoopyConnPool.new config validateCb answers = some pool ∧
      LifeRun (.start pool) es t ∧ f t = b := by
  obtain ⟨t, ht, hb⟩ := Option.map_eq_some_iff.mp h
  obtain ⟨pool, hnew, ht⟩ := Option.bind_eq_some_iff.mp ht
  exact ⟨pool, t, hnew, Run.iff_exec.mpr ht, hb⟩

/-- Two connections are held and a request waits when the pool is freed; the callback of the request
releases both. -/
def releasedInTime : List Event :=
  [.action (.acquire goodAnswers), .action (.acquireAsync goodAnswers true),
    .action (.acquireAsync goodAnswers true), .action .ret, .free,
    .action (.acquireAsync goodAnswers true), .action (.release 0 true goodAnswers),
    .action (.release 1 true goodAnswers), .action .ret, .action .ret, .action .ret]

theorem accounted_iff_releasedInTime :
    ∃ pool t, LoopyConnPool.new smallConfig true goodAnswers = some pool ∧
      LifeRun (.start pool) releasedInTime t ∧ Finished t ∧
      Run lifeStep NoneHeld (.start pool) releasedInTime t ∧ Accounted t := by
  have hexec : ((LoopyConnPool.new smallConfig true goodAnswers).bind fun pool =>
      exec lifeStep (fun _ _ => True) (.start pool) releasedInTime).map
        (fun t => (t.phase, t.pool.held, t.pool.frames, t.fault)) =
      some (.freed, [], [], false) := by decide +kernel
  obtain ⟨pool, t, hnew, hrun, hval⟩ := lifeRun_of_exec_map hexec
  simp only [Prod.mk.injEq] at hval
  obtain ⟨hphase, hheld, hframes, hfault⟩ := hval
  have hfinished : Finished t := ⟨hphase, hheld, hframes⟩
  have hinv : LifeInv t :=
    hrun.invariant (fun _ _ _ h _ hstep => (h.step hstep).1) (.start hnew)
  have haccounted := hinv.accounted hfault
  exact ⟨pool, t, hnew, hrun, hfinished, ((accounted_iff hnew hrun).2 hfinished).mp haccounted,
    haccounted⟩

/-- A connection that is held when the pool is freed, and released then. -/
def releasedLate : List Event :=
  [.action (.acquire goodAnswers), .free, .action (.release 0 true goodAnswers)]

/-- The release reads the freed pool. -/
theorem late_release_faults :
    ¬ ∀ (pool : LoopyConnPool) (es : List Event) (t : Lifetime),
      LoopyConnPool.new smallConfig true goodAnswers = some pool →
      LifeRun (.start pool) es t → Finished t → Accounted t := by
  intro hall
  have hexec : ((LoopyConnPool.new smallConfig true goodAnswers).bind fun pool =>
      exec lifeStep (fun _ _ => True) (.start pool) releasedLate).map
        (fun t => (t.phase, t.pool.held, t.pool.frames, t.fault)) =
      some (.freed, [], [], true) := by decide +kernel
  obtain ⟨pool, t, hnew, hrun, hval⟩ := lifeRun_of_exec_map hexec
  simp only [Prod.mk.injEq] at hval
  obtain ⟨hphase, hheld, hframes, hfault⟩ := hval
  have haccounted := hall pool releasedLate t hnew hrun ⟨hphase, hheld, hframes⟩
  rw [haccounted.untouched] at hfault
  cases hfault

end Loopy.ConnPool
