import Loopy.ConnPool.Ownership

/-!
# `loopyConnPool.c`: the active count

`removeFromIdleList` counts a connection as active, and the functions that take it from a caller
count it off. `loopyConnPoolAcquire` destroys a connection that it has taken from the idle list and
that is no good, and does not count it off: the count then stays above the number of connections
that callers hold (`active_count`).
-/

namespace Loopy.ConnPool

open Loopy.Lib

/-- `loopyConnPoolGetActiveCount` is the number of connections that callers hold, and the other
connections are idle. -/
structure ActiveLaw (s : LoopyConnPool) : Prop where
  active : s.activeCount.toNat = s.held.length
  total : s.totalConns = s.idleCount + s.activeCount.toNat

/-- The first idle connection fails its validation or is too old. -/
def LoopyConnPool.stale (s : LoopyConnPool) (answers : Answers) : Bool :=
  match s.idleConns with
  | none => false
  | some n =>
    !s.validateConnection (answers.validate n) || s.isConnectionExpired n (answers.checked n)

/-- Where a connection is acquired, the first idle one is good. -/
def Fresh (s : LoopyConnPool) : Action → Prop
  | .acquire answers | .acquireAsync answers _ => s.stale answers = false
  | .release .. | .healthCheck _ | .cleanupIdle _ | .prewarm .. | .ret => True

instance (s : LoopyConnPool) : ∀ a, Decidable (Fresh s a)
  | .acquire answers | .acquireAsync answers _ =>
    inferInstanceAs (Decidable (s.stale answers = false))
  | .release .. | .healthCheck _ | .cleanupIdle _ | .prewarm .. | .ret => isTrue trivial

/-! ## The balance -/

/-- From `s` to `s'` the active count has grown by `surplus` more than the connections that are
held. -/
structure Balanced (s s' : LoopyConnPool) (surplus : ℕ) : Prop where
  config : s'.config = s.config
  active : (s'.activeCount.toNat + s.held.length) % 2 ^ 32 =
    (s.activeCount.toNat + s'.held.length + surplus) % 2 ^ 32

section balance

variable {s s' s'' : LoopyConnPool} {idle : List ℕ} {n surplus surplus' : ℕ}

theorem Balanced.same (hconfig : s'.config = s.config) (hactive : s'.activeCount = s.activeCount)
    (hheld : s'.held = s.held) : Balanced s s' 0 := ⟨hconfig, by rw [hactive, hheld, Nat.add_zero]⟩

theorem Balanced.trans (h : Balanced s s' surplus) (h' : Balanced s' s'' surplus') :
    Balanced s s'' (surplus + surplus') := by
  refine ⟨h'.config.trans h.config, ?_⟩
  have hfirst := h.active
  have hsecond := h'.active
  omega

/-- Behind it nothing changes the count. -/
theorem Balanced.then (h : Balanced s s' surplus) (hconfig : s''.config = s'.config)
    (hactive : s''.activeCount = s'.activeCount) (hheld : s''.held = s'.held) :
    Balanced s s'' surplus := h.trans (.same hconfig hactive hheld)

/-- A connection is counted. -/
theorem Balanced.counts (hconfig : s'.config = s.config)
    (hactive : s'.activeCount = s.activeCount + 1) (hheld : s'.held = s.held) :
    Balanced s s' 1 := by
  refine ⟨hconfig, ?_⟩
  rw [hactive, hheld, UInt32.toNat_add]
  have hone : (1 : UInt32).toNat = 1 := rfl
  omega

/-- What was acquired is handed to the caller. -/
theorem Balanced.hand {conn : Option ℕ} (h : Balanced s s' (surplus + conn.toList.length)) :
    Balanced s { s' with held := conn.toList ++ s'.held } surplus := by
  refine ⟨h.config, ?_⟩
  have hactive := h.active
  dsimp only
  rw [List.length_append]
  omega

/-- A connection that was taken from a caller is counted off. -/
theorem Balanced.discounts (h : Balanced s s' (surplus + 1)) :
    Balanced s { s' with activeCount := s'.activeCount - 1 } surplus := by
  refine ⟨h.config, ?_⟩
  have hactive := h.active
  have hsub : (s'.activeCount - 1).toNat = (2 ^ 32 - 1 + s'.activeCount.toNat) % 2 ^ 32 :=
    UInt32.toNat_sub ..
  dsimp only
  omega

namespace LoopyConnPool

theorem createConnection_balanced (s : LoopyConnPool) (r : CreateResult)
    (now : UInt64) : Balanced s (s.createConnection r now).1 0 := by
  unfold createConnection
  split
  · exact .same rfl rfl rfl
  · cases r <;> exact .same rfl rfl rfl

theorem enqueueWaitRequest_balanced (s : LoopyConnPool) (r : ℕ) (alloc : Bool) :
    Balanced s (s.enqueueWaitRequest r alloc) 0 := by
  unfold enqueueWaitRequest
  dsimp only
  repeat' split
  all_goals exact .same rfl rfl rfl

theorem unlink_balanced (s : LoopyConnPool) (prev : Option ℕ) (n : ℕ) :
    Balanced s (s.unlink prev n) 0 := by
  unfold unlink
  cases prev <;> exact .same rfl rfl rfl

theorem sweep_balanced {doomed : LoopyConnPool → ℕ → Bool}
    {drop : LoopyConnPool → ℕ → LoopyConnPool} (hdrop : ∀ s n, Balanced s (drop s n) 0) (fuel : ℕ)
    (s : LoopyConnPool) (prev curr : Option ℕ) (count : ℕ) :
    Balanced s (sweep doomed drop fuel s prev curr count).1 0 := by
  apply sweep_keeps (P := fun t => Balanced s t 0) ?_ fuel prev curr count (.same rfl rfl rfl)
  intro t prev n ht
  exact (ht.trans (t.unlink_balanced prev n)).trans (hdrop _ n)

theorem prewarmLoop_balanced (answers : Answers) (count : ℕ) (s : LoopyConnPool)
    (i : ℕ) : Balanced s (prewarmLoop answers count s i).1 0 := by
  apply prewarmLoop_keeps (P := fun t => Balanced s t 0) ?_ ?_ count i (.same rfl rfl rfl)
  · intro t t' i ht hnone
    have hcreate := t.createConnection_balanced (answers.create i) (answers.createdAt i)
    rw [hnone] at hcreate
    exact ht.trans hcreate
  · intro t t' i n ht hsome
    have hcreate := t.createConnection_balanced (answers.create i) (answers.createdAt i)
    rw [hsome] at hcreate
    have hadd : Balanced t' (t'.addToIdleList n) 0 := .same rfl rfl rfl
    exact (ht.trans hcreate).trans hadd

/-! ## Acquire -/

theorem isConnectionExpired_congr {now : UInt64} (hconfig : s'.config = s.config)
    (htime : (s'.conn n).createTime = (s.conn n).createTime) :
    s.isConnectionExpired n now = s'.isConnectionExpired n now := by
  rw [isConnectionExpired, isConnectionExpired, hconfig, htime]

end LoopyConnPool

/-- The first idle connection is counted as active. -/
theorem Owned.takes (h : Owned s (n :: idle) []) :
    ∃ s', s.removeFromIdleList = (s', some n) ∧ Owned s' idle [n] ∧ Balanced s s' 1 ∧
      (∀ answers : Answers, s.stale answers =
        (!s'.validateConnection (answers.validate n) ||
          s'.isConnectionExpired n (answers.checked n))) := by
  obtain ⟨s', hremove, howned⟩ := h.removeFromIdleList
  have hhead : s.idleConns = some n := h.chain.head
  have heq := hremove
  rw [LoopyConnPool.removeFromIdleList, hhead] at heq
  have hs := (Prod.mk.inj heq).1
  have hconfig : s'.config = s.config := hs ▸ rfl
  have hvalidate : s'.validateConnection = s.validateConnection := hs ▸ rfl
  have htime : (s'.conn n).createTime = (s.conn n).createTime := by
    have hself := congrArg LoopyConnPoolConn.createTime
      (Function.update_self n { s.conn n with next := none } s.conn)
    rw [← hs]
    exact hself
  refine ⟨s', hremove, howned, ?_, fun answers => ?_⟩
  · rw [← hs]
    exact .counts rfl rfl rfl
  · rw [LoopyConnPool.stale, hhead, hvalidate, ← LoopyConnPool.isConnectionExpired_congr hconfig htime]

/-- The loop leaves every connection that it destroys counted, and it destroys none exactly if the
first one is good. -/
theorem Owned.acquireIdle_balanced (h : Owned s idle []) (answers : Answers) {fuel : ℕ}
    (hfuel : idle.length ≤ fuel) :
    ∃ stale ≤ idle.length, Balanced s (LoopyConnPool.acquireIdle answers fuel s).1
        (stale + (LoopyConnPool.acquireIdle answers fuel s).2.toList.length) ∧
      (stale = 0 ↔ s.stale answers = false) := by
  -- every round takes one connection off the list
  induction fuel generalizing s idle with
  | zero =>
    obtain rfl := List.eq_nil_of_length_eq_zero (Nat.le_zero.mp hfuel)
    have hhead : s.idleConns = none := h.chain.head
    refine ⟨0, Nat.le_refl 0, .same rfl rfl rfl, iff_of_true rfl ?_⟩
    rw [LoopyConnPool.stale, hhead]
  | succ fuel ih =>
    cases idle with
    | nil =>
      have hhead : s.idleConns = none := h.chain.head
      have hnone : s.removeFromIdleList = (s, none) := by
        rw [LoopyConnPool.removeFromIdleList, hhead]
      rw [LoopyConnPool.acquireIdle, hnone]
      refine ⟨0, Nat.le_refl 0, .same rfl rfl rfl, iff_of_true rfl ?_⟩
      rw [LoopyConnPool.stale, hhead]
    | cons n idle =>
      obtain ⟨s', hremove, howned, hbalanced, hstale⟩ := h.takes
      have hlength : idle.length ≤ fuel := Nat.le_of_succ_le_succ hfuel
      -- what is destroyed stays counted, and the loop goes on
      have hgoes (t : LoopyConnPool) (ht : Owned t idle []) (hsame : Balanced s' t 0)
          (hbad : s.stale answers = true) :
          ∃ stale ≤ (n :: idle).length, Balanced s (LoopyConnPool.acquireIdle answers fuel t).1
              (stale + (LoopyConnPool.acquireIdle answers fuel t).2.toList.length) ∧
            (stale = 0 ↔ s.stale answers = false) := by
        obtain ⟨stale, hle, hrest, -⟩ := ih ht hlength
        refine ⟨stale + 1, Nat.succ_le_succ hle, ?_, ?_⟩
        · have hall := (hbalanced.trans hsame).trans hrest
          rw [Nat.add_zero, ← Nat.add_assoc, Nat.add_comm 1 stale] at hall
          exact hall
        · rw [hbad]
          exact iff_of_false (Nat.succ_ne_zero stale) Bool.false_ne_true.symm
      rw [LoopyConnPool.acquireIdle, hremove]
      dsimp only
      split
      · next hinvalid =>
        have hfailed : Owned
            { s' with totalValidationFailures := s'.totalValidationFailures + 1 } idle [n] :=
          ⟨howned.chain, howned.idleCount, howned.nodup, howned.bound, howned.total, howned.le,
            howned.creates⟩
        refine hgoes _ hfailed.destroyConnection (.same rfl rfl rfl) ?_
        rw [hstale, hinvalid]
        rfl
      · next hvalid =>
        have hgood : s'.validateConnection (answers.validate n) = true :=
          Bool.of_not_eq_false hvalid
        split
        · next hexpired =>
          refine hgoes _ howned.destroyConnection (.same rfl rfl rfl) ?_
          rw [hstale, hgood, hexpired]
          rfl
        · next hyoung =>
          refine ⟨0, Nat.zero_le _, hbalanced, iff_of_true rfl ?_⟩
          rw [hstale, hgood, Bool.of_not_eq_true hyoung]
          rfl

theorem LoopyConnPool.acquireFound_balanced (s : LoopyConnPool) (found : Option ℕ)
    (answers : Answers) : ∃ made, Balanced s (s.acquireFound found answers).1 made ∧
      found.toList.length + made = (s.acquireFound found answers).2.toList.length := by
  unfold acquireFound
  cases found with
  | some n => exact ⟨0, .same rfl rfl rfl, rfl⟩
  | none =>
    have hcreate := s.createConnection_balanced (answers.create 0) (answers.createdAt 0)
    dsimp only
    split
    · next s' hs =>
      rw [hs] at hcreate
      exact ⟨0, hcreate.then rfl rfl rfl, rfl⟩
    · next s' n hs =>
      rw [hs] at hcreate
      exact ⟨0 + 1, hcreate.trans (.counts rfl rfl rfl), rfl⟩

theorem Owned.acquire_balanced (h : Owned s idle []) (answers : Answers) :
    ∃ stale ≤ idle.length, Balanced s (s.acquire answers).1
        (stale + (s.acquire answers).2.toList.length) ∧
      (stale = 0 ↔ s.stale answers = false) := by
  obtain ⟨stale, hle, hloop, hstale⟩ := h.acquireIdle_balanced answers h.length_le
  obtain ⟨made, hfound, hmade⟩ := LoopyConnPool.acquireFound_balanced
    (LoopyConnPool.acquireIdle answers s.userConns s).1
    (LoopyConnPool.acquireIdle answers s.userConns s).2 answers
  refine ⟨stale, hle, ?_, hstale⟩
  have hall := hloop.trans hfound
  rw [Nat.add_assoc, hmade] at hall
  exact hall

theorem Owned.acquireAsync_balanced (h : Owned s idle []) (answers : Answers) (alloc : Bool) :
    ∃ stale ≤ idle.length, Balanced s (s.acquireAsync answers alloc) stale ∧
      (stale = 0 ↔ s.stale answers = false) := by
  have hasked : Owned { s with asked := s.asked + 1 } idle [] :=
    ⟨h.chain, h.idleCount, h.nodup, h.bound, h.total, h.le, h.creates⟩
  have hcount : Balanced s { s with asked := s.asked + 1 } 0 := .same rfl rfl rfl
  unfold LoopyConnPool.acquireAsync
  dsimp only
  split
  · obtain ⟨stale, hle, hacquired, hstale⟩ := hasked.acquire_balanced answers
    refine ⟨stale, hle, ?_, hstale⟩
    have hall := hcount.trans hacquired
    rw [Nat.zero_add] at hall
    exact hall.hand.then rfl rfl rfl
  · next hnone =>
    -- a request waits only when nothing is idle
    refine ⟨0, Nat.zero_le _, ?_, iff_of_true rfl ?_⟩
    · exact (hcount.trans (LoopyConnPool.enqueueWaitRequest_balanced ..)).then rfl rfl rfl
    · have hhead : s.idleConns = none := by
        rw [Bool.or_eq_true, not_or, Option.not_isSome_iff_eq_none] at hnone
        exact hnone.1
      rw [LoopyConnPool.stale, hhead]

/-! ## Release -/

/-- A connection in the hands of `loopyConnPoolRelease` is still counted. -/
theorem LoopyConnPool.released_balanced (hn : n ∈ s.held) : Balanced s (s.released n) (0 + 1) := by
  refine ⟨rfl, ?_⟩
  have hlength := List.length_erase_of_mem hn
  have hpos := List.length_pos_of_mem hn
  show (s.activeCount.toNat + s.held.length) % 2 ^ 32 =
    (s.activeCount.toNat + (s.held.erase n).length + (0 + 1)) % 2 ^ 32
  congr 1
  omega

theorem Balanced.releaseBroken (h : Balanced s s' (surplus + 1)) (n : ℕ) (answers : Answers) :
    Balanced s (s'.releaseBroken n answers) surplus := by
  have hgone : Balanced s ({ s' with activeCount := s'.activeCount - 1 }.destroyConnection n)
      surplus := h.discounts.then rfl rfl rfl
  unfold LoopyConnPool.releaseBroken
  dsimp only
  split
  · have hnew := hgone.trans (LoopyConnPool.createConnection_balanced _ (answers.create 0)
      (answers.createdAt 0))
    split
    · next t ht =>
      rw [ht] at hnew
      exact hnew
    · next t m ht =>
      rw [ht] at hnew
      exact hnew.then rfl rfl rfl
  · exact hgone

theorem Balanced.releaseGood (h : Balanced s s' (surplus + 1)) (n : ℕ) (answers : Answers) :
    Balanced s (s'.releaseGood n answers) surplus := by
  cases hhead : s'.waitQueueHead with
  | none =>
    rw [LoopyConnPool.releaseGood_none hhead]
    exact h.discounts.then rfl rfl rfl
  | some r =>
    -- the connection goes from one caller to another
    rw [LoopyConnPool.releaseGood_some hhead]
    have hhand : Balanced s { s' with held := (some n).toList ++ s'.held } surplus := .hand h
    exact hhand.then rfl rfl rfl

theorem LoopyConnPool.release_balanced (hn : n ∈ s.held) (healthy : Bool) (answers : Answers) :
    Balanced s (s.release n healthy answers) 0 := by
  have hreleased := released_balanced hn
  rw [release_eq]
  split
  · exact hreleased.releaseBroken n answers
  · exact hreleased.releaseGood n answers

end balance

/-! ## Runs -/

section runs

variable {s s' : LoopyConnPool} {idle : List ℕ} {a : Action}

/-- **A step** counts too many what it destroys in an acquire, and nothing else. -/
theorem Owned.step_balanced (h : Owned s idle []) (hstep : ConnPool.step s a = some s') :
    ∃ stale ≤ idle.length, Balanced s s' stale ∧ (stale = 0 ↔ Fresh s a) := by
  have hnone (hbalanced : Balanced s s' 0) (hfresh : Fresh s a) :
      ∃ stale ≤ idle.length, Balanced s s' stale ∧ (stale = 0 ↔ Fresh s a) :=
    ⟨0, Nat.zero_le _, hbalanced, iff_of_true rfl hfresh⟩
  cases a with
  | acquire answers =>
    cases hstep
    obtain ⟨stale, hle, hacquired, hstale⟩ := h.acquire_balanced answers
    exact ⟨stale, hle, hacquired.hand, hstale⟩
  | acquireAsync answers alloc =>
    cases hstep
    exact h.acquireAsync_balanced answers alloc
  | release n healthy answers =>
    obtain ⟨hn, rfl⟩ := of_guard hstep
    exact hnone (LoopyConnPool.release_balanced hn healthy answers) trivial
  | healthCheck answers =>
    have hdrop (s : LoopyConnPool) (n : ℕ) : Balanced s (LoopyConnPool.destroyConnection
        { s with totalValidationFailures := s.totalValidationFailures + 1 } n) 0 :=
      .same rfl rfl rfl
    cases hstep
    exact hnone (LoopyConnPool.sweep_balanced hdrop ..) trivial
  | cleanupIdle answers =>
    have hdrop (s : LoopyConnPool) (n : ℕ) : Balanced s (s.destroyConnection n) 0 :=
      .same rfl rfl rfl
    cases hstep
    exact hnone (LoopyConnPool.sweep_balanced hdrop ..) trivial
  | prewarm count answers =>
    cases hstep
    exact hnone (LoopyConnPool.prewarmLoop_balanced ..) trivial
  | ret =>
    rw [ConnPool.step] at hstep
    split at hstep
    · cases hstep
    all_goals
      cases hstep
      exact hnone (.same rfl rfl rfl) trivial

/-- A pool whose connections are where they should be, with a `uint32_t` as their limit. -/
structure ActiveInv (s : LoopyConnPool) : Prop where
  owned : ∃ idle, Owned s idle []
  maxTotal : s.config.maxTotal < 2 ^ 32

theorem ActiveInv.step (h : ActiveInv s) (hstep : ConnPool.step s a = some s') : ActiveInv s' := by
  obtain ⟨idle, howned⟩ := h.owned
  obtain ⟨stale, -, hbalanced, -⟩ := howned.step_balanced hstep
  refine ⟨howned.step hstep, ?_⟩
  rw [hbalanced.config]
  exact h.maxTotal

theorem ActiveInv.law_iff (h : ActiveInv s) : ActiveLaw s ↔ s.activeCount.toNat = s.held.length := by
  obtain ⟨idle, howned⟩ := h.owned
  refine ⟨fun hlaw => hlaw.active, fun hactive => ⟨hactive, ?_⟩⟩
  rw [howned.total, howned.idleCount, hactive, List.length_nil, Nat.add_zero]

/-- The law survives a step exactly if no idle connection is destroyed in an acquire. -/
theorem ActiveInv.law_step (h : ActiveInv s) (hlaw : ActiveLaw s)
    (hstep : ConnPool.step s a = some s') :
    ActiveLaw s' ↔ Fresh s a := by
  have h' := h.step hstep
  obtain ⟨idle, howned⟩ := h.owned
  obtain ⟨idle', howned'⟩ := h'.owned
  obtain ⟨stale, hle, hbalanced, hfresh⟩ := howned.step_balanced hstep
  have hactive := hlaw.active
  have hbalance := hbalanced.active
  have hlt : s'.activeCount.toNat < 2 ^ 32 := s'.activeCount.toNat_lt
  have htotal := howned.total
  have htotal' := howned'.total
  have hmax := h.maxTotal
  have hmax' := h'.maxTotal
  have hcap := howned.le
  have hcap' := howned'.le
  rw [h'.law_iff, ← hfresh]
  omega

theorem ActiveInv.new {config : LoopyConnPoolConfig} {validateCb : Bool} {answers : Answers}
    (hmax : config.maxTotal < 2 ^ 32)
    (hnew : LoopyConnPool.new config validateCb answers = some s) : ActiveInv s ∧ ActiveLaw s := by
  have hbalanced : Balanced (.empty config validateCb) s 0 := by
    unfold LoopyConnPool.new at hnew
    split at hnew
    · dsimp only at hnew
      split at hnew
      · cases hnew
      · cases hnew
        exact Balanced.then (LoopyConnPool.prewarmLoop_balanced ..) rfl rfl rfl
    · cases hnew
      exact .same rfl rfl rfl
  have hinv : ActiveInv s := by
    refine ⟨Owned.new hnew, ?_⟩
    rw [hbalanced.config]
    exact hmax
  obtain ⟨idle, howned⟩ := hinv.owned
  have hbalance : (s.activeCount.toNat + 0) % 2 ^ 32 = (0 + s.held.length + 0) % 2 ^ 32 :=
    hbalanced.active
  have hlt : s.activeCount.toNat < 2 ^ 32 := s.activeCount.toNat_lt
  have htotal := howned.total
  have hmax' := hinv.maxTotal
  have hcap := howned.le
  refine ⟨hinv, hinv.law_iff.mpr ?_⟩
  omega

/-- **The active count is the number of connections that are held**, in every state of a run,
exactly if no acquire finds a first idle connection that is no good. -/
theorem active_count {config : LoopyConnPoolConfig} {validateCb : Bool} {answers : Answers}
    {start : LoopyConnPool} (hmax : config.maxTotal < 2 ^ 32)
    (hnew : LoopyConnPool.new config validateCb answers = some start) {as : List Action}
    (hrun : Run step (fun _ _ => True) start as s) :
    (∀ bs t, bs <+: as → Run step (fun _ _ => True) start bs t → ActiveLaw t) ↔
      Run step Fresh start as s := by
  obtain ⟨hinv, hlaw⟩ := ActiveInv.new hmax hnew
  exact hrun.always_iff (P := ActiveInv) (fun _ _ _ h hstep => h.step hstep)
    (fun _ _ _ h hlaw hstep => h.law_step hlaw hstep) hinv hlaw

end runs

/-- A request waits and is given the connection that is released, which comes back broken and is
replaced; the one in its place is acquired. -/
def freshRun : List Action :=
  [.acquire goodAnswers, .acquireAsync goodAnswers true, .ret, .acquireAsync goodAnswers true,
    .release 0 true goodAnswers, .ret, .release 0 false goodAnswers, .release 1 true goodAnswers,
    .healthCheck { goodAnswers with validate := fun _ => false }, .prewarm 2 goodAnswers,
    .acquire goodAnswers]

theorem active_count_freshRun :
    ∃ start s, LoopyConnPool.new smallConfig true goodAnswers = some start ∧
      Run step (fun _ _ => True) start freshRun s ∧ s.activeCount = 1 ∧
      ∀ bs t, bs <+: freshRun → Run step (fun _ _ => True) start bs t → ActiveLaw t := by
  have hexec : ((LoopyConnPool.new smallConfig true goodAnswers).bind fun start =>
      exec step Fresh start freshRun).map (fun s => s.activeCount) = some 1 := by decide +kernel
  obtain ⟨start, s, hnew, hfresh, hactive⟩ := run_of_exec_map hexec
  have hrun : Run step (fun _ _ => True) start freshRun s := hfresh.mono fun _ _ _ => trivial
  exact ⟨start, s, hnew, hrun, hactive, (active_count (by decide) hnew hrun).mpr hfresh⟩

/-- The idle connection fails its validation, and no new one can be made: nobody holds a connection,
and one is counted as active. -/
theorem active_count_leaks :
    ∃ start s, LoopyConnPool.new smallConfig true goodAnswers = some start ∧
      Run step (fun _ _ => True) start [.acquire
        { goodAnswers with validate := fun _ => false, create := fun _ => .createCbFails }] s ∧
      s.held = [] ∧ s.totalConns = 0 ∧ s.activeCount = 1 ∧ ¬ ActiveLaw s := by
  have hexec : ((LoopyConnPool.new smallConfig true goodAnswers).bind fun start =>
      exec step (fun _ _ => True) start [.acquire
        { goodAnswers with validate := fun _ => false, create := fun _ => .createCbFails }]).map
      (fun s => (s.held, s.totalConns, s.activeCount)) = some ([], 0, 1) := by decide +kernel
  obtain ⟨start, s, hnew, hrun, hval⟩ := run_of_exec_map hexec
  obtain ⟨hheld, hval⟩ := Prod.mk.inj hval
  obtain ⟨htotal, hactive⟩ := Prod.mk.inj hval
  refine ⟨start, s, hnew, hrun, hheld, htotal, hactive, fun hlaw => ?_⟩
  have hlength := hlaw.active
  rw [hheld, hactive] at hlength
  revert hlength
  decide

end Loopy.ConnPool
