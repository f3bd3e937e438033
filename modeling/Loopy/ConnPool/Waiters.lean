import Loopy.ConnPool.Ownership
import Loopy.Lib.LinkedQueue

/-!
# `loopyConnPool.c`: the requests that wait

Asynchronous requests are served in the order of their calls, and one waits only while no
connection is idle and no other one may be made. The wait queue is looked at in one place only, in
the release of a good connection: the release of a broken one makes room that no waiting request
gets, so the law holds as long as no broken connection is released while a request waits
(`NoneBroken`).
-/

namespace Loopy.ConnPool

open Loopy.Lib

/-- The requests on the wait queue. -/
def LoopyConnPool.waiting (s : LoopyConnPool) : List ℕ := walk s.waitNext s.asked s.waitQueueHead

/-- A pool that serves its requests. -/
structure WaitersLaw (s : LoopyConnPool) : Prop where
  full : s.waiting ≠ [] → s.idle = [] ∧ s.totalConns = s.config.maxTotal
  inOrder : (s.served ++ s.waiting).Pairwise (· < ·)
  all : ∀ r < s.asked, r ∈ s.served ∨ r ∈ s.waiting ∨ r ∈ s.lost

/-- No broken or expired connection is released while a request waits. -/
def NoneBroken (s : LoopyConnPool) : Action → Prop
  | .release n healthy answers =>
    s.waitQueueHead ≠ none →
      healthy = true ∧ s.isConnectionExpired n (answers.checked n) = false
  | _ => True

instance : ∀ s a, Decidable (NoneBroken s a)
  | _, .release .. =>
    inferInstanceAs (Decidable (_ → _))
  | _, .acquire _ | _, .acquireAsync .. | _, .healthCheck _ | _, .cleanupIdle _
  | _, .prewarm .. | _, .ret => isTrue trivial

/-- The requests `waiting` are on the wait queue, and every request is in one place. -/
structure Queued (s : LoopyConnPool) (waiting : List ℕ) : Prop where
  chain : Chain s.waitNext s.waitQueueHead waiting
  tail : s.waitQueueTail = waiting.getLast?
  nodup : (s.served ++ waiting).Nodup
  bound : ∀ r ∈ s.served ++ waiting, r < s.asked
  all : ∀ r < s.asked, r ∈ s.served ∨ r ∈ waiting ∨ r ∈ s.lost

/-- The requests are also served in order. -/
structure Waiting (s : LoopyConnPool) (waiting : List ℕ) : Prop extends Queued s waiting where
  inOrder : (s.served ++ waiting).Pairwise (· < ·)

/-- The requests are as before. -/
structure SameWait (s s' : LoopyConnPool) : Prop where
  waitNext : s'.waitNext = s.waitNext
  waitQueueHead : s'.waitQueueHead = s.waitQueueHead
  waitQueueTail : s'.waitQueueTail = s.waitQueueTail
  asked : s'.asked = s.asked
  served : s'.served = s.served
  lost : s'.lost = s.lost

variable {s s' s'' : LoopyConnPool} {idle waiting : List ℕ} {n r : ℕ}

theorem SameWait.refl (s : LoopyConnPool) : SameWait s s := ⟨rfl, rfl, rfl, rfl, rfl, rfl⟩

/-- Two calls that leave the wait queue leave it together. -/
theorem SameWait.trans (h : SameWait s s') (h' : SameWait s' s'') : SameWait s s'' where
  waitNext := h'.waitNext.trans h.waitNext
  waitQueueHead := h'.waitQueueHead.trans h.waitQueueHead
  waitQueueTail := h'.waitQueueTail.trans h.waitQueueTail
  asked := h'.asked.trans h.asked
  served := h'.served.trans h.served
  lost := h'.lost.trans h.lost

/-- What is queued depends on the wait queue alone. -/
theorem Queued.same (h : Queued s waiting) (hs : SameWait s s') : Queued s' waiting where
  chain := by
    rw [hs.waitNext, hs.waitQueueHead]
    exact h.chain
  tail := by
    rw [hs.waitQueueTail]
    exact h.tail
  nodup := by
    rw [hs.served]
    exact h.nodup
  bound := by
    rw [hs.served, hs.asked]
    exact h.bound
  all := by
    rw [hs.served, hs.asked, hs.lost]
    exact h.all

/-- So does what waits. -/
theorem Waiting.same (h : Waiting s waiting) (hs : SameWait s s') : Waiting s' waiting := by
  refine ⟨h.toQueued.same hs, ?_⟩
  rw [hs.served]
  exact h.inOrder

/-- Nothing waits in an empty pool. -/
theorem Waiting.empty (config : LoopyConnPoolConfig) (validateCb : Bool) :
    Waiting (.empty config validateCb) [] :=
  ⟨⟨Chain.nil, rfl, List.nodup_nil, nofun, nofun⟩, List.Pairwise.nil⟩

/-! ## What leaves the requests alone -/

namespace LoopyConnPool

/-- Creating a connection leaves the wait queue. -/
theorem createConnection_wait (s : LoopyConnPool) (r : CreateResult) (now : UInt64) :
    SameWait s (s.createConnection r now).1 := by
  unfold createConnection
  split
  · exact ⟨rfl, rfl, rfl, rfl, rfl, rfl⟩
  · cases r <;> exact ⟨rfl, rfl, rfl, rfl, rfl, rfl⟩

/-- So does taking an idle one. -/
theorem removeFromIdleList_wait (s : LoopyConnPool) :
    SameWait s s.removeFromIdleList.1 := by
  unfold removeFromIdleList
  split
  · exact .refl s
  · exact ⟨rfl, rfl, rfl, rfl, rfl, rfl⟩

/-- So does looking for one that is valid. -/
theorem acquireIdle_wait (answers : Answers) (fuel : ℕ) (s : LoopyConnPool) :
    SameWait s (acquireIdle answers fuel s).1 := by
  induction fuel generalizing s with
  | zero => exact .refl s
  | succ fuel ih =>
    have hremove := s.removeFromIdleList_wait
    unfold acquireIdle
    split
    · next s' hs =>
      rw [hs] at hremove
      exact hremove
    · next s' n hs =>
      rw [hs] at hremove
      have hdestroy (t : LoopyConnPool) (ht : SameWait s t) :
          SameWait s (acquireIdle answers fuel t).1 := ht.trans (ih t)
      split
      · exact hdestroy _ (hremove.trans ⟨rfl, rfl, rfl, rfl, rfl, rfl⟩)
      · split
        · exact hdestroy _ (hremove.trans ⟨rfl, rfl, rfl, rfl, rfl, rfl⟩)
        · exact hremove

/-- So does acquiring. -/
theorem acquire_wait (s : LoopyConnPool) (answers : Answers) :
    SameWait s (s.acquire answers).1 := by
  refine (s.acquireIdle_wait answers s.userConns).trans ?_
  unfold acquire acquireFound
  dsimp only
  split
  · exact ⟨rfl, rfl, rfl, rfl, rfl, rfl⟩
  · have hcreate := (acquireIdle answers s.userConns s).1.createConnection_wait (answers.create 0)
      (answers.createdAt 0)
    split
    · next s' hs =>
      rw [hs] at hcreate
      exact hcreate.trans ⟨rfl, rfl, rfl, rfl, rfl, rfl⟩
    · next s' n hs =>
      rw [hs] at hcreate
      exact hcreate.trans ⟨rfl, rfl, rfl, rfl, rfl, rfl⟩

/-- A broken connection is given to no one who waits. -/
theorem releaseBroken_wait (s : LoopyConnPool) (n : ℕ) (answers : Answers) :
    SameWait s (s.releaseBroken n answers) := by
  let t := { s with activeCount := s.activeCount - 1 }.destroyConnection n
  have hdestroy : SameWait s t := ⟨rfl, rfl, rfl, rfl, rfl, rfl⟩
  have hcreate := hdestroy.trans (t.createConnection_wait (answers.create 0) (answers.createdAt 0))
  unfold releaseBroken
  dsimp only
  split
  · split
    · next s' hs =>
      rw [hs] at hcreate
      exact hcreate
    · next s' m hs =>
      rw [hs] at hcreate
      exact hcreate.trans ⟨rfl, rfl, rfl, rfl, rfl, rfl⟩
  · exact hdestroy

theorem unlink_wait (s : LoopyConnPool) (prev : Option ℕ) (n : ℕ) :
    SameWait s (s.unlink prev n) := by
  unfold unlink
  cases prev <;> exact ⟨rfl, rfl, rfl, rfl, rfl, rfl⟩

/-- Maintenance leaves the wait queue. -/
theorem sweep_wait {doomed : LoopyConnPool → ℕ → Bool}
    {drop : LoopyConnPool → ℕ → LoopyConnPool} (hdrop : ∀ s n, SameWait s (drop s n)) (fuel : ℕ)
    (s : LoopyConnPool) (prev curr : Option ℕ) (count : ℕ) :
    SameWait s (sweep doomed drop fuel s prev curr count).1 := by
  apply sweep_keeps (P := SameWait s) ?_ fuel prev curr count (.refl s)
  intro t prev n ht
  exact (ht.trans (t.unlink_wait prev n)).trans (hdrop _ n)

/-- So does prewarming. -/
theorem prewarmLoop_wait (answers : Answers) (count : ℕ) (s : LoopyConnPool) (i : ℕ) :
    SameWait s (prewarmLoop answers count s i).1 := by
  apply prewarmLoop_keeps (P := SameWait s) ?_ ?_ count i (.refl s)
  · intro t t' i ht hnone
    have hcreate := t.createConnection_wait (answers.create i) (answers.createdAt i)
    rw [hnone] at hcreate
    exact ht.trans hcreate
  · intro t t' i n ht hsome
    have hcreate := t.createConnection_wait (answers.create i) (answers.createdAt i)
    rw [hsome] at hcreate
    have hadd : SameWait t' (t'.addToIdleList n) := ⟨rfl, rfl, rfl, rfl, rfl, rfl⟩
    exact (ht.trans hcreate).trans hadd

theorem enqueueWaitRequest_total (s : LoopyConnPool) (r : ℕ) (alloc : Bool) :
    (s.enqueueWaitRequest r alloc).totalConns = s.totalConns ∧
      (s.enqueueWaitRequest r alloc).config = s.config := by
  unfold enqueueWaitRequest
  dsimp only
  repeat' split
  all_goals exact ⟨rfl, rfl⟩

/-- A request that waits has not been served. -/
theorem enqueueWaitRequest_served (s : LoopyConnPool) (r : ℕ) :
    (s.enqueueWaitRequest r true).served = s.served ∧
      (s.enqueueWaitRequest r true).asked = s.asked ∧
      (s.enqueueWaitRequest r true).lost = s.lost := by
  unfold enqueueWaitRequest
  rw [if_neg Bool.noConfusion]
  dsimp only
  split <;> exact ⟨rfl, rfl, rfl⟩

end LoopyConnPool

/-! ## The wait queue -/

/-- The newest number at the end. -/
theorem pairwise_snoc {l : List ℕ} (h : l.Pairwise (· < ·)) (hlt : ∀ r ∈ l, r < n) :
    (l ++ [n]).Pairwise (· < ·) := by
  rw [List.pairwise_append]
  refine ⟨h, List.pairwise_singleton .., fun a ha b hb => ?_⟩
  rw [List.mem_singleton.mp hb]
  exact hlt a ha

/-- A new request has a number of its own. -/
theorem Queued.asked_not_mem (h : Queued s waiting) : s.asked ∉ s.served ++ waiting :=
  fun hmem => Nat.lt_irrefl _ (h.bound _ hmem)

/-- A number more among those below a bound. -/
theorem lt_succ_of_mem_cons {l l' : List ℕ} (hl : ∀ r ∈ l, r < n) (hperm : l'.Perm (n :: l)) :
    ∀ r ∈ l', r < n + 1 := by
  intro r hr
  obtain rfl | hr := List.mem_cons.mp (hperm.mem_iff.mp hr)
  · exact Nat.lt_succ_self _
  · exact Nat.lt_succ_of_lt (hl r hr)

/-- A new request, which waits, is served at once, or is lost. -/
theorem Queued.ask (h : Queued s waiting) {waiting' : List ℕ}
    (hchain : Chain s'.waitNext s'.waitQueueHead waiting')
    (htail : s'.waitQueueTail = waiting'.getLast?) (hasked : s'.asked = s.asked + 1)
    (hplaces : (s'.served ++ waiting').Perm (s.asked :: (s.served ++ waiting)) ∧
        s'.lost = s.lost ∨
      s'.served ++ waiting' = s.served ++ waiting ∧ s'.lost = s.lost ++ [s.asked]) :
    Queued s' waiting' := by
  refine ⟨hchain, htail, ?_, ?_, fun r hr => ?_⟩
  · obtain ⟨hperm, -⟩ | ⟨heq, -⟩ := hplaces
    · exact hperm.nodup_iff.mpr (List.nodup_cons.mpr ⟨h.asked_not_mem, h.nodup⟩)
    · rw [heq]
      exact h.nodup
  · rw [hasked]
    obtain ⟨hperm, -⟩ | ⟨heq, -⟩ := hplaces
    · exact lt_succ_of_mem_cons h.bound hperm
    · rw [heq]
      exact fun r hr => Nat.lt_succ_of_lt (h.bound r hr)
  · -- an old request is where it was, or has been served
    have hall : r = s.asked ∨ r ∈ s.served ++ waiting ∨ r ∈ s.lost := by
      rw [hasked] at hr
      by_cases hlast : r = s.asked
      · exact .inl hlast
      · obtain hserved | hwait | hlost := h.all r (by omega)
        · exact .inr (.inl (List.mem_append_left _ hserved))
        · exact .inr (.inl (List.mem_append_right _ hwait))
        · exact .inr (.inr hlost)
    have hmem : r ∈ s'.served ++ waiting' ∨ r ∈ s'.lost := by
      obtain ⟨hperm, hlost⟩ | ⟨heq, hlost⟩ := hplaces
      · obtain rfl | hplace | hlose := hall
        · exact .inl (hperm.mem_iff.mpr List.mem_cons_self)
        · exact .inl (hperm.mem_iff.mpr (List.mem_cons_of_mem _ hplace))
        · exact .inr (hlost ▸ hlose)
      · rw [heq, hlost]
        obtain rfl | hplace | hlose := hall
        · exact .inr (List.mem_append_right _ List.mem_cons_self)
        · exact .inl hplace
        · exact .inr (List.mem_append_left _ hlose)
    obtain hplace | hlost := hmem
    · obtain hserved | hwait := List.mem_append.mp hplace
      · exact .inl hserved
      · exact .inr (.inl hwait)
    · exact .inr (.inr hlost)

/-- The two pointers and the links. -/
def LoopyConnPool.waitQueue (s : LoopyConnPool) : LinkedQueue ℕ :=
  { head := s.waitQueueHead, tail := s.waitQueueTail, next := s.waitNext }

/-- The queue is the list of those who wait. -/
theorem Queued.holds (h : Queued s waiting) : s.waitQueue.Holds waiting := ⟨h.chain, h.tail⟩

/-- The request is appended to the linked queue; the function tests the head where a linked queue
tests the tail. -/
theorem LoopyConnPool.enqueueWaitRequest_waitQueue (h : s.waitQueue.Holds waiting) (r : ℕ) :
    ({ s with asked := s.asked + 1 }.enqueueWaitRequest r true).waitQueue =
      s.waitQueue.push r := by
  have hhead : s.waitQueueHead = waiting.head? := h.chain.head
  have htail : s.waitQueueTail = waiting.getLast? := h.tail
  unfold LoopyConnPool.enqueueWaitRequest LoopyConnPool.waitQueue LinkedQueue.push
  rw [if_neg Bool.noConfusion]
  dsimp only
  cases waiting with
  | nil =>
    rw [hhead, htail]
    rfl
  | cons q l =>
    obtain ⟨t, ht⟩ : ∃ t, (q :: l).getLast? = some t := ⟨_, List.getLast?_cons⟩
    rw [hhead, htail, ht]
    rfl

/-- A new request goes to the end of the queue, if there is memory for it. -/
theorem Queued.enqueue (h : Queued s waiting) (alloc : Bool) :
    Queued ({ s with asked := s.asked + 1 }.enqueueWaitRequest s.asked alloc)
      (waiting ++ if alloc then [s.asked] else []) := by
  cases alloc with
  | false =>
    rw [if_neg Bool.false_ne_true, List.append_nil]
    exact h.ask h.chain h.tail rfl (.inr ⟨rfl, rfl⟩)
  | true =>
    have hpush := h.holds.push fun hmem => h.asked_not_mem (List.mem_append_right _ hmem)
    rw [← LoopyConnPool.enqueueWaitRequest_waitQueue h.holds s.asked] at hpush
    obtain ⟨hserved, hasked, hlost⟩ :=
      LoopyConnPool.enqueueWaitRequest_served { s with asked := s.asked + 1 } s.asked
    refine h.ask hpush.chain hpush.tail hasked (.inl ⟨?_, hlost⟩)
    rw [if_pos rfl, hserved, ← List.append_assoc]
    exact List.perm_append_singleton ..

/-- A request that is served at once, also while others wait. -/
theorem Queued.serveNow (h : Queued s waiting) {t : LoopyConnPool}
    (ht : SameWait { s with asked := s.asked + 1 } t) (conn : Option ℕ) (frame : Frame) :
    Queued (t.callback s.asked conn frame) waiting := by
  refine h.ask ?_ (ht.waitQueueTail.trans h.tail) ht.asked (.inl ⟨?_, ht.lost⟩)
  · show Chain t.waitNext t.waitQueueHead waiting
    rw [ht.waitNext, ht.waitQueueHead]
    exact h.chain
  · show (t.served ++ [s.asked] ++ waiting).Perm _
    rw [ht.served, List.append_assoc]
    exact List.perm_middle

/-- The first request that waits is served. -/
theorem Queued.serve (h : Queued s (r :: waiting))
    (hwait : s'.waitQueue = s.waitQueue.unlink r) (hserved : s'.served = s.served ++ [r])
    (hasked : s'.asked = s.asked) (hlost : s'.lost = s.lost) : Queued s' waiting := by
  have hunlink := h.holds.unlink
  rw [← hwait] at hunlink
  have hlist : s'.served ++ waiting = s.served ++ r :: waiting := by
    rw [hserved, List.append_assoc]
    rfl
  refine ⟨hunlink.chain, hunlink.tail, ?_, ?_, fun q hq => ?_⟩
  · rw [hlist]
    exact h.nodup
  · rw [hlist, hasked]
    exact h.bound
  · rw [hasked] at hq
    rw [hserved, hlost]
    obtain hold | hwaits | hlose := h.all q hq
    · exact .inl (List.mem_append_left _ hold)
    · obtain rfl | hwaits := List.mem_cons.mp hwaits
      · exact .inl (List.mem_append_right _ List.mem_cons_self)
      · exact .inr (.inl hwaits)
    · exact .inr (.inr hlose)

/-- A new request is the newest one. -/
theorem Waiting.enqueue (h : Waiting s waiting) (alloc : Bool) :
    Waiting ({ s with asked := s.asked + 1 }.enqueueWaitRequest s.asked alloc)
      (waiting ++ if alloc then [s.asked] else []) := by
  refine ⟨h.toQueued.enqueue alloc, ?_⟩
  cases alloc with
  | false =>
    rw [if_neg Bool.false_ne_true, List.append_nil]
    exact h.inOrder
  | true =>
    obtain ⟨hserved, -, -⟩ :=
      LoopyConnPool.enqueueWaitRequest_served { s with asked := s.asked + 1 } s.asked
    rw [if_pos rfl, hserved, ← List.append_assoc]
    exact pairwise_snoc h.inOrder h.bound

/-- A request that is served at once while none waits. -/
theorem Waiting.serveNow (h : Waiting s []) {t : LoopyConnPool}
    (ht : SameWait { s with asked := s.asked + 1 } t) (conn : Option ℕ) (frame : Frame) :
    Waiting (t.callback s.asked conn frame) [] := by
  have hinOrder := h.inOrder
  have hbound := h.bound
  rw [List.append_nil] at hinOrder hbound
  refine ⟨h.toQueued.serveNow ht conn frame, ?_⟩
  show (t.served ++ [s.asked] ++ []).Pairwise (· < ·)
  rw [ht.served, List.append_nil]
  exact pairwise_snoc hinOrder hbound

/-- The oldest request gets a good connection. -/
theorem Waiting.serve {l : List ℕ} (h : Waiting s (r :: l)) (n : ℕ) (answers : Answers) :
    Waiting (s.releaseGood n answers) l := by
  have hhead : s.waitQueueHead = some r := h.chain.head
  rw [LoopyConnPool.releaseGood_some hhead]
  refine ⟨h.toQueued.serve rfl rfl rfl rfl, ?_⟩
  have hlist : s.served ++ [r] ++ l = s.served ++ r :: l := List.append_assoc ..
  exact (congrArg (List.Pairwise (· < ·)) hlist).mpr h.inOrder

/-! ## A full pool -/

/-- Where a request waits, no connection is idle and none may be made. -/
structure ServeInv (s : LoopyConnPool) (idle waiting : List ℕ) : Prop where
  owned : Owned s idle []
  queue : Waiting s waiting
  full : waiting ≠ [] → idle = [] ∧ s.totalConns = s.config.maxTotal

/-- Nothing waits, so nothing is asked of the connections. -/
theorem ServeInv.of_nil (howned : Owned s idle []) (hwaiting : Waiting s []) : ServeInv s idle [] :=
  ⟨howned, hwaiting, fun h => absurd rfl h⟩

/-- A full pool creates nothing. -/
theorem LoopyConnPool.createConnection_full (hfull : s.totalConns = s.config.maxTotal)
    (r : CreateResult) (now : UInt64) :
    s.createConnection r now = ({ s with lastError := some "Pool at maximum capacity" }, none) := by
  rw [createConnection, if_pos (Nat.le_of_eq hfull.symm)]

/-- Without an idle connection it gives nothing. -/
theorem LoopyConnPool.acquire_full (hidle : s.idleConns = none)
    (hfull : s.totalConns = s.config.maxTotal) (answers : Answers) :
    s.acquire answers =
      ({ s with
        lastError := some "Pool at maximum capacity"
        totalTimeouts := s.totalTimeouts + 1 }, none) := by
  have hnone : s.removeFromIdleList = (s, none) := by rw [removeFromIdleList, hidle]
  have hloop (fuel : ℕ) : acquireIdle answers fuel s = (s, none) := by
    cases fuel with
    | zero => rfl
    | succ fuel => rw [acquireIdle, hnone]
  rw [acquire, hloop]
  dsimp only
  rw [acquireFound, createConnection_full hfull]

theorem LoopyConnPool.sweep_nil {doomed : LoopyConnPool → ℕ → Bool}
    {drop : LoopyConnPool → ℕ → LoopyConnPool} (fuel : ℕ) (prev : Option ℕ) (count : ℕ) :
    sweep doomed drop fuel s prev none count = (s, count) := by
  cases fuel <;> rfl

/-- It prewarms nothing. -/
theorem LoopyConnPool.prewarmLoop_full (hfull : s.totalConns = s.config.maxTotal)
    (answers : Answers) (count i : ℕ) : prewarmLoop answers count s i = (s, i) := by
  cases count with
  | zero => rfl
  | succ count => rw [prewarmLoop, if_neg (Nat.not_lt.mpr (Nat.le_of_eq hfull.symm))]

/-- A call that leaves the requests alone, and the pool too if it is full. -/
theorem ServeInv.maintained (h : ServeInv s idle waiting) (howned : ∃ idle', Owned s' idle' [])
    (hwait : SameWait s s')
    (hfull : s.idleConns = none → s.totalConns = s.config.maxTotal → s' = s) :
    ∃ idle' waiting', ServeInv s' idle' waiting' := by
  by_cases hempty : waiting = []
  · subst hempty
    obtain ⟨idle', howned⟩ := howned
    exact ⟨idle', [], .of_nil howned (h.queue.same hwait)⟩
  · obtain ⟨hidle, htotal⟩ := h.full hempty
    have hnone : s.idleConns = none := h.owned.chain.eq_none_iff.mpr hidle
    rw [hfull hnone htotal]
    exact ⟨idle, waiting, h⟩

/-- Acquiring keeps the others waiting. -/
theorem ServeInv.acquire (h : ServeInv s idle waiting) (answers : Answers) :
    ∃ idle' waiting', ServeInv { (s.acquire answers).1 with
      held := (s.acquire answers).2.toList ++ (s.acquire answers).1.held } idle' waiting' := by
  by_cases hempty : waiting = []
  · subst hempty
    obtain ⟨idle', hacquired⟩ := h.owned.acquire answers
    have hwait := h.queue.same (s.acquire_wait answers)
    exact ⟨idle', [], .of_nil hacquired.handOver (hwait.same ⟨rfl, rfl, rfl, rfl, rfl, rfl⟩)⟩
  · obtain ⟨hidle, htotal⟩ := h.full hempty
    have hnone : s.idleConns = none := h.owned.chain.eq_none_iff.mpr hidle
    rw [LoopyConnPool.acquire_full hnone htotal]
    have ho := h.owned
    exact ⟨idle, waiting, ⟨ho.chain, ho.idleCount, ho.nodup, ho.bound, ho.total, ho.le, ho.creates⟩,
      h.queue.same ⟨rfl, rfl, rfl, rfl, rfl, rfl⟩, h.full⟩

/-- A request is served at once only if none waits. -/
theorem ServeInv.acquireAsync (h : ServeInv s idle waiting) (answers : Answers) (alloc : Bool) :
    ∃ idle' waiting', ServeInv (s.acquireAsync answers alloc) idle' waiting' := by
  let t : LoopyConnPool := { s with asked := s.asked + 1 }
  have ho := h.owned
  have howned : Owned t idle [] :=
    ⟨ho.chain, ho.idleCount, ho.nodup, ho.bound, ho.total, ho.le, ho.creates⟩
  unfold LoopyConnPool.acquireAsync
  dsimp only
  split
  · next hroom =>
    -- where there is room nobody waits
    have hempty : waiting = [] := by
      by_contra hne
      obtain ⟨hidle, htotal⟩ := h.full hne
      have hnone : s.idleConns = none := ho.chain.eq_none_iff.mpr hidle
      rw [hnone, htotal, decide_eq_false (Nat.lt_irrefl _)] at hroom
      cases hroom
    subst hempty
    obtain ⟨idle', hacquired⟩ := howned.acquire answers
    refine ⟨idle', [], .of_nil (.callback _ hacquired ..) ?_⟩
    exact h.queue.serveNow (t.acquire_wait answers) _ _
  · next hroom =>
    -- without room the pool is full and nothing is idle
    rw [Bool.or_eq_true, decide_eq_true_iff, not_or, Nat.not_lt] at hroom
    have hnone : s.idleConns = none := Option.not_isSome_iff_eq_none.mp hroom.1
    have hidle : idle = [] := ho.chain.eq_none_iff.mp hnone
    have htotal : s.totalConns = s.config.maxTotal := Nat.le_antisymm ho.le hroom.2
    have hq := h.queue.enqueue alloc
    have hqueued := howned.enqueueWaitRequest s.asked alloc
    refine ⟨idle, _, ⟨hqueued.chain, hqueued.idleCount, hqueued.nodup, hqueued.bound,
      hqueued.total, hqueued.le, hqueued.creates⟩,
      hq.same ⟨rfl, rfl, rfl, rfl, rfl, rfl⟩, fun _ => ⟨hidle, ?_⟩⟩
    obtain ⟨hsame, hconfig⟩ := t.enqueueWaitRequest_total s.asked alloc
    exact hsame.trans (htotal.trans (congrArg LoopyConnPoolConfig.maxTotal hconfig).symm)

/-- Only the end of the life of a connection depends on whether a request waits. -/
theorem ServeInv.release (h : ServeInv s idle waiting) (hn : n ∈ s.held) {healthy : Bool}
    {answers : Answers} (hok : NoneBroken s (.release n healthy answers)) :
    ∃ idle' waiting', ServeInv (s.release n healthy answers) idle' waiting' := by
  have hwait : SameWait s (s.released n) := ⟨rfl, rfl, rfl, rfl, rfl, rfl⟩
  have hqueue := h.queue.same hwait
  cases waiting with
  | nil =>
    have hhead : (s.released n).waitQueueHead = none := hqueue.chain.head
    obtain ⟨idle', howned⟩ := h.owned.release hn healthy answers
    refine ⟨idle', [], .of_nil howned (hqueue.same ?_)⟩
    rw [LoopyConnPool.release_eq]
    split
    · exact (s.released n).releaseBroken_wait n answers
    · rw [LoopyConnPool.releaseGood_none hhead]
      exact ⟨rfl, rfl, rfl, rfl, rfl, rfl⟩
  | cons r l =>
    have hhead : (s.released n).waitQueueHead = some r := hqueue.chain.head
    have hgood := hok (by rw [show s.waitQueueHead = some r from hhead]; nofun)
    have hexpired : (s.released n).isConnectionExpired n (answers.checked n) = false := by
      have hconn : (s.released n).conn n = { s.conn n with inUse := false } :=
        Function.update_self ..
      rw [← hgood.2, LoopyConnPool.isConnectionExpired, hconn]
      rfl
    have hrelease : s.release n healthy answers = (s.released n).releaseGood n answers := by
      rw [LoopyConnPool.release_eq, hgood.1, hexpired, if_neg (by simp)]
    obtain ⟨hidle, htotal⟩ := h.full (List.cons_ne_nil r l)
    rw [hrelease]
    refine ⟨idle, l, (h.owned.released hn).releaseGood_waiting hhead answers, hqueue.serve n answers,
      fun _ => ⟨hidle, ?_⟩⟩
    rw [LoopyConnPool.releaseGood_some hhead]
    exact htotal

/-! ## Runs -/

/-- In a new pool nobody waits. -/
theorem ServeInv.new {config : LoopyConnPoolConfig} {validateCb : Bool} {answers : Answers}
    (hnew : LoopyConnPool.new config validateCb answers = some s) :
    ∃ idle waiting, ServeInv s idle waiting := by
  obtain ⟨idle, howned⟩ := Owned.new hnew
  have hempty := Waiting.empty config validateCb
  have hwait : SameWait (.empty config validateCb) s := by
    unfold LoopyConnPool.new at hnew
    split at hnew
    · dsimp only at hnew
      split at hnew
      · cases hnew
      · have hprewarm := LoopyConnPool.prewarmLoop_wait answers
          (if config.minIdle = 0 then config.minIdle else config.minIdle)
          (.empty config validateCb) 0
        cases hnew
        exact hprewarm.trans ⟨rfl, rfl, rfl, rfl, rfl, rfl⟩
    · cases hnew
      exact .refl _
  exact ⟨idle, [], .of_nil howned (hempty.same hwait)⟩

/-- **Every step serves who has waited longest, if anyone.**. -/
theorem ServeInv.step {a : Action} (h : ServeInv s idle waiting) (hok : NoneBroken s a)
    (hstep : step s a = some s') : ∃ idle' waiting', ServeInv s' idle' waiting' := by
  cases a with
  | acquire answers =>
    cases hstep
    exact h.acquire answers
  | acquireAsync answers alloc =>
    cases hstep
    exact h.acquireAsync answers alloc
  | release n healthy answers =>
    obtain ⟨hn, rfl⟩ := of_guard hstep
    exact h.release hn hok
  | healthCheck answers =>
    cases hstep
    refine h.maintained (h.owned.healthCheck answers) ?_ fun hidle _ => ?_
    · apply LoopyConnPool.sweep_wait
      intro s n
      exact ⟨rfl, rfl, rfl, rfl, rfl, rfl⟩
    · rw [LoopyConnPool.healthCheck, hidle, LoopyConnPool.sweep_nil]
  | cleanupIdle answers =>
    cases hstep
    refine h.maintained (h.owned.cleanupIdle answers) ?_ fun hidle _ => ?_
    · apply LoopyConnPool.sweep_wait
      intro s n
      exact ⟨rfl, rfl, rfl, rfl, rfl, rfl⟩
    · rw [LoopyConnPool.cleanupIdle, hidle, LoopyConnPool.sweep_nil]
  | prewarm count answers =>
    cases hstep
    refine h.maintained (h.owned.prewarmLoop answers ..) ?_ fun _ hfull => ?_
    · exact LoopyConnPool.prewarmLoop_wait ..
    · rw [LoopyConnPool.prewarm, LoopyConnPool.prewarmLoop_full hfull]
  | ret =>
    have ho := h.owned
    rw [ConnPool.step] at hstep
    split at hstep
    · cases hstep
    all_goals
      cases hstep
      exact ⟨idle, waiting,
        ⟨ho.chain, ho.idleCount, ho.nodup, ho.bound, ho.total, ho.le, ho.creates⟩,
        h.queue.same ⟨rfl, rfl, rfl, rfl, rfl, rfl⟩, h.full⟩

/-- The queue is not longer than there were requests. -/
theorem Waiting.length_le (h : Waiting s waiting) : waiting.length ≤ s.asked :=
  h.chain.length_le fun r hr => h.bound r (List.mem_append_right _ hr)

/-- The invariant gives the law. -/
theorem ServeInv.law (h : ServeInv s idle waiting) : WaitersLaw s := by
  have hidle : s.idle = idle := walk_eq h.owned.chain h.owned.length_le
  have hwaiting : s.waiting = waiting := walk_eq h.queue.chain h.queue.length_le
  refine ⟨?_, ?_, ?_⟩
  · rw [hidle, hwaiting]
    exact h.full
  · rw [hwaiting]
    exact h.queue.inOrder
  · rw [hwaiting]
    exact h.queue.all

/-- **Waiting requests are served**: on every run in which no broken or expired connection is
released while a request waits, one waits only for a full pool without idle connections, and the
requests are served in the order of their calls. -/
theorem waiters_served {config : LoopyConnPoolConfig} {validateCb : Bool} {answers : Answers}
    {start : LoopyConnPool} (hnew : LoopyConnPool.new config validateCb answers = some start)
    {as : List Action} (hrun : Run step NoneBroken start as s) : WaitersLaw s := by
  have hinv : ∃ idle waiting, ServeInv s idle waiting := by
    refine hrun.invariant (P := fun s => ∃ idle waiting, ServeInv s idle waiting) ?_
      (ServeInv.new hnew)
    rintro s a s' ⟨idle, waiting, h⟩ hok hstep
    exact h.step hok hstep
  obtain ⟨idle, waiting, h⟩ := hinv
  exact h.law

/-- Two connections are held and two requests wait, and a third one finds no memory; a release serves
the first one, a request of its callback goes to the end of the queue, and a release serves the
second one. -/
def waitersRun : List Action :=
  [.acquire goodAnswers, .acquire goodAnswers, .acquireAsync goodAnswers true,
    .acquireAsync goodAnswers true, .acquireAsync goodAnswers false,
    .release 0 true { goodAnswers with checked := fun _ => 99 }, .acquireAsync goodAnswers true,
    .ret, .healthCheck goodAnswers, .release 1 true goodAnswers]

theorem waiters_served_waitersRun :
    ∃ start s, LoopyConnPool.new smallConfig true goodAnswers = some start ∧
      Run step NoneBroken start waitersRun s ∧ WaitersLaw s ∧
      s.served = [0, 1] ∧ s.waiting = [3] := by
  have hexec : ((LoopyConnPool.new smallConfig true goodAnswers).bind fun start =>
      exec step NoneBroken start waitersRun).map (fun s => (s.served, s.waiting)) =
      some ([0, 1], [3]) := by decide +kernel
  obtain ⟨start, s, hnew, hrun, hval⟩ := run_of_exec_map hexec
  obtain ⟨hserved, hwaiting⟩ := Prod.mk.inj hval
  exact ⟨start, s, hnew, hrun, waiters_served hnew hrun, hserved, hwaiting⟩

/-- Both connections are held and a request waits; a broken one is released, and a new request gets
the connection that is made for it. -/
def passedOverRun : List Action :=
  [.acquire goodAnswers, .acquire goodAnswers, .acquireAsync goodAnswers true,
    .release 0 false goodAnswers, .acquireAsync goodAnswers true, .ret]

/-- The older request still waits. -/
theorem waiter_passed_over :
    ¬ ∀ (start : LoopyConnPool) (as : List Action) (s : LoopyConnPool),
      LoopyConnPool.new smallConfig true goodAnswers = some start →
      Run step (fun _ _ => True) start as s → WaitersLaw s := by
  intro hall
  have hexec : ((LoopyConnPool.new smallConfig true goodAnswers).bind fun start =>
      exec step (fun _ _ => True) start passedOverRun).map (fun s => (s.served, s.waiting)) =
      some ([1], [0]) := by decide +kernel
  obtain ⟨start, s, hnew, hrun, hval⟩ := run_of_exec_map hexec
  obtain ⟨hserved, hwaiting⟩ := Prod.mk.inj hval
  have hlaw := hall start passedOverRun s hnew hrun
  have horder := hlaw.inOrder
  rw [hserved, hwaiting] at horder
  revert horder
  decide

end Loopy.ConnPool
