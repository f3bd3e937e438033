import Loopy.ConnPool.Waiters

/-!
# `loopyConnPool.c`: every connection and every request is in one place

The two records are complete on every run, also where requests are not served in the order of their
calls: no user connection is ever without an owner (`Tally`, next to `Owned`), and every request has
been served, waits, or was lost for want of memory (`Queued`).
-/

namespace Loopy.ConnPool

open Loopy.Lib

/-- Every connection that `destroyCb` is called for is counted, or has never been in the pool. -/
def LoopyConnPool.Tally (s : LoopyConnPool) : Prop :=
  s.userConns + s.totalDestroys = s.totalCreates + s.destroyedConns.length

variable {s s' : LoopyConnPool} {idle waiting : List ℕ} {n r : ℕ}

/-! ## Connections -/

section tally

namespace LoopyConnPool.Tally

section

variable (h : s.Tally)

include h

theorem destroyConnection (n : ℕ) : (s.destroyConnection n).Tally := by
  unfold LoopyConnPool.Tally at h ⊢
  unfold LoopyConnPool.destroyConnection
  simp only [List.length_append, List.length_singleton]
  omega

theorem createConnection (r : CreateResult) (now : UInt64) :
    (s.createConnection r now).1.Tally := by
  unfold LoopyConnPool.Tally at h ⊢
  unfold LoopyConnPool.createConnection
  split
  · exact h
  · cases r with
    | createCbFails => exact h
    | zcallocFails =>
      simp only [List.length_append, List.length_singleton]
      omega
    | created =>
      show s.userConns + 1 + s.totalDestroys = s.totalCreates + 1 + s.destroyedConns.length
      omega

theorem removeFromIdleList : s.removeFromIdleList.1.Tally := by
  unfold LoopyConnPool.removeFromIdleList
  split
  · exact h
  · exact h

theorem acquireIdle (answers : Answers) (fuel : ℕ) :
    (LoopyConnPool.acquireIdle answers fuel s).1.Tally := by
  induction fuel generalizing s with
  | zero => exact h
  | succ fuel ih =>
    have hremove := h.removeFromIdleList
    unfold LoopyConnPool.acquireIdle
    split
    · next s' hs =>
      rw [hs] at hremove
      exact hremove
    · next s' n hs =>
      rw [hs] at hremove
      have hfailed : LoopyConnPool.Tally
          { s' with totalValidationFailures := s'.totalValidationFailures + 1 } := hremove
      split
      · exact ih (hfailed.destroyConnection n)
      · split
        · exact ih (hremove.destroyConnection n)
        · exact hremove

theorem acquire (answers : Answers) : (s.acquire answers).1.Tally := by
  have hidle := h.acquireIdle answers s.userConns
  unfold LoopyConnPool.acquire LoopyConnPool.acquireFound
  dsimp only
  split
  · exact hidle
  · have hcreate := hidle.createConnection (answers.create 0) (answers.createdAt 0)
    split
    · next s' hs =>
      rw [hs] at hcreate
      exact hcreate
    · next s' n hs =>
      rw [hs] at hcreate
      exact hcreate

theorem enqueueWaitRequest (r : ℕ) (alloc : Bool) : (s.enqueueWaitRequest r alloc).Tally := by
  unfold LoopyConnPool.enqueueWaitRequest
  dsimp only
  repeat' split
  all_goals exact h

theorem acquireAsync (answers : Answers) (alloc : Bool) :
    (s.acquireAsync answers alloc).Tally := by
  have hasked : LoopyConnPool.Tally { s with asked := s.asked + 1 } := h
  unfold LoopyConnPool.acquireAsync
  dsimp only
  split
  · exact hasked.acquire answers
  · exact hasked.enqueueWaitRequest s.asked alloc

theorem release (n : ℕ) (healthy : Bool) (answers : Answers) :
    (s.release n healthy answers).Tally := by
  have hreleased : (s.released n).Tally := h
  rw [LoopyConnPool.release_eq]
  split
  · have hcounted : LoopyConnPool.Tally
        { s.released n with activeCount := (s.released n).activeCount - 1 } := h
    have hgone := hcounted.destroyConnection n
    have hcreate := hgone.createConnection (answers.create 0) (answers.createdAt 0)
    unfold LoopyConnPool.releaseBroken
    dsimp only
    split
    · split
      · next s' hs =>
        rw [hs] at hcreate
        exact hcreate
      · next s' m hs =>
        rw [hs] at hcreate
        exact hcreate
    · exact hgone
  · cases hhead : (s.released n).waitQueueHead with
    | none =>
      rw [LoopyConnPool.releaseGood_none hhead]
      exact hreleased
    | some r =>
      rw [LoopyConnPool.releaseGood_some hhead]
      exact hreleased

theorem unlink (prev : Option ℕ) (n : ℕ) : (s.unlink prev n).Tally := by
  unfold LoopyConnPool.unlink
  cases prev <;> exact h

theorem prewarmLoop (answers : Answers) (count i : ℕ) :
    (LoopyConnPool.prewarmLoop answers count s i).1.Tally := by
  apply LoopyConnPool.prewarmLoop_keeps (P := LoopyConnPool.Tally) ?_ ?_ count i h
  · intro t t' i ht hnone
    have hcreate := ht.createConnection (answers.create i) (answers.createdAt i)
    rw [hnone] at hcreate
    exact hcreate
  · intro t t' i n ht hsome
    have hcreate := ht.createConnection (answers.create i) (answers.createdAt i)
    rw [hsome] at hcreate
    exact hcreate

theorem step {a : Action} (hstep : step s a = some s') : s'.Tally := by
  cases a with
  | acquire answers =>
    cases hstep
    exact h.acquire answers
  | acquireAsync answers alloc =>
    cases hstep
    exact h.acquireAsync answers alloc
  | release n healthy answers =>
    obtain ⟨-, rfl⟩ := of_guard hstep
    exact h.release n healthy answers
  | healthCheck answers =>
    cases hstep
    refine LoopyConnPool.sweep_keeps (P := LoopyConnPool.Tally) (fun t prev n ht => ?_) _ _ _ _ h
    exact (ht.unlink prev n).destroyConnection n
  | cleanupIdle answers =>
    cases hstep
    refine LoopyConnPool.sweep_keeps (P := LoopyConnPool.Tally) (fun t prev n ht => ?_) _ _ _ _ h
    exact (ht.unlink prev n).destroyConnection n
  | prewarm count answers =>
    cases hstep
    exact h.prewarmLoop answers _ 0
  | ret =>
    rw [ConnPool.step] at hstep
    split at hstep
    · cases hstep
    all_goals
      cases hstep
      exact h

end

theorem new {config : LoopyConnPoolConfig} {validateCb : Bool}
    {answers : Answers} (hnew : LoopyConnPool.new config validateCb answers = some s) :
    s.Tally := by
  have hempty : (LoopyConnPool.empty config validateCb).Tally := rfl
  unfold LoopyConnPool.new at hnew
  split at hnew
  · dsimp only at hnew
    split at hnew
    · cases hnew
    · have hprewarm := hempty.prewarmLoop answers
        (if config.minIdle = 0 then config.minIdle else config.minIdle) 0
      cases hnew
      exact hprewarm
  · cases hnew
    exact hempty

end LoopyConnPool.Tally

end tally

/-! ## Requests -/

section queue

theorem Queued.release (h : Queued s waiting) (n : ℕ) (healthy : Bool) (answers : Answers) :
    ∃ waiting', Queued (s.release n healthy answers) waiting' := by
  have hreleased : Queued (s.released n) waiting := h.same ⟨rfl, rfl, rfl, rfl, rfl, rfl⟩
  rw [LoopyConnPool.release_eq]
  split
  · exact ⟨waiting, hreleased.same ((s.released n).releaseBroken_wait n answers)⟩
  · cases waiting with
    | nil =>
      have hhead : (s.released n).waitQueueHead = none := hreleased.chain.head
      rw [LoopyConnPool.releaseGood_none hhead]
      exact ⟨[], hreleased.same ⟨rfl, rfl, rfl, rfl, rfl, rfl⟩⟩
    | cons r l =>
      have hhead : (s.released n).waitQueueHead = some r := hreleased.chain.head
      rw [LoopyConnPool.releaseGood_some hhead]
      exact ⟨l, hreleased.serve rfl rfl rfl rfl⟩

theorem Queued.step {a : Action} (h : Queued s waiting) (hstep : step s a = some s') :
    ∃ waiting', Queued s' waiting' := by
  cases a with
  | acquire answers =>
    cases hstep
    exact ⟨waiting, h.same ((s.acquire_wait answers).trans ⟨rfl, rfl, rfl, rfl, rfl, rfl⟩)⟩
  | acquireAsync answers alloc =>
    cases hstep
    unfold LoopyConnPool.acquireAsync
    dsimp only
    split
    · exact ⟨waiting, h.serveNow (LoopyConnPool.acquire_wait _ answers) _ _⟩
    · exact ⟨_, (h.enqueue alloc).same ⟨rfl, rfl, rfl, rfl, rfl, rfl⟩⟩
  | release n healthy answers =>
    obtain ⟨-, rfl⟩ := of_guard hstep
    exact h.release n healthy answers
  | healthCheck answers =>
    -- the passes over the idle list do not look at the requests that wait
    cases hstep
    refine ⟨waiting, h.same (LoopyConnPool.sweep_wait ?_ _ _ _ _ _)⟩
    intro s n
    exact ⟨rfl, rfl, rfl, rfl, rfl, rfl⟩
  | cleanupIdle answers =>
    cases hstep
    refine ⟨waiting, h.same (LoopyConnPool.sweep_wait ?_ _ _ _ _ _)⟩
    intro s n
    exact ⟨rfl, rfl, rfl, rfl, rfl, rfl⟩
  | prewarm count answers =>
    cases hstep
    exact ⟨waiting, h.same (LoopyConnPool.prewarmLoop_wait answers _ s 0)⟩
  | ret =>
    rw [ConnPool.step] at hstep
    split at hstep
    · cases hstep
    all_goals
      cases hstep
      exact ⟨waiting, h.same ⟨rfl, rfl, rfl, rfl, rfl, rfl⟩⟩

end queue

end Loopy.ConnPool
