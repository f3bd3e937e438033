import Mathlib.Data.List.Nodup
import Loopy.ConnPool.Basic

/-!
# `loopyConnPool.c`: who has a connection

Every user connection is idle, held by a caller, in the hands of the function that runs, or
destroyed, and it is one of these once (`Owned`). Each function passes connections from one hand to
another, so the counters follow.
-/

namespace Loopy.ConnPool

open Loopy.Lib

/-- The connections on the idle list. -/
def LoopyConnPool.idle (s : LoopyConnPool) : List ℕ := walk s.next s.userConns s.idleConns

/-- A pool that knows where its connections are. -/
structure OwnershipLaw (s : LoopyConnPool) : Prop where
  idleNodup : s.idle.Nodup
  heldNodup : s.held.Nodup
  disjoint : ∀ n ∈ s.idle, n ∉ s.held
  idleCount : s.idleCount = s.idle.length
  total : s.totalConns = s.idle.length + s.held.length
  le : s.totalConns ≤ s.config.maxTotal
  creates : s.totalCreates = s.totalDestroys + s.totalConns
  destroyedOnce : s.destroyedConns.Nodup
  destroyedGone : ∀ n ∈ s.destroyedConns, n ∉ s.idle ∧ n ∉ s.held

/-- The connections `idle` are on the idle list, and the function that runs has those of `out`. -/
structure Owned (s : LoopyConnPool) (idle out : List ℕ) : Prop where
  chain : Chain s.next s.idleConns idle
  idleCount : s.idleCount = idle.length
  nodup : (idle ++ out ++ s.held ++ s.destroyedConns).Nodup
  bound : ∀ n ∈ idle ++ out ++ s.held ++ s.destroyedConns, n < s.userConns
  total : s.totalConns = idle.length + out.length + s.held.length
  le : s.totalConns ≤ s.config.maxTotal
  creates : s.totalCreates = s.totalDestroys + s.totalConns

variable {s s' : LoopyConnPool} {idle out l l₁ l₂ : List ℕ} {n m : ℕ}

/-- An empty pool owns nothing. -/
theorem Owned.empty (config : LoopyConnPoolConfig) (validateCb : Bool) :
    Owned (.empty config validateCb) [] [] :=
  ⟨Chain.nil, rfl, List.nodup_nil, nofun, rfl, Nat.zero_le _, rfl⟩

variable {conn : LoopyConnPoolConn} {answers : Answers} {config : LoopyConnPoolConfig}
  {validateCb : Bool}

theorem LoopyConnPool.next_setConn_of_ne (hm : m ≠ n) : (s.setConn n conn).next m = s.next m :=
  congrArg LoopyConnPoolConn.next (Function.update_of_ne hm ..)

theorem LoopyConnPool.next_setConn_self : (s.setConn n conn).next n = conn.next :=
  congrArg LoopyConnPoolConn.next (Function.update_self ..)

/-- A write that keeps the link. -/
theorem LoopyConnPool.next_setConn_same (hnext : conn.next = s.next n) :
    (s.setConn n conn).next = s.next := by
  funext m
  by_cases hm : m = n
  · rw [hm, next_setConn_self, hnext]
  · exact next_setConn_of_ne hm

/-! ## From hand to hand -/

namespace Owned

/-- The same connections, in other hands. -/
theorem moved (h : Owned s idle out) {idle' out' : List ℕ}
    (hchain : Chain s'.next s'.idleConns idle') (hcount : s'.idleCount = idle'.length)
    (hperm : (idle' ++ out' ++ s'.held ++ s'.destroyedConns).Perm
      (idle ++ out ++ s.held ++ s.destroyedConns))
    (huser : s'.userConns = s.userConns)
    (htotal : s'.totalConns = idle'.length + out'.length + s'.held.length)
    (hle : s'.totalConns ≤ s'.config.maxTotal)
    (hcreates : s'.totalCreates = s'.totalDestroys + s'.totalConns) : Owned s' idle' out' where
  chain := hchain
  idleCount := hcount
  nodup := hperm.nodup_iff.mpr h.nodup
  bound n hn := by
    rw [huser]
    exact h.bound n (hperm.mem_iff.mp hn)
  total := htotal
  le := hle
  creates := hcreates

/-- What does not touch the lists and the counters. -/
theorem touch (h : Owned s idle out) (n : ℕ) (now : UInt64) (inUse : Bool) :
    Owned (s.touch n now inUse) idle out := by
  have hnext : (s.touch n now inUse).next = s.next := LoopyConnPool.next_setConn_same rfl
  refine ⟨?_, h.idleCount, h.nodup, h.bound, h.total, h.le, h.creates⟩
  rw [hnext]
  exact h.chain

/-- A connection of the running function is handed to the caller. -/
theorem hand (h : Owned s idle [n]) : Owned { s with held := n :: s.held } idle [] := by
  have htotal := h.total
  refine h.moved h.chain h.idleCount ?_ rfl ?_ h.le h.creates
  · simp only [List.append_assoc, List.nil_append, List.cons_append]
    exact .refl _
  · show s.totalConns = idle.length + 0 + (s.held.length + 1)
    rw [htotal]
    simp only [List.length_singleton]
    omega

/-- A caller gives a connection back. -/
theorem giveBack (h : Owned s idle []) (hn : n ∈ s.held) :
    Owned { s with held := s.held.erase n } idle [n] := by
  have hlength := List.length_erase_of_mem hn
  have hpos := List.length_pos_of_mem hn
  have htotal := h.total
  refine h.moved h.chain h.idleCount ?_ rfl ?_ h.le h.creates
  · have hperm := (List.perm_cons_erase hn).symm
    have hmiddle : ([n] ++ s.held.erase n ++ s.destroyedConns).Perm
        (s.held ++ s.destroyedConns) := hperm.append_right _
    simpa only [List.append_assoc, List.nil_append] using hmiddle.append_left idle
  · show s.totalConns = idle.length + 1 + (s.held.erase n).length
    rw [htotal, hlength]
    simp only [List.length_nil]
    omega

/-- A connection in hand may be destroyed. -/
theorem destroyConnection (h : Owned s idle [n]) :
    Owned (s.destroyConnection n) idle [] := by
  have htotal := h.total
  have hcreates := h.creates
  rw [List.length_singleton] at htotal
  refine h.moved h.chain h.idleCount ?_ rfl ?_ ?_ ?_
  · show (idle ++ [] ++ s.held ++ (s.destroyedConns ++ [n])).Perm _
    simp only [List.append_assoc, List.nil_append]
    refine List.Perm.append_left idle ?_
    rw [← List.append_assoc]
    exact List.perm_append_comm
  · show s.totalConns - 1 = idle.length + 0 + s.held.length
    omega
  · exact Nat.le_trans (Nat.sub_le ..) h.le
  · show s.totalCreates = s.totalDestroys + 1 + (s.totalConns - 1)
    omega

/-- The first idle connection is taken off the list. -/
theorem removeFromIdleList (h : Owned s (n :: l) []) :
    ∃ s', s.removeFromIdleList = (s', some n) ∧ Owned s' l [n] := by
  have hhead : s.idleConns = some n := h.chain.head
  have hnot : n ∉ l := (List.nodup_cons.mp h.chain.nodup).1
  refine ⟨_, by rw [LoopyConnPool.removeFromIdleList, hhead], ?_⟩
  refine h.moved ?_ ?_ ?_ rfl ?_ h.le h.creates
  · refine h.chain.tail.congr fun m hm => LoopyConnPool.next_setConn_of_ne ?_
    rintro rfl
    exact hnot hm
  · show s.idleCount - 1 = l.length
    rw [h.idleCount]
    rfl
  · simp only [List.append_assoc, List.nil_append, List.cons_append]
    exact List.perm_middle
  · exact h.total

/-- It may be made idle. -/
theorem addToIdleList (h : Owned s idle [n]) : Owned (s.addToIdleList n) (n :: idle) [] := by
  have hnot : n ∉ idle := by
    intro hn
    have hnodup := h.nodup
    rw [List.append_assoc, List.append_assoc] at hnodup
    exact (List.nodup_append.mp hnodup).2.2 n hn n List.mem_cons_self rfl
  refine h.moved ?_ ?_ ?_ rfl ?_ h.le h.creates
  · refine h.chain.push LoopyConnPool.next_setConn_self fun m hm => ?_
    refine LoopyConnPool.next_setConn_of_ne ?_
    rintro rfl
    exact hnot hm
  · show s.idleCount + 1 = idle.length + 1
    rw [h.idleCount]
  · simp only [List.append_assoc, List.nil_append, List.cons_append]
    exact List.perm_middle.symm
  · exact h.total

/-- A new connection is in the hands of the function that has it made. -/
theorem createConnection (h : Owned s idle []) (r : CreateResult) (now : UInt64) :
    Owned (s.createConnection r now).1 idle (s.createConnection r now).2.toList := by
  -- the user connection is one that the pool has never seen
  have hfresh : ∀ m ∈ idle ++ [] ++ s.held ++ s.destroyedConns, s.userConns ≠ m :=
    fun m hm => Nat.ne_of_gt (h.bound m hm)
  unfold LoopyConnPool.createConnection
  split
  · exact ⟨h.chain, h.idleCount, h.nodup, h.bound, h.total, h.le, h.creates⟩
  · next hroom =>
    have hlt : s.totalConns < s.config.maxTotal := Nat.lt_of_not_le hroom
    cases r with
    | createCbFails => exact ⟨h.chain, h.idleCount, h.nodup, h.bound, h.total, h.le, h.creates⟩
    | zcallocFails =>
      have hperm : (idle ++ [] ++ s.held ++ (s.destroyedConns ++ [s.userConns])).Perm
          (s.userConns :: (idle ++ [] ++ s.held ++ s.destroyedConns)) := by
        rw [← List.append_assoc]
        exact List.perm_append_singleton ..
      refine ⟨h.chain, h.idleCount, ?_, fun m hm => ?_, h.total, h.le, h.creates⟩
      · exact hperm.nodup_iff.mpr (List.nodup_cons.mpr ⟨fun hm => hfresh _ hm rfl, h.nodup⟩)
      · obtain rfl | hm := List.mem_cons.mp (hperm.mem_iff.mp hm)
        · exact Nat.lt_succ_self _
        · exact Nat.lt_succ_of_lt (h.bound m hm)
    | created =>
      have hperm : (idle ++ [s.userConns] ++ s.held ++ s.destroyedConns).Perm
          (s.userConns :: (idle ++ [] ++ s.held ++ s.destroyedConns)) := by
        simp only [List.append_assoc, List.nil_append, List.cons_append]
        exact List.perm_middle
      have htotal := h.total
      have hcreates := h.creates
      refine ⟨?_, h.idleCount, ?_, fun m hm => ?_, ?_, hlt, ?_⟩
      · refine h.chain.congr fun m hm => LoopyConnPool.next_setConn_of_ne ?_
        rintro rfl
        refine hfresh _ ?_ rfl
        exact List.mem_append_left _ (List.mem_append_left _ (List.mem_append_left _ hm))
      · exact hperm.nodup_iff.mpr (List.nodup_cons.mpr ⟨fun hm => hfresh _ hm rfl, h.nodup⟩)
      · obtain rfl | hm := List.mem_cons.mp (hperm.mem_iff.mp hm)
        · exact Nat.lt_succ_self _
        · exact Nat.lt_succ_of_lt (h.bound m hm)
      · show s.totalConns + 1 = idle.length + 1 + s.held.length
        rw [List.length_nil] at htotal
        omega
      · show s.totalCreates + 1 = s.totalDestroys + (s.totalConns + 1)
        omega

/-- What is acquired is handed to the caller. -/
theorem handOver {conn : Option ℕ} (h : Owned s idle conn.toList) :
    Owned { s with held := conn.toList ++ s.held } idle [] := by
  cases conn with
  | none => exact h
  | some n => exact h.hand

/-! ## Acquire and release -/

/-- The loop comes to an end with a connection in hand or with an empty list. -/
theorem acquireIdle (h : Owned s idle []) (answers : Answers) {fuel : ℕ}
    (hfuel : idle.length ≤ fuel) :
    ∃ idle', Owned (LoopyConnPool.acquireIdle answers fuel s).1 idle'
        (LoopyConnPool.acquireIdle answers fuel s).2.toList ∧
      ((LoopyConnPool.acquireIdle answers fuel s).2 = none → idle' = []) := by
  -- every round takes one connection off the list
  induction fuel generalizing s idle with
  | zero =>
    obtain rfl := List.eq_nil_of_length_eq_zero (Nat.le_zero.mp hfuel)
    exact ⟨[], h, fun _ => rfl⟩
  | succ fuel ih =>
    cases idle with
    | nil =>
      have hnone : s.removeFromIdleList = (s, none) := by
        have hhead : s.idleConns = none := h.chain.head
        rw [LoopyConnPool.removeFromIdleList, hhead]
      rw [LoopyConnPool.acquireIdle, hnone]
      exact ⟨[], h, fun _ => rfl⟩
    | cons n l =>
      obtain ⟨s', hremove, h'⟩ := h.removeFromIdleList
      have hlength : l.length ≤ fuel := Nat.le_of_succ_le_succ hfuel
      rw [LoopyConnPool.acquireIdle, hremove]
      dsimp only
      split
      · have hfailed : Owned
            { s' with totalValidationFailures := s'.totalValidationFailures + 1 } l [n] :=
          ⟨h'.chain, h'.idleCount, h'.nodup, h'.bound, h'.total, h'.le, h'.creates⟩
        exact ih hfailed.destroyConnection hlength
      · split
        · exact ih h'.destroyConnection hlength
        · exact ⟨l, h', nofun⟩

/-- The list is not longer than there are connections. -/
theorem length_le (h : Owned s idle out) : idle.length ≤ s.userConns := by
  refine h.chain.length_le fun n hn => h.bound n ?_
  exact List.mem_append_left _ (List.mem_append_left _ (List.mem_append_left _ hn))

/-- What was found is in hand, or a new one is. -/
theorem acquireFound {conn : Option ℕ} (h : Owned s idle conn.toList) (answers : Answers) :
    Owned (s.acquireFound conn answers).1 idle (s.acquireFound conn answers).2.toList := by
  unfold LoopyConnPool.acquireFound
  cases conn with
  | some n =>
    have ht := h.touch n answers.used true
    exact ⟨ht.chain, ht.idleCount, ht.nodup, ht.bound, ht.total, ht.le, ht.creates⟩
  | none =>
    have hc := h.createConnection (answers.create 0) (answers.createdAt 0)
    dsimp only
    split
    · next s' hs =>
      rw [hs] at hc
      exact ⟨hc.chain, hc.idleCount, hc.nodup, hc.bound, hc.total, hc.le, hc.creates⟩
    · next s' n hs =>
      rw [hs] at hc
      have ht := hc.touch n answers.used true
      exact ⟨ht.chain, ht.idleCount, ht.nodup, ht.bound, ht.total, ht.le, ht.creates⟩

/-- **Acquire** puts one in hand, or none. -/
theorem acquire (h : Owned s idle []) (answers : Answers) :
    ∃ idle', Owned (s.acquire answers).1 idle' (s.acquire answers).2.toList := by
  obtain ⟨idle', hidle, -⟩ := h.acquireIdle answers h.length_le
  exact ⟨idle', hidle.acquireFound answers⟩

theorem enqueueWaitRequest (h : Owned s idle out) (r : ℕ) (alloc : Bool) :
    Owned (s.enqueueWaitRequest r alloc) idle out := by
  unfold LoopyConnPool.enqueueWaitRequest
  dsimp only
  repeat' split
  all_goals exact ⟨h.chain, h.idleCount, h.nodup, h.bound, h.total, h.le, h.creates⟩

/-- The callback holds what it is given. -/
theorem callback (conn : Option ℕ) (h : Owned s idle conn.toList) (r : ℕ) (frame : Frame) :
    Owned (s.callback r conn frame) idle [] := by
  have hheld := h.handOver
  exact ⟨hheld.chain, hheld.idleCount, hheld.nodup, hheld.bound, hheld.total, hheld.le,
    hheld.creates⟩

/-- **AcquireAsync** gives it to a callback, or waits. -/
theorem acquireAsync (h : Owned s idle []) (answers : Answers) (alloc : Bool) :
    ∃ idle', Owned (s.acquireAsync answers alloc) idle' [] := by
  have hasked : Owned { s with asked := s.asked + 1 } idle [] :=
    ⟨h.chain, h.idleCount, h.nodup, h.bound, h.total, h.le, h.creates⟩
  unfold LoopyConnPool.acquireAsync
  dsimp only
  split
  · obtain ⟨idle', hacquired⟩ := hasked.acquire answers
    exact ⟨idle', .callback _ hacquired ..⟩
  · have hqueued := hasked.enqueueWaitRequest s.asked alloc
    exact ⟨idle, hqueued.chain, hqueued.idleCount, hqueued.nodup, hqueued.bound, hqueued.total,
      hqueued.le, hqueued.creates⟩

/-- A broken connection is destroyed, and perhaps replaced. -/
theorem releaseBroken (h : Owned s idle [n]) (answers : Answers) :
    ∃ idle', Owned (s.releaseBroken n answers) idle' [] := by
  have hcounted : Owned { s with activeCount := s.activeCount - 1 } idle [n] :=
    ⟨h.chain, h.idleCount, h.nodup, h.bound, h.total, h.le, h.creates⟩
  have hgone := hcounted.destroyConnection
  have hnew := hgone.createConnection (answers.create 0) (answers.createdAt 0)
  unfold LoopyConnPool.releaseBroken
  dsimp only
  split
  · split
    · next s' hs =>
      rw [hs] at hnew
      exact ⟨idle, hnew⟩
    · next s' m hs =>
      rw [hs] at hnew
      exact ⟨m :: idle, hnew.addToIdleList⟩
  · exact ⟨idle, hgone⟩

end Owned

/-- A good connection goes to who waits first. -/
theorem LoopyConnPool.releaseGood_some {r : ℕ} (hhead : s.waitQueueHead = some r)
    (answers : Answers) :
    s.releaseGood n answers = LoopyConnPool.callback (LoopyConnPool.touch { s with
      waitQueueHead := s.waitNext r
      waitQueueTail := if s.waitNext r = none then none else s.waitQueueTail } n answers.used true)
      r (some n) .release := by
  unfold releaseGood dequeueWaitRequest
  rw [hhead]

/-- Without a waiter it becomes idle. -/
theorem LoopyConnPool.releaseGood_none (hhead : s.waitQueueHead = none) (answers : Answers) :
    s.releaseGood n answers = LoopyConnPool.addToIdleList { s.touch n answers.used false with
      activeCount := s.activeCount - 1 } n := by
  unfold releaseGood dequeueWaitRequest
  rw [hhead]

/-- A good connection goes to the first request that waits. -/
theorem Owned.releaseGood_waiting (h : Owned s idle [n]) {r : ℕ} (hhead : s.waitQueueHead = some r)
    (answers : Answers) : Owned (s.releaseGood n answers) idle [] := by
  have hdequeued : Owned { s with
      waitQueueHead := s.waitNext r
      waitQueueTail := if s.waitNext r = none then none else s.waitQueueTail } idle [n] :=
    ⟨h.chain, h.idleCount, h.nodup, h.bound, h.total, h.le, h.creates⟩
  rw [LoopyConnPool.releaseGood_some hhead]
  exact .callback (some n) (hdequeued.touch n answers.used true) r _

/-- If none waits, it goes back to the list. -/
theorem Owned.releaseGood_idle (h : Owned s idle [n]) (hhead : s.waitQueueHead = none)
    (answers : Answers) : Owned (s.releaseGood n answers) (n :: idle) [] := by
  have ht := h.touch n answers.used false
  have hcounted : Owned { s.touch n answers.used false with activeCount := s.activeCount - 1 } idle
      [n] := ⟨ht.chain, ht.idleCount, ht.nodup, ht.bound, ht.total, ht.le, ht.creates⟩
  rw [LoopyConnPool.releaseGood_none hhead]
  exact hcounted.addToIdleList

/-- The connection in the hands of `loopyConnPoolRelease`. -/
def LoopyConnPool.released (s : LoopyConnPool) (n : ℕ) : LoopyConnPool :=
  { s.setConn n { s.conn n with inUse := false } with
    held := s.held.erase n
    totalReleases := s.totalReleases + 1 }

/-- A connection that is given back is in hand. -/
theorem Owned.released (h : Owned s idle []) (hn : n ∈ s.held) : Owned (s.released n) idle [n] := by
  have hback := h.giveBack hn
  have hnext : (s.setConn n { s.conn n with inUse := false }).next = s.next :=
    LoopyConnPool.next_setConn_same rfl
  refine ⟨?_, hback.idleCount, hback.nodup, hback.bound, hback.total, hback.le, hback.creates⟩
  exact (congrArg (Chain · s.idleConns idle) hnext).mpr h.chain

theorem LoopyConnPool.release_eq (healthy : Bool) (answers : Answers) :
    s.release n healthy answers =
      if healthy = false ∨ (s.released n).isConnectionExpired n (answers.checked n) = true then
        (s.released n).releaseBroken n answers
      else (s.released n).releaseGood n answers := rfl

/-- **Release** destroys it, hands it on or keeps it. -/
theorem Owned.release (h : Owned s idle []) (hn : n ∈ s.held) (healthy : Bool)
    (answers : Answers) : ∃ idle', Owned (s.release n healthy answers) idle' [] := by
  have hreleased := h.released hn
  rw [LoopyConnPool.release_eq]
  split
  · exact hreleased.releaseBroken answers
  · cases hhead : (s.released n).waitQueueHead with
    | none => exact ⟨n :: idle, hreleased.releaseGood_idle hhead answers⟩
    | some r => exact ⟨idle, hreleased.releaseGood_waiting hhead answers⟩

/-! ## Maintenance -/

/-- The links go past a connection that is unlinked. -/
theorem LoopyConnPool.unlink_chain (s : LoopyConnPool)
    (h : Chain s.next s.idleConns (l₁ ++ n :: l₂)) :
    Chain (s.unlink l₁.getLast? n).next (s.unlink l₁.getLast? n).idleConns (l₁ ++ l₂) := by
  obtain rfl | ⟨l, m, rfl⟩ := List.eq_nil_or_concat l₁
  · -- the first one: the head of the list moves on
    exact h.tail
  · -- behind `m`, whose link skips it
    rw [List.concat_eq_append, List.getLast?_concat, List.append_assoc]
    rw [List.concat_eq_append, List.append_assoc] at h
    refine h.unlink next_setConn_self fun k _ hk => ?_
    exact next_setConn_of_ne hk

/-- A connection is unlinked in the middle of the list. -/
theorem Owned.unlink (h : Owned s (l₁ ++ n :: l₂) []) :
    Owned (s.unlink l₁.getLast? n) (l₁ ++ l₂) [n] := by
  have hcount : s.idleCount - 1 = (l₁ ++ l₂).length := by
    rw [h.idleCount]
    simp only [List.length_append, List.length_cons]
    omega
  have hperm : (l₁ ++ l₂ ++ [n] ++ s.held ++ s.destroyedConns).Perm
      (l₁ ++ n :: l₂ ++ [] ++ s.held ++ s.destroyedConns) := by
    refine List.Perm.append_right _ (List.Perm.append_right _ ?_)
    rw [List.append_nil]
    exact (List.perm_append_singleton n _).trans List.perm_middle.symm
  have htotal : s.totalConns = (l₁ ++ l₂).length + [n].length + s.held.length := by
    rw [h.total]
    simp only [List.length_append, List.length_cons, List.length_nil]
    omega
  have hchain := s.unlink_chain h.chain
  revert hchain
  -- but for the links only the count changes
  cases l₁.getLast? with
  | none => exact fun hchain => h.moved hchain hcount hperm rfl htotal h.le h.creates
  | some m => exact fun hchain => h.moved hchain hcount hperm rfl htotal h.le h.creates

section sweep

variable {doomed : LoopyConnPool → ℕ → Bool} {drop : LoopyConnPool → ℕ → LoopyConnPool}

/-- What every drop of a sweep keeps, the sweep keeps. -/
theorem LoopyConnPool.sweep_keeps {P : LoopyConnPool → Prop}
    (hdropped : ∀ s prev n, P s → P (drop (s.unlink prev n) n)) (fuel : ℕ)
    (prev curr : Option ℕ) (count : ℕ) (hs : P s) : P (sweep doomed drop fuel s prev curr count).1 := by
  induction fuel generalizing s prev curr count with
  | zero => exact hs
  | succ fuel ih =>
    cases curr with
    | none => exact hs
    | some n =>
      rw [sweep]
      split
      · exact ih prev (s.next n) (count + 1) (hdropped s prev n hs)
      · exact ih (some n) (s.next n) count hs

/-- A sweep, with `l₁` behind it and `l₂` before it: connections are dropped one at a time, and it
does not stop for lack of fuel. -/
theorem Owned.sweep (hdrop : ∀ s idle n, Owned s idle [n] → Owned (drop s n) idle [])
    (h : Owned s (l₁ ++ l₂) []) {fuel : ℕ} (hfuel : l₂.length ≤ fuel) (count : ℕ) :
    (∃ idle', Owned (LoopyConnPool.sweep doomed drop fuel s l₁.getLast? l₂.head? count).1
        idle' []) ∧
      LoopyConnPool.sweep doomed drop (fuel + 1) s l₁.getLast? l₂.head? count =
        LoopyConnPool.sweep doomed drop fuel s l₁.getLast? l₂.head? count := by
  -- on what is before the sweep; what is behind it stays as it is
  induction l₂ generalizing s l₁ fuel count with
  | nil =>
    cases fuel with
    | zero => exact ⟨⟨l₁ ++ [], h⟩, rfl⟩
    | succ fuel => exact ⟨⟨l₁ ++ [], h⟩, rfl⟩
  | cons n l₂ ih =>
    obtain ⟨fuel, rfl⟩ : ∃ k, fuel = k + 1 := Nat.exists_eq_succ_of_ne_zero (by
      rw [List.length_cons] at hfuel
      omega)
    have hlength : l₂.length ≤ fuel := Nat.le_of_succ_le_succ hfuel
    have hcons (k : ℕ) : LoopyConnPool.sweep doomed drop (k + 1) s l₁.getLast? (some n) count =
        if doomed s n then
          LoopyConnPool.sweep doomed drop k (drop (s.unlink l₁.getLast? n) n) l₁.getLast?
            l₂.head? (count + 1)
        else LoopyConnPool.sweep doomed drop k s (some n) l₂.head? count := by
      rw [← h.chain.next_eq]
      rfl
    rw [List.head?_cons, hcons, hcons]
    by_cases hdoomed : doomed s n = true
    · rw [if_pos hdoomed, if_pos hdoomed]
      exact ih (hdrop _ _ _ h.unlink) hlength (count + 1)
    · rw [if_neg hdoomed, if_neg hdoomed]
      have hkept : Owned s (l₁ ++ [n] ++ l₂) [] := by
        rw [List.append_assoc]
        exact h
      have hlast : (l₁ ++ [n]).getLast? = some n := List.getLast?_concat
      rw [← hlast]
      exact ih hkept hlength count

/-- Maintenance only destroys idle ones. -/
theorem Owned.sweepAll (hdrop : ∀ s idle n, Owned s idle [n] → Owned (drop s n) idle [])
    (h : Owned s idle []) :
    ∃ idle', Owned (LoopyConnPool.sweep doomed drop s.userConns s none s.idleConns 0).1
      idle' [] := by
  have hfront : Owned s ([] ++ idle) [] := h
  rw [h.chain.head]
  exact (Owned.sweep hdrop hfront h.length_le 0).1

end sweep

theorem Owned.healthCheck (h : Owned s idle []) (answers : Answers) :
    ∃ idle', Owned (s.healthCheck answers).1 idle' [] := by
  refine h.sweepAll fun s idle n h => ?_
  have hfailed : Owned { s with totalValidationFailures := s.totalValidationFailures + 1 } idle
      [n] := ⟨h.chain, h.idleCount, h.nodup, h.bound, h.total, h.le, h.creates⟩
  exact hfailed.destroyConnection

theorem Owned.cleanupIdle (h : Owned s idle []) (answers : Answers) :
    ∃ idle', Owned (s.cleanupIdle answers).1 idle' [] :=
  h.sweepAll fun _ _ _ h => h.destroyConnection

/-- What every round of the prewarming keeps, the loop keeps. -/
theorem LoopyConnPool.prewarmLoop_keeps {P : LoopyConnPool → Prop}
    (hfailed : ∀ {s s' i}, P s →
      s.createConnection (answers.create i) (answers.createdAt i) = (s', none) → P s')
    (hcreated : ∀ {s s' i n}, P s →
      s.createConnection (answers.create i) (answers.createdAt i) = (s', some n) →
      P (s'.addToIdleList n))
    (count i : ℕ) (hs : P s) : P (prewarmLoop answers count s i).1 := by
  induction count generalizing s i with
  | zero => exact hs
  | succ count ih =>
    unfold prewarmLoop
    split
    · split
      · next s' hnone => exact hfailed hs hnone
      · next s' n hsome => exact ih (i + 1) (hcreated hs hsome)
    · exact hs

theorem Owned.prewarmLoop (h : Owned s idle []) (answers : Answers) (count i : ℕ) :
    ∃ idle', Owned (LoopyConnPool.prewarmLoop answers count s i).1 idle' [] := by
  apply LoopyConnPool.prewarmLoop_keeps (P := fun t => ∃ idle', Owned t idle' []) ?_ ?_ count i
    ⟨idle, h⟩
  · rintro s s' i ⟨idle, h⟩ hnone
    have hnew := h.createConnection (answers.create i) (answers.createdAt i)
    rw [hnone] at hnew
    exact ⟨idle, hnew⟩
  · rintro s s' i n ⟨idle, h⟩ hsome
    have hnew := h.createConnection (answers.create i) (answers.createdAt i)
    rw [hsome] at hnew
    exact ⟨n :: idle, hnew.addToIdleList⟩

/-! ## Runs -/

/-- A new pool owns what it has prewarmed. -/
theorem Owned.new (hnew : LoopyConnPool.new config validateCb answers = some s) :
    ∃ idle, Owned s idle [] := by
  have hempty := Owned.empty config validateCb
  unfold LoopyConnPool.new at hnew
  split at hnew
  · dsimp only at hnew
    split at hnew
    · cases hnew
    · obtain ⟨idle, h⟩ := hempty.prewarmLoop answers
        (if config.minIdle = 0 then config.minIdle else config.minIdle) 0
      cases hnew
      exact ⟨idle, h.chain, h.idleCount, h.nodup, h.bound, h.total, h.le, h.creates⟩
  · cases hnew
    exact ⟨[], hempty⟩

/-- **Every action keeps every connection in one place.**. -/
theorem Owned.step {a : Action} (h : Owned s idle []) (hstep : step s a = some s') :
    ∃ idle', Owned s' idle' [] := by
  cases a with
  | acquire answers =>
    obtain ⟨idle', hacquired⟩ := h.acquire answers
    cases hstep
    exact ⟨idle', hacquired.handOver⟩
  | acquireAsync answers alloc =>
    cases hstep
    exact h.acquireAsync answers alloc
  | release n healthy answers =>
    obtain ⟨hn, rfl⟩ := of_guard hstep
    exact h.release hn healthy answers
  | healthCheck answers =>
    cases hstep
    exact h.healthCheck answers
  | cleanupIdle answers =>
    cases hstep
    exact h.cleanupIdle answers
  | prewarm count answers =>
    cases hstep
    exact h.prewarmLoop answers ..
  | ret =>
    rw [ConnPool.step] at hstep
    split at hstep
    · cases hstep
    all_goals
      cases hstep
      exact ⟨idle, h.chain, h.idleCount, h.nodup, h.bound, h.total, h.le, h.creates⟩

theorem Owned.run {start : LoopyConnPool}
    (hnew : LoopyConnPool.new config validateCb answers = some start) {as : List Action}
    (hrun : Run ConnPool.step (fun _ _ => True) start as s) : ∃ idle, Owned s idle [] := by
  refine hrun.invariant (P := fun s => ∃ idle, Owned s idle []) ?_ (Owned.new hnew)
  rintro s a s' ⟨idle, h⟩ - hstep
  exact h.step hstep

/-- A run from a new pool of which the execution shows a part of the last state. -/
theorem run_of_exec_map {ok : LoopyConnPool → Action → Prop} [∀ s a, Decidable (ok s a)]
    {as : List Action} {β : Type} {f : LoopyConnPool → β} {b : β}
    (h : ((LoopyConnPool.new config validateCb answers).bind fun start =>
      exec step ok start as).map f = some b) :
    ∃ start s, LoopyConnPool.new config validateCb answers = some start ∧ Run step ok start as s ∧
      f s = b := by
  obtain ⟨s, hs, hb⟩ := Option.map_eq_some_iff.mp h
  obtain ⟨start, hnew, hs⟩ := Option.bind_eq_some_iff.mp hs
  exact ⟨start, s, hnew, Run.iff_exec.mpr hs, hb⟩

/-- That is the law. -/
theorem Owned.law (h : Owned s idle []) : OwnershipLaw s := by
  have hidle : s.idle = idle := walk_eq h.chain h.length_le
  have hnodup := h.nodup
  rw [List.append_nil, List.append_assoc] at hnodup
  obtain ⟨hidleNodup, hrest, hdisjoint⟩ := List.nodup_append.mp hnodup
  obtain ⟨hheld, hdestroyed, hapart⟩ := List.nodup_append.mp hrest
  refine ⟨?_, hheld, fun n hn hnheld => ?_, ?_, ?_, h.le, h.creates, hdestroyed, fun n hn => ?_⟩
  · rw [hidle]
    exact hidleNodup
  · rw [hidle] at hn
    exact hdisjoint n hn n (List.mem_append_left _ hnheld) rfl
  · rw [hidle]
    exact h.idleCount
  · rw [hidle]
    exact h.total
  · rw [hidle]
    refine ⟨fun hidle => ?_, fun hheld => ?_⟩
    · exact hdisjoint n hidle n (List.mem_append_right _ hn) rfl
    · exact hapart n hheld n hn rfl

/-- **Ownership and capacity**: in every state of every run of a pool, also in the callbacks of
its requests, each connection is in one place and the counters say where. -/
theorem ownership {config : LoopyConnPoolConfig} {validateCb : Bool} {answers : Answers}
    {start : LoopyConnPool} (hnew : LoopyConnPool.new config validateCb answers = some start)
    {as : List Action} (hrun : Run step (fun _ _ => True) start as s) : OwnershipLaw s := by
  obtain ⟨idle, h⟩ := Owned.run hnew hrun
  exact h.law

/-- Everything succeeds, and no time passes. -/
def goodAnswers : Answers where
  validate _ := true
  create _ := .created
  checked _ := 0
  createdAt _ := 0
  used := 0

/-- At most two connections, one of them made in advance. -/
def smallConfig : LoopyConnPoolConfig where
  minIdle := 1
  maxTotal := 2
  idleTimeoutUs := 10
  maxLifetimeUs := 100

/-- A request in the callback of another one waits for a connection, which is released as broken in
its callback; then a connection fails its validation, and others are made and left idle too long. -/
def poolRun : List Action :=
  [.acquire goodAnswers, .acquireAsync goodAnswers true, .acquireAsync goodAnswers true, .ret,
    .release 1 true goodAnswers, .release 1 false goodAnswers, .ret, .release 0 true goodAnswers,
    .healthCheck { goodAnswers with validate := fun _ => false }, .prewarm 3 goodAnswers,
    .cleanupIdle { goodAnswers with checked := fun _ => 20 }, .acquire goodAnswers]

theorem ownership_poolRun :
    ∃ start s, LoopyConnPool.new smallConfig true goodAnswers = some start ∧
      Run step (fun _ _ => True) start poolRun s ∧ OwnershipLaw s ∧
      s.held = [2] ∧ s.destroyedConns = [1, 0, 3] := by
  have hexec : ((LoopyConnPool.new smallConfig true goodAnswers).bind fun start =>
      exec step (fun _ _ => True) start poolRun).map (fun s => (s.held, s.destroyedConns)) =
      some ([2], [1, 0, 3]) := by decide +kernel
  obtain ⟨start, s, hnew, hrun, hval⟩ := run_of_exec_map hexec
  obtain ⟨hheld, hdestroyed⟩ := Prod.mk.inj hval
  exact ⟨start, s, hnew, hrun, ownership hnew hrun, hheld, hdestroyed⟩

end Loopy.ConnPool
