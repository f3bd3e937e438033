import Loopy.ConnPool.Ownership

/-!
# `loopyConnPool.c`: health checks and idle cleanup

Both functions go over the idle list once and unlink some of its connections on the way. A health
check takes those that are rejected. A cleanup takes those that are too old, the first ones as long
as there are more than `minIdle` connections (`IdleList.sweep`).

The clock is `gettimeofday`, which may be set back. A connection that was then used later than it is
checked has an idle time beyond every timeout.
-/

namespace Loopy.ConnPool

open Loopy.Lib

/-- The connections `idle` are on the idle list, and they are counted. -/
structure IdleList (s : LoopyConnPool) (idle : List ℕ) : Prop where
  chain : Chain s.next s.idleConns idle
  idleCount : s.idleCount = idle.length
  le : idle.length ≤ s.totalConns
  made : ∀ n ∈ idle, n < s.userConns

/-- The validate callback rejects a connection. -/
def LoopyConnPool.rejects (s : LoopyConnPool) (answers : Answers) (n : ℕ) : Bool :=
  s.validateCb && !answers.validate n

/-- There is a timeout, and a connection has been idle for at least as long when it is checked. -/
def LoopyConnPool.idledOut (s : LoopyConnPool) (answers : Answers) (n : ℕ) : Bool :=
  decide (s.config.idleTimeoutUs ≠ 0) &&
    decide ((s.conn n).lastUseTime.toNat + s.config.idleTimeoutUs.toNat ≤
      (answers.checked n).toNat)

/-- `isConnectionIdleTooLong` when a connection is checked. -/
def LoopyConnPool.tooLong (s : LoopyConnPool) (answers : Answers) (n : ℕ) : Bool :=
  s.isConnectionIdleTooLong n (answers.checked n)

/-- A health check removes what is rejected and keeps the rest in order. -/
structure HealthLaw (s : LoopyConnPool) (answers : Answers) (s' : LoopyConnPool)
    (destroyed : ℕ) : Prop where
  kept : s'.idle = s.idle.filter fun n => !s.rejects answers n
  destroyedConns : s'.destroyedConns = s.destroyedConns ++ s.idle.filter (s.rejects answers)
  count : destroyed = (s.idle.filter (s.rejects answers)).length
  total : s'.totalConns + destroyed = s.totalConns
  idleCount : s'.idleCount = s'.idle.length

/-- A cleanup removes connections that have been idle too long, the first ones, until `minIdle` are
left, and keeps the rest in order. -/
structure CleanupLaw (s : LoopyConnPool) (answers : Answers) (s' : LoopyConnPool)
    (closed : ℕ) : Prop where
  order : s'.idle.Sublist s.idle
  destroyedConns :
    s'.destroyedConns = s.destroyedConns ++ s.idle.filter fun n => decide (n ∉ s'.idle)
  old : ∀ n ∈ s.idle, n ∉ s'.idle → s.idledOut answers n = true
  first : (s.idle.filter fun n => decide (n ∉ s'.idle)) =
    (s.idle.filter (s.idledOut answers)).take (s.totalConns - s.config.minIdle)
  stops : s'.totalConns ≤ s.config.minIdle ∨ ∀ n ∈ s'.idle, s.idledOut answers n = false
  floor : min s.config.minIdle s.totalConns ≤ s'.totalConns
  count : closed + s'.idle.length = s.idle.length
  total : s'.totalConns + closed = s.totalConns
  idleCount : s'.idleCount = s'.idle.length

/-! ## The sweep -/

/-- From `s` to `t` the connections `removed` were destroyed. -/
structure Swept (s t : LoopyConnPool) (removed : List ℕ) : Prop where
  config : t.config = s.config
  validateCb : t.validateCb = s.validateCb
  lastUseTime : ∀ n, (t.conn n).lastUseTime = (s.conn n).lastUseTime
  destroyedConns : t.destroyedConns = s.destroyedConns ++ removed
  idleCount : t.idleCount + removed.length = s.idleCount
  total : t.totalConns + removed.length = s.totalConns

/-- A connection that has been unlinked is destroyed. -/
structure Drops (s t : LoopyConnPool) (n : ℕ) : Prop where
  config : t.config = s.config
  validateCb : t.validateCb = s.validateCb
  conn : t.conn = s.conn
  idleConns : t.idleConns = s.idleConns
  idleCount : t.idleCount = s.idleCount
  userConns : t.userConns = s.userConns
  destroyedConns : t.destroyedConns = s.destroyedConns ++ [n]
  total : t.totalConns = s.totalConns - 1

section sweep

variable {s t u : LoopyConnPool} {idle removed removed' l₁ l₂ : List ℕ} {n floor : ℕ}
  {bad : ℕ → Bool} {doomed : LoopyConnPool → ℕ → Bool}
  {drop : LoopyConnPool → ℕ → LoopyConnPool}

theorem Swept.refl (s : LoopyConnPool) : Swept s s [] :=
  ⟨rfl, rfl, fun _ => rfl, (List.append_nil _).symm, rfl, rfl⟩

theorem Swept.trans (h : Swept s t removed) (h' : Swept t u removed') :
    Swept s u (removed ++ removed') where
  config := h'.config.trans h.config
  validateCb := h'.validateCb.trans h.validateCb
  lastUseTime n := (h'.lastUseTime n).trans (h.lastUseTime n)
  destroyedConns := by rw [h'.destroyedConns, h.destroyedConns, List.append_assoc]
  idleCount := by
    have hfirst := h.idleCount
    have hsecond := h'.idleCount
    rw [List.length_append]
    omega
  total := by
    have hfirst := h.total
    have hsecond := h'.total
    rw [List.length_append]
    omega

theorem Owned.idleList (h : Owned s idle []) : IdleList s idle := by
  refine ⟨h.chain, h.idleCount, ?_, fun n hn => h.bound n ?_⟩
  · rw [h.total]
    omega
  · exact List.mem_append_left _ (List.mem_append_left _ (List.mem_append_left _ hn))

theorem IdleList.idle_eq (h : IdleList s idle) : s.idle = idle :=
  walk_eq h.chain (h.chain.length_le h.made)

theorem LoopyConnPool.unlink_lastUseTime (s : LoopyConnPool) (prev : Option ℕ) (n m : ℕ) :
    ((s.unlink prev n).conn m).lastUseTime = (s.conn m).lastUseTime := by
  unfold unlink setConn
  cases prev with
  | none => rfl
  | some k =>
    by_cases hm : m = k
    · subst hm
      have hself := congrArg LoopyConnPoolConn.lastUseTime
        (Function.update_self m { s.conn m with next := s.next n } s.conn)
      exact hself
    · exact congrArg LoopyConnPoolConn.lastUseTime (Function.update_of_ne hm ..)

/-- A connection in the middle of the list is unlinked and destroyed. -/
theorem IdleList.drops (h : IdleList s (l₁ ++ n :: l₂))
    (hdrop : Drops (s.unlink l₁.getLast? n) t n) : IdleList t (l₁ ++ l₂) ∧ Swept s t [n] := by
  have hchain := s.unlink_chain h.chain
  have htimes := s.unlink_lastUseTime l₁.getLast? n
  have hle := h.le
  have hcount := h.idleCount
  rw [List.length_append, List.length_cons] at hle hcount
  have hframe : (s.unlink l₁.getLast? n).config = s.config ∧
      (s.unlink l₁.getLast? n).validateCb = s.validateCb ∧
      (s.unlink l₁.getLast? n).idleCount = s.idleCount - 1 ∧
      (s.unlink l₁.getLast? n).userConns = s.userConns ∧
      (s.unlink l₁.getLast? n).destroyedConns = s.destroyedConns ∧
      (s.unlink l₁.getLast? n).totalConns = s.totalConns := by
    cases l₁.getLast? <;> exact ⟨rfl, rfl, rfl, rfl, rfl, rfl⟩
  obtain ⟨hconfig, hvalidate, hidle, huser, hdestroyed, htotal⟩ := hframe
  have hnext : t.next = (s.unlink l₁.getLast? n).next := by
    funext m
    rw [LoopyConnPool.next, hdrop.conn, LoopyConnPool.next]
  refine ⟨⟨?_, ?_, ?_, fun m hm => ?_⟩, ?_, ?_, fun m => ?_, ?_, ?_, ?_⟩
  · rw [hnext, hdrop.idleConns]
    exact hchain
  · rw [hdrop.idleCount, hidle, hcount, List.length_append]
    omega
  · rw [hdrop.total, htotal, List.length_append]
    omega
  · rw [hdrop.userConns, huser]
    refine h.made m ?_
    rcases List.mem_append.mp hm with hm | hm
    · exact List.mem_append_left _ hm
    · exact List.mem_append_right _ (List.mem_cons_of_mem n hm)
  · exact hdrop.config.trans hconfig
  · exact hdrop.validateCb.trans hvalidate
  · rw [hdrop.conn, htimes]
  · rw [hdrop.destroyedConns, hdestroyed]
  · rw [hdrop.idleCount, hidle, hcount, List.length_singleton]
    omega
  · rw [hdrop.total, htotal, List.length_singleton]
    omega

/-- What a sweep removes of a list, as long as there are more than `floor` connections. -/
def removes (bad : ℕ → Bool) (total floor : ℕ) (l : List ℕ) : List ℕ :=
  (l.filter bad).take (total - floor)

theorem mem_of_removes {total : ℕ} {l : List ℕ} (hn : n ∈ removes bad total floor l) :
    n ∈ l ∧ bad n = true := List.mem_filter.mp (List.mem_of_mem_take hn)

theorem removes_cons_pos {total : ℕ} (hbad : bad n = true) (htotal : floor < total) (l : List ℕ) :
    removes bad total floor (n :: l) = n :: removes bad (total - 1) floor l := by
  have hsucc : total - floor = total - 1 - floor + 1 := by omega
  rw [removes, List.filter_cons_of_pos hbad, hsucc, List.take_succ_cons, removes]

theorem removes_cons_neg {total : ℕ} (h : ¬ (bad n = true ∧ floor < total)) (l : List ℕ) :
    removes bad total floor (n :: l) = removes bad total floor l := by
  rw [removes, removes]
  by_cases hbad : bad n = true
  · -- nothing more is removed
    have hzero : total - floor = 0 := by
      have hnot : ¬ floor < total := fun hlt => h ⟨hbad, hlt⟩
      omega
    rw [hzero, List.take_zero, List.take_zero]
  · rw [List.filter_cons_of_neg hbad]

/-- **The sweep**: with `l₁` behind it and `l₂` before it, it removes of `l₂` what is bad as long as
there are connections enough, and keeps the rest in order. -/
theorem IdleList.sweep
    (hdoomed : ∀ t removed n, Swept s t removed → 0 < t.totalConns →
      doomed t n = (bad n && decide (floor < t.totalConns)))
    (hdrop : ∀ t n, Drops t (drop t n) n) (hswept : Swept s t removed)
    (h : IdleList t (l₁ ++ l₂)) {fuel : ℕ} (hfuel : l₂.length ≤ fuel) (count : ℕ) :
    ∃ u, LoopyConnPool.sweep doomed drop fuel t l₁.getLast? l₂.head? count =
        (u, count + (removes bad t.totalConns floor l₂).length) ∧
      Swept t u (removes bad t.totalConns floor l₂) ∧
      IdleList u
        (l₁ ++ l₂.filter fun n => decide (n ∉ removes bad t.totalConns floor l₂)) := by
  -- on what is before the sweep; what is behind it stays as it is
  induction l₂ generalizing t l₁ removed fuel count with
  | nil =>
    rw [removes, List.filter_nil, List.take_nil]
    refine ⟨t, ?_, .refl t, h⟩
    cases fuel <;> rfl
  | cons n l₂ ih =>
    obtain ⟨fuel, rfl⟩ : ∃ k, fuel = k + 1 := Nat.exists_eq_succ_of_ne_zero (by
      rw [List.length_cons] at hfuel
      omega)
    have hlength : l₂.length ≤ fuel := Nat.le_of_succ_le_succ hfuel
    have hnot : n ∉ l₂ := by
      have hnodup := (List.nodup_append.mp h.chain.nodup).2.1
      exact (List.nodup_cons.mp hnodup).1
    have hpos : 0 < t.totalConns := by
      have hle := h.le
      rw [List.length_append, List.length_cons] at hle
      omega
    have hstep : LoopyConnPool.sweep doomed drop (fuel + 1) t l₁.getLast? (some n) count =
        if doomed t n then
          LoopyConnPool.sweep doomed drop fuel (drop (t.unlink l₁.getLast? n) n) l₁.getLast?
            l₂.head? (count + 1)
        else LoopyConnPool.sweep doomed drop fuel t (some n) l₂.head? count := by
      rw [← h.chain.next_eq]
      rfl
    rw [List.head?_cons, hstep, hdoomed t removed n hswept hpos]
    by_cases hremoves : bad n = true ∧ floor < t.totalConns
    · -- this one goes
      obtain ⟨hbad, hfloor⟩ := hremoves
      obtain ⟨hlist, hone⟩ := h.drops (hdrop (t.unlink l₁.getLast? n) n)
      have htotal : (drop (t.unlink l₁.getLast? n) n).totalConns = t.totalConns - 1 := by
        have hsum := hone.total
        rw [List.length_singleton] at hsum
        omega
      obtain ⟨u, hsweep, hrest, hkept⟩ := ih (hswept.trans hone) hlist hlength (count + 1)
      rw [htotal] at hsweep hrest hkept
      rw [hbad, decide_eq_true hfloor, removes_cons_pos hbad hfloor]
      refine ⟨u, ?_, hone.trans hrest, ?_⟩
      · rw [Bool.and_self, if_pos rfl, hsweep, List.length_cons]
        congr 1
        omega
      · have hfilter : ((n :: l₂).filter fun m =>
            decide (m ∉ n :: removes bad (t.totalConns - 1) floor l₂)) =
            l₂.filter fun m => decide (m ∉ removes bad (t.totalConns - 1) floor l₂) := by
          rw [List.filter_cons_of_neg (by simp)]
          refine List.filter_congr fun m hm => ?_
          have hne : m ≠ n := by
            rintro rfl
            exact hnot hm
          simp [hne]
        rw [hfilter]
        exact hkept
    · -- this one stays
      have hstays : (bad n && decide (floor < t.totalConns)) = false := by
        rw [Bool.and_eq_false_iff]
        by_contra hboth
        rw [not_or, Bool.not_eq_false, Bool.not_eq_false, decide_eq_true_eq] at hboth
        exact hremoves hboth
      have hlist : IdleList t (l₁ ++ [n] ++ l₂) := by
        rw [List.append_assoc]
        exact h
      have hlast : (l₁ ++ [n]).getLast? = some n := List.getLast?_concat
      obtain ⟨u, hsweep, hrest, hkept⟩ := ih hswept hlist hlength count
      rw [hlast] at hsweep
      rw [hstays, if_neg Bool.false_ne_true, removes_cons_neg hremoves]
      refine ⟨u, hsweep, hrest, ?_⟩
      have hfresh : n ∉ removes bad t.totalConns floor l₂ := fun hn => hnot (mem_of_removes hn).1
      rw [List.filter_cons_of_pos (by simpa using hfresh)]
      rw [List.append_assoc] at hkept
      exact hkept

/-- A sweep over the whole list. -/
theorem IdleList.sweepAll
    (hdoomed : ∀ t removed n, Swept s t removed → 0 < t.totalConns →
      doomed t n = (bad n && decide (floor < t.totalConns)))
    (hdrop : ∀ t n, Drops t (drop t n) n) (h : IdleList s idle) :
    ∃ u, LoopyConnPool.sweep doomed drop s.userConns s none s.idleConns 0 =
        (u, (removes bad s.totalConns floor idle).length) ∧
      Swept s u (removes bad s.totalConns floor idle) ∧
      IdleList u (idle.filter fun n => decide (n ∉ removes bad s.totalConns floor idle)) := by
  have hfuel : idle.length ≤ s.userConns := h.chain.length_le h.made
  have hfront : IdleList s ([] ++ idle) := h
  obtain ⟨u, hsweep, hrest, hkept⟩ := hfront.sweep hdoomed hdrop (.refl s) hfuel 0
  rw [Nat.zero_add] at hsweep
  rw [h.chain.head]
  exact ⟨u, hsweep, hrest, hkept⟩

end sweep

/-! ## The two functions -/

section maintenance

variable {s t : LoopyConnPool} {idle : List ℕ} {removed : List ℕ} {n : ℕ}

/-- What a filter keeps of the first elements is first in what it keeps. -/
theorem take_filter {q : ℕ → Bool} {l : List ℕ} {k : ℕ} (h : ∀ n ∈ l.take k, q n = true) :
    (l.filter q).take k = l.take k := by
  induction l generalizing k with
  | nil => rfl
  | cons n l ih =>
    cases k with
    | zero => rfl
    | succ k =>
      rw [List.take_succ_cons] at h ⊢
      rw [List.filter_cons_of_pos (h n List.mem_cons_self), List.take_succ_cons]
      rw [ih fun m hm => h m (List.mem_cons_of_mem n hm)]

/-- The removed elements of a list are those that are not kept. -/
theorem filter_removed {bad : ℕ → Bool} {total floor : ℕ} (hnodup : idle.Nodup) :
    (idle.filter fun n =>
      decide (n ∉ idle.filter fun m => decide (m ∉ removes bad total floor idle))) =
      removes bad total floor idle := by
  have hfilter : (idle.filter fun n =>
      decide (n ∉ idle.filter fun m => decide (m ∉ removes bad total floor idle))) =
      (idle.filter bad).filter fun n => (removes bad total floor idle).elem n := by
    rw [List.filter_filter]
    refine List.filter_congr fun n hn => ?_
    rw [Bool.eq_iff_iff]
    simp only [List.mem_filter, hn, true_and, decide_eq_true_eq, not_not, Bool.and_eq_true,
      List.elem_eq_mem]
    exact ⟨fun hmem => ⟨hmem, (mem_of_removes hmem).2⟩, And.left⟩
  rw [hfilter]
  exact ((hnodup.filter bad).take_eq_filter_mem).symm

theorem LoopyConnPool.validateConnection_eq (s : LoopyConnPool) (answers : Answers) (n : ℕ) :
    (!s.validateConnection (answers.validate n)) = s.rejects answers n := by
  rw [validateConnection, rejects]
  cases s.validateCb <;> cases answers.validate n <;> rfl

theorem removes_all {bad : ℕ → Bool} {total : ℕ} (h : idle.length ≤ total) :
    removes bad total 0 idle = idle.filter bad := by
  refine List.take_of_length_le ?_
  have hle := List.length_filter_le bad idle
  omega

theorem IdleList.healthCheck (h : IdleList s idle) (answers : Answers) :
    HealthLaw s answers (s.healthCheck answers).1 (s.healthCheck answers).2 := by
  have hdoomed (t : LoopyConnPool) (removed : List ℕ) (n : ℕ) (hswept : Swept s t removed)
      (hpos : 0 < t.totalConns) :
      (!t.validateConnection (answers.validate n)) =
        (s.rejects answers n && decide (0 < t.totalConns)) := by
    rw [t.validateConnection_eq, LoopyConnPool.rejects, hswept.validateCb, LoopyConnPool.rejects,
      decide_eq_true hpos, Bool.and_true]
  have hdrop (t : LoopyConnPool) (n : ℕ) : Drops t (LoopyConnPool.destroyConnection
      { t with totalValidationFailures := t.totalValidationFailures + 1 } n) n :=
    ⟨rfl, rfl, rfl, rfl, rfl, rfl, rfl, rfl⟩
  obtain ⟨u, hsweep, hswept, hlist⟩ := h.sweepAll hdoomed hdrop
  rw [removes_all h.le] at hsweep hswept hlist
  have hkept : (idle.filter fun n => decide (n ∉ idle.filter (s.rejects answers))) =
      idle.filter fun n => !s.rejects answers n := by
    refine List.filter_congr fun n hn => ?_
    rw [Bool.eq_iff_iff, decide_eq_true_eq, List.mem_filter, Bool.not_eq_true']
    simp [hn]
  have heq : s.healthCheck answers = (u, (idle.filter (s.rejects answers)).length) := hsweep
  rw [heq]
  refine ⟨?_, ?_, ?_, ?_, ?_⟩
  · rw [hlist.idle_eq, h.idle_eq]
    exact hkept
  · rw [h.idle_eq]
    exact hswept.destroyedConns
  · rw [h.idle_eq]
  · exact hswept.total
  · rw [hlist.idle_eq]
    exact hlist.idleCount

/-- What has been idle for the timeout is too old for the cleanup. -/
theorem LoopyConnPool.tooLong_of_idledOut {answers : Answers}
    (hidle : s.idledOut answers n = true) : s.tooLong answers n = true := by
  rw [idledOut, Bool.and_eq_true, decide_eq_true_eq, decide_eq_true_eq] at hidle
  rw [tooLong, isConnectionIdleTooLong, if_neg hidle.1, decide_eq_true_eq, ge_iff_le,
    UInt64.le_iff_toNat_le, UInt64.toNat_sub_of_le]
  · omega
  · rw [UInt64.le_iff_toNat_le]
    omega

/-- The other way round only if it was not used later than it is checked. -/
theorem LoopyConnPool.idledOut_iff {answers : Answers} (hlong : s.tooLong answers n = true) :
    s.idledOut answers n = true ↔ (s.conn n).lastUseTime ≤ answers.checked n := by
  rw [tooLong, isConnectionIdleTooLong] at hlong
  split at hlong
  · cases hlong
  · next hzero =>
    rw [idledOut, decide_eq_true hzero, Bool.true_and, decide_eq_true_eq, UInt64.le_iff_toNat_le]
    refine ⟨fun h => by omega, fun hle => ?_⟩
    rw [decide_eq_true_eq, ge_iff_le, UInt64.le_iff_toNat_le,
      UInt64.toNat_sub_of_le _ _ (UInt64.le_iff_toNat_le.mpr hle)] at hlong
    omega

/-- What a cleanup removes. -/
def LoopyConnPool.cleaned (s : LoopyConnPool) (answers : Answers) : List ℕ :=
  (s.idle.filter (s.tooLong answers)).take (s.totalConns - s.config.minIdle)

theorem IdleList.cleanupIdle_spec (h : IdleList s idle) (answers : Answers) :
    ∃ u, s.cleanupIdle answers = (u, (s.cleaned answers).length) ∧
      Swept s u (s.cleaned answers) ∧
      IdleList u (idle.filter fun n => decide (n ∉ s.cleaned answers)) := by
  have hdoomed (t : LoopyConnPool) (removed : List ℕ) (n : ℕ) (hswept : Swept s t removed)
      (_ : 0 < t.totalConns) :
      (t.isConnectionIdleTooLong n (answers.checked n) &&
          decide (t.totalConns > t.config.minIdle)) =
        (s.tooLong answers n && decide (s.config.minIdle < t.totalConns)) := by
    rw [LoopyConnPool.tooLong, LoopyConnPool.isConnectionIdleTooLong, hswept.config,
      hswept.lastUseTime, LoopyConnPool.isConnectionIdleTooLong]
  have hdrop (t : LoopyConnPool) (n : ℕ) : Drops t (t.destroyConnection n) n :=
    ⟨rfl, rfl, rfl, rfl, rfl, rfl, rfl, rfl⟩
  have hcleaned : s.cleaned answers =
      removes (s.tooLong answers) s.totalConns s.config.minIdle idle := by
    rw [LoopyConnPool.cleaned, h.idle_eq, removes]
  rw [hcleaned]
  exact h.sweepAll hdoomed hdrop

/-- The cleanup is exact if what it removes was not used later than it is checked. -/
theorem IdleList.cleanupIdle (h : IdleList s idle) (answers : Answers)
    (hclock : ∀ n ∈ s.cleaned answers, s.idledOut answers n = true) :
    CleanupLaw s answers (s.cleanupIdle answers).1 (s.cleanupIdle answers).2 := by
  obtain ⟨u, heq, hswept, hlist⟩ := h.cleanupIdle_spec answers
  have htotal := hswept.total
  have hcleaned : s.cleaned answers =
      removes (s.tooLong answers) s.totalConns s.config.minIdle idle := by
    rw [LoopyConnPool.cleaned, h.idle_eq, removes]
  have hlength : (s.cleaned answers).length ≤ s.totalConns - s.config.minIdle :=
    List.length_take_le ..
  have hremoved : (idle.filter fun n => decide
      (n ∉ idle.filter fun m => decide (m ∉ s.cleaned answers))) = s.cleaned answers := by
    rw [hcleaned]
    exact filter_removed h.chain.nodup
  have hfirst : (s.idle.filter (s.idledOut answers)).take (s.totalConns - s.config.minIdle) =
      s.cleaned answers := by
    -- what has been idle for the timeout is among what the code takes for too old
    have hsub : s.idle.filter (s.idledOut answers) =
        (s.idle.filter (s.tooLong answers)).filter (s.idledOut answers) := by
      rw [List.filter_filter]
      refine List.filter_congr fun n _ => ?_
      rw [Bool.eq_iff_iff, Bool.and_eq_true]
      exact ⟨fun hidle => ⟨hidle, LoopyConnPool.tooLong_of_idledOut hidle⟩, And.left⟩
    rw [hsub, LoopyConnPool.cleaned]
    exact take_filter hclock
  rw [heq]
  refine ⟨?_, ?_, ?_, ?_, ?_, ?_, ?_, htotal, ?_⟩
  · rw [hlist.idle_eq, h.idle_eq]
    exact List.filter_sublist
  · rw [hlist.idle_eq, h.idle_eq, hremoved]
    exact hswept.destroyedConns
  · intro n hn hgone
    rw [h.idle_eq] at hn
    rw [hlist.idle_eq, List.mem_filter, decide_eq_true_eq, not_and, not_not] at hgone
    exact hclock n (hgone hn)
  · rw [hlist.idle_eq, hfirst, h.idle_eq, hremoved]
  · by_cases hall : s.totalConns - s.config.minIdle ≤ (s.idle.filter (s.tooLong answers)).length
    · refine .inl ?_
      have hcount : (s.cleaned answers).length = s.totalConns - s.config.minIdle :=
        List.length_take_of_le hall
      dsimp only
      omega
    · -- there were connections enough for all that are too old
      refine .inr fun n hn => Bool.of_not_eq_true fun hidle => ?_
      rw [hlist.idle_eq, List.mem_filter, decide_eq_true_eq, LoopyConnPool.cleaned,
        List.take_of_length_le (Nat.le_of_not_le hall), List.mem_filter, h.idle_eq] at hn
      exact hn.2 ⟨hn.1, LoopyConnPool.tooLong_of_idledOut hidle⟩
  · dsimp only
    omega
  · have hbefore := h.idleCount
    have hbehind := hlist.idleCount
    have hcount := hswept.idleCount
    rw [hlist.idle_eq, h.idle_eq]
    omega
  · rw [hlist.idle_eq]
    exact hlist.idleCount

/-- **Both functions are exact**: a health check always, and a cleanup exactly if no connection that
it takes for too old was used later than it is checked. -/
theorem maintenance_exact (h : IdleList s idle) (answers : Answers) :
    HealthLaw s answers (s.healthCheck answers).1 (s.healthCheck answers).2 ∧
      (CleanupLaw s answers (s.cleanupIdle answers).1 (s.cleanupIdle answers).2 ↔
        ∀ n ∈ (s.idle.filter fun n => s.isConnectionIdleTooLong n (answers.checked n)).take
            (s.totalConns - s.config.minIdle),
          (s.conn n).lastUseTime ≤ answers.checked n) := by
  have hlong : ∀ n ∈ s.cleaned answers, s.tooLong answers n = true := by
    intro n hn
    exact (List.mem_filter.mp (List.mem_of_mem_take hn)).2
  refine ⟨h.healthCheck answers, fun hlaw n hn => ?_, fun hclock => ?_⟩
  · obtain ⟨u, heq, -, hlist⟩ := h.cleanupIdle_spec answers
    refine (LoopyConnPool.idledOut_iff (hlong n hn)).mp (hlaw.old n ?_ ?_)
    · exact (List.mem_filter.mp (List.mem_of_mem_take hn)).1
    · rw [heq, hlist.idle_eq, List.mem_filter, decide_eq_true_eq]
      exact fun hmem => hmem.2 hn
  · refine h.cleanupIdle answers fun n hn => ?_
    exact (LoopyConnPool.idledOut_iff (hlong n hn)).mpr (hclock n hn)

end maintenance

/-- Two idle connections, of which one is too many. -/
def idleRun : List Action := [.prewarm 1 goodAnswers]

/-- The clock is at 20, and the second connection is rejected. -/
def lateAnswers : Answers :=
  { goodAnswers with checked := fun _ => 20, validate := fun n => decide (n ≠ 1) }

theorem maintenance_exact_idleRun :
    ∃ start s, LoopyConnPool.new smallConfig true goodAnswers = some start ∧
      Run step (fun _ _ => True) start idleRun s ∧ s.idle = [1, 0] ∧
      HealthLaw s lateAnswers (s.healthCheck lateAnswers).1 (s.healthCheck lateAnswers).2 ∧
      CleanupLaw s lateAnswers (s.cleanupIdle lateAnswers).1 (s.cleanupIdle lateAnswers).2 ∧
      (s.healthCheck lateAnswers).2 = 1 ∧ (s.cleanupIdle lateAnswers).2 = 1 := by
  have hexec : ((LoopyConnPool.new smallConfig true goodAnswers).bind fun start =>
      exec step (fun _ _ => True) start idleRun).map (fun s => (s.idle,
        decide (∀ n ∈ (s.idle.filter fun n =>
            s.isConnectionIdleTooLong n (lateAnswers.checked n)).take
            (s.totalConns - s.config.minIdle), (s.conn n).lastUseTime ≤ lateAnswers.checked n),
        (s.healthCheck lateAnswers).2, (s.cleanupIdle lateAnswers).2)) =
      some ([1, 0], true, 1, 1) := by decide +kernel
  obtain ⟨start, s, hnew, hrun, hval⟩ := run_of_exec_map hexec
  obtain ⟨hidle, hval⟩ := Prod.mk.inj hval
  obtain ⟨hclock, hval⟩ := Prod.mk.inj hval
  obtain ⟨hdestroyed, hclosed⟩ := Prod.mk.inj hval
  obtain ⟨idle, howned⟩ := Owned.run hnew hrun
  have hexact := maintenance_exact howned.idleList lateAnswers
  exact ⟨start, s, hnew, hrun, hidle, hexact.1, hexact.2.mpr (of_decide_eq_true hclock), hdestroyed,
    hclosed⟩

/-- A connection is used at 100 and the clock is set back. -/
def setBackRun : List Action :=
  [.prewarm 1 goodAnswers, .acquire { goodAnswers with used := 100 },
    .release 1 true { goodAnswers with used := 100 }]

/-- At 99 the cleanup destroys it. -/
theorem cleanup_destroys_unused :
    ∃ start s, LoopyConnPool.new smallConfig true goodAnswers = some start ∧
      Run step (fun _ _ => True) start setBackRun s ∧ s.idle = [1, 0] ∧
      (s.conn 1).lastUseTime = 100 ∧
      (s.cleanupIdle { goodAnswers with checked := fun _ => 99 }).1.destroyedConns = [1] ∧
      ¬ CleanupLaw s { goodAnswers with checked := fun _ => 99 }
        (s.cleanupIdle { goodAnswers with checked := fun _ => 99 }).1
        (s.cleanupIdle { goodAnswers with checked := fun _ => 99 }).2 := by
  have hexec : ((LoopyConnPool.new smallConfig true goodAnswers).bind fun start =>
      exec step (fun _ _ => True) start setBackRun).map (fun s => (s.idle,
        (s.conn 1).lastUseTime, (s.cleanupIdle { goodAnswers with checked := fun _ => 99 }).1.idle,
        (s.cleanupIdle { goodAnswers with checked := fun _ => 99 }).1.destroyedConns,
        s.idledOut { goodAnswers with checked := fun _ => 99 } 1)) =
      some ([1, 0], 100, [0], [1], false) := by decide +kernel
  obtain ⟨start, s, hnew, hrun, hval⟩ := run_of_exec_map hexec
  obtain ⟨hidle, hval⟩ := Prod.mk.inj hval
  obtain ⟨hused, hval⟩ := Prod.mk.inj hval
  obtain ⟨hkept, hval⟩ := Prod.mk.inj hval
  obtain ⟨hdestroyed, hyoung⟩ := Prod.mk.inj hval
  refine ⟨start, s, hnew, hrun, hidle, hused, hdestroyed, fun hlaw => ?_⟩
  have hold := hlaw.old 1 (by rw [hidle]; decide) (by rw [hkept]; decide)
  rw [hyoung] at hold
  cases hold

end Loopy.ConnPool
