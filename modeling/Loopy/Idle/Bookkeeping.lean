import Mathlib.Data.List.Find
import Loopy.Idle.Basic

/-!
# The bookkeeping of the handles

What is kept for a loop depends only on the handles of that loop and on its manager, so a call on a
handle of one loop leaves every other loop alone (`SameLoop`), and for its own loop each change of
a list, a count, the timer or the sleep callbacks is followed through one call. `bookkeeping` is
what holds in every state that calls reach.
-/

namespace Loopy.Idle

open Loopy.Lib
open Function (update update_eq_self update_of_ne update_self)

namespace System

variable {s t : System} {loop n mgr : ℕ} {k : Kind}

/-! ## The law -/

/-- The live handles of a kind of a loop, the newest one first. -/
def handles (s : System) (loop : ℕ) (k : Kind) : List ℕ :=
  ((List.range s.allocated).filter fun n =>
    s.live n && decide ((s.handle n).loop = loop) && decide ((s.handle n).kind = k)).reverse

end System

/-- What the file keeps: a loop has a manager exactly if it has a live handle; the lists of the
manager are those of the live handles, with both links; the counts are those of the active handles;
the idle timer is registered exactly if there are active idle handles; the sleep callbacks are those
of the manager, or the ones that other code has set, which the manager has saved. -/
structure IdleLaw (s : System) : Prop where
  manager : ∀ loop, (s.idleGetManager loop).isSome = true ↔
    ∃ n < s.allocated, s.live n = true ∧ (s.handle n).loop = loop
  list : ∀ loop mgr, s.idleGetManager loop = some mgr →
    ∀ k, (s.links mgr k).Holds (s.handles loop k)
  count : ∀ loop k,
    s.activeCount k loop = ((s.handles loop k).filter fun n => (s.handle n).active).length
  timer : ∀ loop mgr, s.idleGetManager loop = some mgr →
    s.timers loop = if 0 < s.activeCount .idle loop then [(s.manager mgr).idleTimerId] else []
  noTimer : ∀ loop, s.idleGetManager loop = none → s.timers loop = []
  sleep : ∀ loop mgr, s.idleGetManager loop = some mgr →
    s.sleep loop = ⟨.idleBeforeSleepCallback mgr, .idleAfterSleepCallback mgr⟩ ∧
      (s.manager mgr).orig = s.installed loop
  restored : ∀ loop, s.idleGetManager loop = none → s.sleep loop = s.installed loop

namespace System

variable {s t : System} {loop n mgr : ℕ} {k : Kind}

/-! ## Handles and managers -/

/-- The live handles of a loop and a kind. -/
theorem mem_handles : n ∈ s.handles loop k ↔
    n < s.allocated ∧ s.live n = true ∧ (s.handle n).loop = loop ∧ (s.handle n).kind = k := by
  unfold handles
  rw [List.mem_reverse, List.mem_filter, List.mem_range, Bool.and_eq_true, Bool.and_eq_true,
    decide_eq_true_eq, decide_eq_true_eq, and_assoc]

theorem nodup_handles (s : System) (loop : ℕ) (k : Kind) : (s.handles loop k).Nodup := by
  unfold handles List.Nodup
  rw [List.pairwise_reverse]
  exact (List.nodup_range.filter _).imp Ne.symm

/-- The handles depend on what exists, and on loops and kinds. -/
theorem handles_congr (hallocated : t.allocated = s.allocated) (hlive : t.live = s.live)
    (hloop : ∀ n, (t.handle n).loop = (s.handle n).loop)
    (hkind : ∀ n, (t.handle n).kind = (s.handle n).kind) (loop : ℕ) (k : Kind) :
    t.handles loop k = s.handles loop k := by
  unfold handles
  rw [hallocated, hlive]
  refine congrArg List.reverse (List.filter_congr fun n _ => ?_)
  rw [hloop, hkind]

/-- The handles after a new one. -/
theorem handles_alloc {h : Handle} (hallocated : t.allocated = s.allocated + 1)
    (hlive : t.live = update s.live s.allocated true)
    (hhandle : t.handle = update s.handle s.allocated h) (loop : ℕ) (k : Kind) :
    t.handles loop k =
      if h.loop = loop ∧ h.kind = k then s.allocated :: s.handles loop k
      else s.handles loop k := by
  have hold : ((List.range s.allocated).filter fun n =>
      t.live n && decide ((t.handle n).loop = loop) && decide ((t.handle n).kind = k)) =
      (List.range s.allocated).filter fun n =>
        s.live n && decide ((s.handle n).loop = loop) && decide ((s.handle n).kind = k) := by
    refine List.filter_congr fun n hn => ?_
    have hne := Nat.ne_of_lt (List.mem_range.mp hn)
    rw [hlive, hhandle, update_of_ne hne, update_of_ne hne]
  unfold handles
  rw [hallocated, List.range_succ, List.filter_append, hold, List.reverse_append, hlive, hhandle]
  by_cases hnew : h.loop = loop ∧ h.kind = k
  · rw [if_pos hnew, List.filter_cons_of_pos, List.filter_nil]
    · rfl
    · rw [update_self, update_self]
      simp [hnew]
  · rw [if_neg hnew, List.filter_cons_of_neg, List.filter_nil]
    · rfl
    · rw [update_self, update_self]
      simpa using hnew

/-- The handles after one was freed. -/
theorem handles_free (hallocated : t.allocated = s.allocated)
    (hlive : t.live = update s.live n false) (hhandle : t.handle = s.handle) (loop : ℕ)
    (k : Kind) : t.handles loop k = (s.handles loop k).erase n := by
  rw [(s.nodup_handles loop k).erase_eq_filter]
  unfold handles
  rw [hallocated, hhandle, List.filter_reverse, List.filter_filter]
  refine congrArg List.reverse (List.filter_congr fun m _ => ?_)
  rw [hlive]
  by_cases hm : m = n
  · subst hm
    simp
  · rw [update_of_ne hm]
    simp [hm]

end System

/-- The managers of the list: each has its own loop. -/
structure Registry (s : System) : Prop where
  nodup : s.managers.Nodup
  loops : ∀ a ∈ s.managers, ∀ b ∈ s.managers, (s.manager a).loop = (s.manager b).loop → a = b
  bound : ∀ a ∈ s.managers, a < s.managerCount

namespace Registry

variable {s t : System} {loop mgr : ℕ}

/-- The manager of a loop is found if there is one. -/
theorem get_eq_some (h : Registry s) :
    s.idleGetManager loop = some mgr ↔ mgr ∈ s.managers ∧ (s.manager mgr).loop = loop := by
  unfold System.idleGetManager
  constructor
  · intro hfind
    refine ⟨List.mem_of_find?_eq_some hfind, ?_⟩
    exact of_decide_eq_true (List.find?_some (p := fun a => decide ((s.manager a).loop = loop)) hfind)
  · rintro ⟨hmem, hloop⟩
    cases hfind : s.managers.find? fun a => decide ((s.manager a).loop = loop) with
    | none =>
      rw [List.find?_eq_none] at hfind
      exact absurd (decide_eq_true hloop) (hfind mgr hmem)
    | some a =>
      have ha := List.find?_some (p := fun a => decide ((s.manager a).loop = loop)) hfind
      rw [h.loops a (List.mem_of_find?_eq_some hfind) mgr hmem
        ((of_decide_eq_true ha).trans hloop.symm)]

/-- Otherwise none is. -/
theorem get_eq_none : s.idleGetManager loop = none ↔
    ∀ a ∈ s.managers, (s.manager a).loop ≠ loop := by
  unfold System.idleGetManager
  rw [List.find?_eq_none]
  exact forall₂_congr fun a _ => by rw [decide_eq_true_eq]

/-- The lookup depends on the list and the loops of its managers. -/
theorem get_congr (hmanagers : t.managers = s.managers)
    (hloop : ∀ a ∈ s.managers, (t.manager a).loop = (s.manager a).loop) (loop : ℕ) :
    t.idleGetManager loop = s.idleGetManager loop := by
  unfold System.idleGetManager
  rw [hmanagers]
  refine List.find?_congr fun a ha => ?_
  rw [hloop a ha]

/-- The registry is the managers, their count and their loops. -/
theorem congr (h : Registry s) (hmanagers : t.managers = s.managers)
    (hcount : t.managerCount = s.managerCount)
    (hloop : ∀ a ∈ s.managers, (t.manager a).loop = (s.manager a).loop) : Registry t := by
  refine ⟨hmanagers ▸ h.nodup, fun a ha b hb heq => ?_, fun a ha => ?_⟩
  · rw [hmanagers] at ha hb
    rw [hloop a ha, hloop b hb] at heq
    exact h.loops a ha b hb heq
  · rw [hmanagers] at ha
    rw [hcount]
    exact h.bound a ha

end Registry

/-! ## The invariant -/

/-- What a manager keeps for its loop. -/
structure Kept (s : System) (loop mgr : ℕ) : Prop where
  owner : (s.manager mgr).loop = loop
  list : ∀ k, (s.links mgr k).Holds (s.handles loop k)
  count : ∀ k,
    (s.manager mgr).activeCount k = (s.handles loop k).countP fun n => (s.handle n).active
  timers : s.timers loop =
    if (s.manager mgr).idleTimerActive then [(s.manager mgr).idleTimerId] else []
  sleep : s.sleep loop = ⟨.idleBeforeSleepCallback mgr, .idleAfterSleepCallback mgr⟩
  orig : (s.manager mgr).orig = s.installed loop

/-- The idle timer of a manager is as the count of the idle handles asks. -/
def TimerSet (s : System) (mgr : ℕ) : Prop :=
  (s.manager mgr).idleTimerActive = true ↔ 0 < (s.manager mgr).activeCount .idle

/-- What holds for a loop between calls. -/
structure LoopInv (s : System) (loop : ℕ) : Prop where
  kept : ∀ mgr, s.idleGetManager loop = some mgr → Kept s loop mgr
  timer : ∀ mgr, s.idleGetManager loop = some mgr → TimerSet s mgr
  some : ∀ mgr, s.idleGetManager loop = some mgr → ∃ k, s.handles loop k ≠ []
  none : s.idleGetManager loop = none →
    (∀ k, s.handles loop k = []) ∧ s.sleep loop = s.installed loop ∧ s.timers loop = []

/-- What holds between calls. -/
structure IdleInv (s : System) : Prop where
  registry : Registry s
  loops : ∀ loop, LoopInv s loop

/-- Nothing has changed for a loop. -/
structure SameLoop (s t : System) (loop : ℕ) : Prop where
  get : t.idleGetManager loop = s.idleGetManager loop
  manager : ∀ mgr, s.idleGetManager loop = some mgr → t.manager mgr = s.manager mgr
  handles : ∀ k, t.handles loop k = s.handles loop k
  active : ∀ k, ∀ n ∈ s.handles loop k, (t.handle n).active = (s.handle n).active
  links : ∀ k, ∀ n ∈ s.handles loop k, t.next n = s.next n ∧ t.prev n = s.prev n
  sleep : t.sleep loop = s.sleep loop
  installed : t.installed loop = s.installed loop
  timers : t.timers loop = s.timers loop

namespace SameLoop

variable {s t u : System} {loop : ℕ}

theorem refl (s : System) (loop : ℕ) : SameLoop s s loop :=
  ⟨rfl, fun _ _ => rfl, fun _ => rfl, fun _ _ _ => rfl, fun _ _ _ => ⟨rfl, rfl⟩, rfl, rfl, rfl⟩

theorem trans (h : SameLoop s t loop) (h' : SameLoop t u loop) : SameLoop s u loop where
  get := h'.get.trans h.get
  manager mgr hmgr := (h'.manager mgr (h.get.trans hmgr)).trans (h.manager mgr hmgr)
  handles k := (h'.handles k).trans (h.handles k)
  active k n hn := (h'.active k n (by rw [h.handles]; exact hn)).trans (h.active k n hn)
  links k n hn := by
    have h₁ := h.links k n hn
    have h₂ := h'.links k n (by rw [h.handles]; exact hn)
    exact ⟨h₂.1.trans h₁.1, h₂.2.trans h₁.2⟩
  sleep := h'.sleep.trans h.sleep
  installed := h'.installed.trans h.installed
  timers := h'.timers.trans h.timers

/-- The invariant of a loop depends on nothing else. -/
theorem loopInv (h : SameLoop s t loop) (hs : LoopInv s loop) : LoopInv t loop := by
  refine ⟨fun mgr hmgr => ?_, fun mgr hmgr => ?_, fun mgr hmgr => ?_, fun hnone => ?_⟩
  · rw [h.get] at hmgr
    have hkept := hs.kept mgr hmgr
    have hmanager := h.manager mgr hmgr
    refine ⟨hmanager ▸ hkept.owner, fun k => ?_, fun k => ?_, ?_, ?_, ?_⟩
    · rw [h.handles]
      refine (hkept.list k).congr (fun n hn => (h.links k n hn).1) (fun n hn => (h.links k n hn).2) ?_
      exact congrArg (fun m : LoopyIdleManager => m.list k) hmanager
    · rw [hmanager, h.handles, hkept.count k]
      refine List.countP_congr fun n hn => ?_
      rw [h.active k n hn]
    · rw [h.timers, hmanager]
      exact hkept.timers
    · rw [h.sleep]
      exact hkept.sleep
    · rw [hmanager, h.installed]
      exact hkept.orig
  · rw [h.get] at hmgr
    unfold TimerSet
    rw [h.manager mgr hmgr]
    exact hs.timer mgr hmgr
  · rw [h.get] at hmgr
    obtain ⟨k, hk⟩ := hs.some mgr hmgr
    exact ⟨k, by rw [h.handles]; exact hk⟩
  · rw [h.get] at hnone
    obtain ⟨hempty, hsleep, htimers⟩ := hs.none hnone
    refine ⟨fun k => (h.handles k).trans (hempty k), ?_, h.timers.trans htimers⟩
    rw [h.sleep, h.installed]
    exact hsleep

end SameLoop

/-! ## Changes for one loop -/

/-- Only the handles of a loop, its manager and its timers have changed. -/
structure Within (s t : System) (loop mgr : ℕ) : Prop where
  managers : t.managers = s.managers
  managerCount : t.managerCount = s.managerCount
  manager : ∀ a, a ≠ mgr → t.manager a = s.manager a
  owner : (t.manager mgr).loop = (s.manager mgr).loop
  handles : ∀ loop', loop' ≠ loop → ∀ k, t.handles loop' k = s.handles loop' k
  active : ∀ loop', loop' ≠ loop → ∀ k, ∀ n ∈ s.handles loop' k,
    (t.handle n).active = (s.handle n).active
  links : ∀ loop', loop' ≠ loop → ∀ k, ∀ n ∈ s.handles loop' k,
    t.next n = s.next n ∧ t.prev n = s.prev n
  sleep : t.sleep = s.sleep
  installed : t.installed = s.installed
  timers : ∀ loop', loop' ≠ loop → t.timers loop' = s.timers loop'

namespace Within

variable {s t u : System} {loop mgr n : ℕ} {k : Kind}

theorem refl (s : System) (loop mgr : ℕ) : Within s s loop mgr :=
  ⟨rfl, rfl, fun _ _ => rfl, rfl, fun _ _ _ => rfl, fun _ _ _ _ _ => rfl,
    fun _ _ _ _ _ => ⟨rfl, rfl⟩, rfl, rfl, fun _ _ => rfl⟩

theorem trans (h : Within s t loop mgr) (h' : Within t u loop mgr) : Within s u loop mgr where
  managers := h'.managers.trans h.managers
  managerCount := h'.managerCount.trans h.managerCount
  manager a ha := (h'.manager a ha).trans (h.manager a ha)
  owner := h'.owner.trans h.owner
  handles l hl k := (h'.handles l hl k).trans (h.handles l hl k)
  active l hl k n hn := by
    have hn' : n ∈ t.handles l k := by rw [h.handles l hl]; exact hn
    exact (h'.active l hl k n hn').trans (h.active l hl k n hn)
  links l hl k n hn := by
    have hn' : n ∈ t.handles l k := by rw [h.handles l hl]; exact hn
    have h₁ := h.links l hl k n hn
    have h₂ := h'.links l hl k n hn'
    exact ⟨h₂.1.trans h₁.1, h₂.2.trans h₁.2⟩
  sleep := h'.sleep.trans h.sleep
  installed := h'.installed.trans h.installed
  timers l hl := (h'.timers l hl).trans (h.timers l hl)

theorem loop_eq (h : Within s t loop mgr) (a : ℕ) : (t.manager a).loop = (s.manager a).loop := by
  by_cases ha : a = mgr
  · rw [ha]
    exact h.owner
  · rw [h.manager a ha]

/-- A call within one manager keeps the registry. -/
theorem registry (h : Within s t loop mgr) (hr : Registry s) : Registry t :=
  hr.congr h.managers h.managerCount fun a _ => h.loop_eq a

theorem get (h : Within s t loop mgr) (loop' : ℕ) :
    t.idleGetManager loop' = s.idleGetManager loop' :=
  Registry.get_congr h.managers (fun a _ => h.loop_eq a) loop'

theorem sameLoop (h : Within s t loop mgr) (hr : Registry s) (howner : (s.manager mgr).loop = loop)
    {loop' : ℕ} (hne : loop' ≠ loop) : SameLoop s t loop' where
  get := h.get loop'
  manager a ha := by
    refine h.manager a ?_
    rintro rfl
    exact hne ((hr.get_eq_some.mp ha).2.symm.trans howner)
  handles := h.handles loop' hne
  active := h.active loop' hne
  links := h.links loop' hne
  sleep := congrFun h.sleep loop'
  installed := congrFun h.installed loop'
  timers := h.timers loop' hne

/-- The timers of the loop. -/
theorem setTimers (h : Within s t loop mgr) {timers : ℕ → List ℕ}
    (hother : ∀ loop', loop' ≠ loop → timers loop' = s.timers loop') :
    Within s { t with timers := timers } loop mgr :=
  ⟨h.managers, h.managerCount, h.manager, h.owner, h.handles, h.active, h.links, h.sleep,
    h.installed, hother⟩

/-- A write to the manager. -/
theorem setManager {m : LoopyIdleManager} (hm : m.loop = (s.manager mgr).loop) (loop : ℕ) :
    Within s (s.setManager mgr m) loop mgr := by
  refine { refl s loop mgr with manager := fun a ha => ?_, owner := ?_ }
  · exact update_of_ne ha ..
  · refine Eq.trans ?_ hm
    exact congrArg LoopyIdleManager.loop (update_self ..)

end Within

/-! ## The timer -/

namespace Kept

variable {s t : System} {loop mgr n timerId : ℕ} {k : Kind}

/-- The timer of the manager changes, and the registered timers with it. -/
theorem setTimer (h : Kept s loop mgr) {timers : ℕ → List ℕ} (id : ℕ) (active : Bool)
    (htimers : timers loop = if active then [id] else []) :
    Kept { s.setManager mgr { s.manager mgr with idleTimerId := id, idleTimerActive := active } with
      timers := timers } loop mgr := by
  generalize hm : { s.manager mgr with idleTimerId := id, idleTimerActive := active } = m
  have hself : update s.manager mgr m mgr = m := update_self ..
  refine ⟨?_, fun k => ?_, fun k => ?_, ?_, h.sleep, ?_⟩
  · show (update s.manager mgr m mgr).loop = loop
    rw [hself, ← hm]
    exact h.owner
  · refine (h.list k).congr (fun _ _ => rfl) (fun _ _ => rfl) ?_
    show (update s.manager mgr m mgr).list k = (s.manager mgr).list k
    rw [hself, ← hm]
  · show (update s.manager mgr m mgr).activeCount k = _
    rw [hself, ← hm]
    exact h.count k
  · show timers loop = if (update s.manager mgr m mgr).idleTimerActive then
      [(update s.manager mgr m mgr).idleTimerId] else []
    rw [hself, ← hm]
    exact htimers
  · show (update s.manager mgr m mgr).orig = s.installed loop
    rw [hself, ← hm]
    exact h.orig

/-- **The timer** is set for the count. -/
theorem idleUpdateTimer (h : Kept s loop mgr) (hid : timerId ≠ 0) :
    Within s (s.idleUpdateTimer mgr timerId) loop mgr ∧
      Kept (s.idleUpdateTimer mgr timerId) loop mgr ∧
      TimerSet (s.idleUpdateTimer mgr timerId) mgr := by
  have htimers := h.timers
  have hother : ∀ (l : List ℕ) loop', loop' ≠ loop →
      update s.timers (s.manager mgr).loop l loop' = s.timers loop' := by
    intro l loop' hne
    rw [h.owner, update_of_ne hne]
  unfold System.idleUpdateTimer
  dsimp only
  by_cases hstart : (s.manager mgr).activeCount .idle > 0 ∧ (s.manager mgr).idleTimerActive = false
  · rw [if_pos hstart, if_pos hid]
    refine ⟨?_, h.setTimer timerId true ?_, ?_⟩
    · exact (Within.setManager (m := { s.manager mgr with
        idleTimerId := timerId, idleTimerActive := true }) rfl loop).setTimers (hother _)
    · rw [h.owner, update_self, htimers, hstart.2]
      rfl
    · unfold TimerSet System.setManager
      dsimp only
      rw [update_self]
      exact iff_of_true rfl hstart.1
  · rw [if_neg hstart]
    by_cases hstop : (s.manager mgr).activeCount .idle = 0 ∧ (s.manager mgr).idleTimerActive = true
    · rw [if_pos hstop]
      refine ⟨?_, h.setTimer (s.manager mgr).idleTimerId false ?_, ?_⟩
      · exact (Within.setManager (m := { s.manager mgr with idleTimerActive := false })
          rfl loop).setTimers (hother _)
      · have herase : (s.loopyUnregisterTimer loop (s.manager mgr).idleTimerId).timers loop =
            (s.timers loop).erase (s.manager mgr).idleTimerId := update_self ..
        rw [h.owner, herase, htimers, hstop.2, if_pos rfl, List.erase_cons_head]
        rfl
      · unfold TimerSet System.setManager
        dsimp only
        rw [update_self]
        exact iff_of_false Bool.false_ne_true (by rw [hstop.1]; exact Nat.lt_irrefl 0)
    · rw [if_neg hstop]
      refine ⟨.refl s loop mgr, h, ?_⟩
      unfold TimerSet
      cases hactive : (s.manager mgr).idleTimerActive with
      | true =>
        refine iff_of_true rfl (Nat.pos_of_ne_zero fun hzero => hstop ⟨hzero, hactive⟩)
      | false =>
        refine iff_of_false Bool.false_ne_true fun hpos => hstart ⟨hpos, hactive⟩

/-- A change of a count sets the timer. -/
theorem countChanged (h : Kept s loop mgr) (hid : k = .idle → timerId ≠ 0)
    (hset : k ≠ .idle → TimerSet s mgr) :
    Within s (s.countChanged mgr k timerId) loop mgr ∧
      Kept (s.countChanged mgr k timerId) loop mgr ∧
      TimerSet (s.countChanged mgr k timerId) mgr := by
  cases k with
  | idle => exact h.idleUpdateTimer (hid rfl)
  | prepare => exact ⟨.refl s loop mgr, h, hset (by decide)⟩
  | check => exact ⟨.refl s loop mgr, h, hset (by decide)⟩

end Kept

/-- The handles stay as they are. -/
theorem System.countChanged_spec (s : System) (mgr timerId : ℕ) (k : Kind) :
    (s.countChanged mgr k timerId).handles = s.handles ∧
      (s.countChanged mgr k timerId).handle = s.handle := by
  unfold System.countChanged System.idleUpdateTimer
  cases k with
  | idle =>
    dsimp only
    split
    · split <;> exact ⟨rfl, rfl⟩
    · split <;> exact ⟨rfl, rfl⟩
  | prepare => exact ⟨rfl, rfl⟩
  | check => exact ⟨rfl, rfl⟩

/-! ## The lists and the counts -/

/-- The count when one member is turned on or off. -/
theorem countP_turn {l : List ℕ} {n : ℕ} {p q : ℕ → Bool} (hl : l.Nodup) (hn : n ∈ l)
    (hsame : ∀ m, m ≠ n → q m = p m) (hp : p n = false) (hq : q n = true) :
    l.countP q = l.countP p + 1 := by
  have hperm := List.perm_cons_erase hn
  have hrest : (l.erase n).countP q = (l.erase n).countP p := by
    refine List.countP_congr fun m hm => ?_
    rw [hsame m (hl.mem_erase_iff.mp hm).1]
  rw [hperm.countP_eq q, hperm.countP_eq p, List.countP_cons_of_pos hq,
    List.countP_cons_of_neg (by rw [hp]; exact Bool.false_ne_true), hrest]

namespace Kept

variable {s t : System} {loop mgr n timerId count : ℕ} {k : Kind}

/-- The list and the count of a kind change, with what they are about. -/
theorem change (h : Kept s loop mgr) (k : Kind) {d : DList ℕ} {count : ℕ}
    (hmanager : t.manager mgr = { s.manager mgr with
      list := update (s.manager mgr).list k d.head
      activeCount := update (s.manager mgr).activeCount k count })
    (hnext : t.next = d.next) (hprev : t.prev = d.prev) (hlist : d.Holds (t.handles loop k))
    (hcount : count = (t.handles loop k).countP fun n => (t.handle n).active)
    (hhandles : ∀ k', k' ≠ k → t.handles loop k' = s.handles loop k')
    (hlinks : ∀ k', k' ≠ k → ∀ n ∈ s.handles loop k', t.next n = s.next n ∧ t.prev n = s.prev n)
    (hactive : ∀ k', k' ≠ k → ∀ n ∈ s.handles loop k',
      (t.handle n).active = (s.handle n).active)
    (htimers : t.timers = s.timers) (hsleep : t.sleep = s.sleep)
    (hinstalled : t.installed = s.installed) : Kept t loop mgr := by
  refine ⟨?_, fun k' => ?_, fun k' => ?_, ?_, ?_, ?_⟩
  · rw [hmanager]
    exact h.owner
  · unfold System.links
    rw [hmanager]
    by_cases hk : k' = k
    · subst hk
      dsimp only
      rw [update_self, hnext, hprev]
      exact hlist
    · dsimp only
      rw [update_of_ne hk, hhandles k' hk]
      exact (h.list k').congr (fun n hn => (hlinks k' hk n hn).1)
        (fun n hn => (hlinks k' hk n hn).2) rfl
  · rw [hmanager]
    by_cases hk : k' = k
    · subst hk
      dsimp only
      rw [update_self]
      exact hcount
    · dsimp only
      rw [update_of_ne hk, hhandles k' hk, h.count k']
      refine List.countP_congr fun n hn => ?_
      rw [hactive k' hk n hn]
  · rw [hmanager, htimers]
    exact h.timers
  · rw [hsleep]
    exact h.sleep
  · rw [hmanager, hinstalled]
    exact h.orig

end Kept

/-- A handle of another list is another handle. -/
theorem System.ne_of_mem {s : System} {loop loop' n m : ℕ} {k k' : Kind}
    (hn : n ∈ s.handles loop k) (hm : m ∈ s.handles loop' k') (hne : loop' ≠ loop ∨ k' ≠ k) :
    m ≠ n := by
  rintro rfl
  have h := (System.mem_handles.mp hn).2.2
  have h' := (System.mem_handles.mp hm).2.2
  rcases hne with hne | hne
  · exact hne (h'.1.symm.trans h.1)
  · exact hne (h'.2.symm.trans h.2)

namespace Kept

variable {s : System} {loop mgr n : ℕ} {k : Kind}

/-- **A new handle** is pushed and counted. -/
theorem insert (h : Kept s loop mgr) {x : Handle} (hloop : x.loop = loop)
    (hactive : x.active = true) :
    Within s (s.insertHandle mgr x) loop mgr ∧ Kept (s.insertHandle mgr x) loop mgr ∧
      (x.kind ≠ .idle → TimerSet s mgr → TimerSet (s.insertHandle mgr x) mgr) ∧
      (s.insertHandle mgr x).handles loop x.kind = s.allocated :: s.handles loop x.kind := by
  have hmanager : (s.insertHandle mgr x).manager mgr = { s.manager mgr with
      list := update (s.manager mgr).list x.kind (some s.allocated)
      activeCount := update (s.manager mgr).activeCount x.kind
        ((s.manager mgr).activeCount x.kind + 1) } := by
    unfold System.insertHandle System.setActiveCount System.setLinks System.setManager
    dsimp only
    rw [update_self, update_self]
    rfl
  have hhandle : (s.insertHandle mgr x).handle = update s.handle s.allocated x := rfl
  have hnew : ∀ loop' k', ∀ m ∈ s.handles loop' k', m ≠ s.allocated := fun loop' k' m hm =>
    Nat.ne_of_lt (System.mem_handles.mp hm).1
  have hhandles := System.handles_alloc (t := s.insertHandle mgr x) rfl rfl hhandle
  have hself : (s.insertHandle mgr x).handles loop x.kind =
      s.allocated :: s.handles loop x.kind := by
    rw [hhandles, if_pos ⟨hloop, rfl⟩]
  have hother : ∀ loop' k', loop' ≠ loop ∨ k' ≠ x.kind →
      (s.insertHandle mgr x).handles loop' k' = s.handles loop' k' ∧
        ∀ m ∈ s.handles loop' k',
          ((s.insertHandle mgr x).handle m).active = (s.handle m).active ∧
          (s.insertHandle mgr x).next m = s.next m ∧
          (s.insertHandle mgr x).prev m = s.prev m := by
    intro loop' k' hne
    constructor
    · rw [hhandles, if_neg]
      rintro ⟨hl, hk⟩
      rcases hne with hne | hne
      · exact hne (hl.symm.trans hloop)
      · exact hne hk.symm
    · intro m hm
      refine ⟨?_, ?_⟩
      · rw [hhandle, update_of_ne (hnew loop' k' m hm)]
      · refine (h.list x.kind).push_other (hnew loop' k' m hm) fun hmem => ?_
        exact System.ne_of_mem hmem hm hne rfl
  refine ⟨?_, ?_, ?_, hself⟩
  · refine
      { managers := rfl
        managerCount := rfl
        manager := fun a ha => ?_
        owner := by rw [hmanager]
        handles := fun loop' hne k' => (hother loop' k' (Or.inl hne)).1
        active := fun loop' hne k' m hm => ((hother loop' k' (Or.inl hne)).2 m hm).1
        links := fun loop' hne k' m hm => ((hother loop' k' (Or.inl hne)).2 m hm).2
        sleep := rfl
        installed := rfl
        timers := fun _ _ => rfl }
    unfold System.insertHandle System.setActiveCount System.setLinks System.setManager
    dsimp only
    rw [update_of_ne ha, update_of_ne ha]
    rfl
  · refine h.change x.kind (d := (s.links mgr x.kind).push s.allocated) hmanager rfl rfl ?_ ?_
      (fun k' hk => (hother loop k' (Or.inr hk)).1)
      (fun k' hk m hm => ((hother loop k' (Or.inr hk)).2 m hm).2)
      (fun k' hk m hm => ((hother loop k' (Or.inr hk)).2 m hm).1) rfl rfl rfl
    · rw [hself]
      exact (h.list x.kind).push fun hmem => hnew loop x.kind _ hmem rfl
    · rw [hself, List.countP_cons_of_pos, h.count x.kind]
      · refine congrArg (· + 1) (List.countP_congr fun m hm => ?_)
        rw [hhandle, update_of_ne (hnew loop x.kind m hm)]
      · rw [hhandle, update_self, hactive]
  · intro hk hset
    unfold TimerSet at hset ⊢
    rw [hmanager]
    dsimp only
    rw [update_of_ne hk.symm]
    exact hset

/-- **A handle is turned on or off**, and the count with it. -/
theorem turn (h : Kept s loop mgr) (hn : n ∈ s.handles loop k) {active : Bool} {count : ℕ}
    (hcount : count =
      (s.handles loop k).countP fun m => if m = n then active else (s.handle m).active) :
    Within s ((s.setActive n active).setActiveCount mgr k count) loop mgr ∧
      Kept ((s.setActive n active).setActiveCount mgr k count) loop mgr ∧
      (k ≠ .idle → TimerSet s mgr →
        TimerSet ((s.setActive n active).setActiveCount mgr k count) mgr) ∧
      ∀ loop' k', ((s.setActive n active).setActiveCount mgr k count).handles loop' k' =
        s.handles loop' k' := by
  generalize ht : (s.setActive n active).setActiveCount mgr k count = t
  have hmanager : t.manager mgr = { s.manager mgr with
      list := update (s.manager mgr).list k (s.links mgr k).head
      activeCount := update (s.manager mgr).activeCount k count } := by
    have hlist : update (s.manager mgr).list k (s.links mgr k).head =
        (s.manager mgr).list := update_eq_self ..
    rw [← ht, hlist]
    exact update_self ..
  have hhandle : t.handle = update s.handle n { s.handle n with active := active } := by
    rw [← ht]
    rfl
  have hsame : ∀ m, (t.handle m).loop = (s.handle m).loop ∧ (t.handle m).kind = (s.handle m).kind ∧
      (t.handle m).active = if m = n then active else (s.handle m).active := by
    intro m
    rw [hhandle]
    by_cases hm : m = n
    · subst hm
      rw [update_self, if_pos rfl]
      exact ⟨rfl, rfl, rfl⟩
    · rw [update_of_ne hm, if_neg hm]
      exact ⟨rfl, rfl, rfl⟩
  have hhandles := System.handles_congr (t := t) (by rw [← ht]; rfl) (by rw [← ht]; rfl)
    (fun m => (hsame m).1) fun m => (hsame m).2.1
  have hactive : ∀ loop' k', loop' ≠ loop ∨ k' ≠ k → ∀ m ∈ s.handles loop' k',
      (t.handle m).active = (s.handle m).active := by
    intro loop' k' hne m hm
    rw [(hsame m).2.2, if_neg (System.ne_of_mem hn hm hne)]
  have hlinks : t.next = s.next ∧ t.prev = s.prev := by
    rw [← ht]
    exact ⟨rfl, rfl⟩
  have hlinks' : ∀ m, t.next m = s.next m ∧ t.prev m = s.prev m := fun m =>
    ⟨congrFun hlinks.1 m, congrFun hlinks.2 m⟩
  refine ⟨?_, ?_, fun hk hset => ?_, hhandles⟩
  · refine
      { managers := by rw [← ht]; rfl
        managerCount := by rw [← ht]; rfl
        manager := fun a ha => ?_
        owner := by rw [hmanager]
        handles := fun loop' _ k' => hhandles loop' k'
        active := fun loop' hne k' m hm => hactive loop' k' (Or.inl hne) m hm
        links := fun _ _ _ m _ => hlinks' m
        sleep := by rw [← ht]; rfl
        installed := by rw [← ht]; rfl
        timers := fun _ _ => by rw [← ht]; rfl }
    rw [← ht]
    exact update_of_ne ha ..
  · refine h.change k (d := s.links mgr k) hmanager hlinks.1 hlinks.2 ?_ ?_
      (fun k' _ => hhandles loop k') (fun _ _ m _ => hlinks' m)
      (fun k' hk m hm => hactive loop k' (Or.inr hk) m hm) (by rw [← ht]; rfl) (by rw [← ht]; rfl)
      (by rw [← ht]; rfl)
    · rw [hhandles]
      exact h.list k
    · rw [hhandles, hcount]
      refine List.countP_congr fun m _ => ?_
      rw [(hsame m).2.2]
  · unfold TimerSet at hset ⊢
    rw [hmanager]
    dsimp only
    rw [update_of_ne hk.symm]
    exact hset

/-- **A stopped handle** is taken out of its list. -/
theorem remove (h : Kept s loop mgr) (hn : n ∈ s.handles loop k)
    (hstopped : (s.handle n).active = false) {t : System}
    (ht : t = (s.removeHandle mgr k n).zfree n) :
    Within s t loop mgr ∧ Kept t loop mgr ∧ (TimerSet s mgr → TimerSet t mgr) ∧
      t.handles loop k = (s.handles loop k).erase n := by
  have hmanager : t.manager mgr = { s.manager mgr with
      list := update (s.manager mgr).list k ((s.links mgr k).remove n).head
      activeCount := update (s.manager mgr).activeCount k
        ((s.manager mgr).activeCount k) } := by
    have hcount : update (s.manager mgr).activeCount k ((s.manager mgr).activeCount k) =
        (s.manager mgr).activeCount := update_eq_self ..
    rw [ht, hcount]
    exact update_self ..
  have hhandle : t.handle = s.handle := by
    rw [ht]
    rfl
  have hhandles : ∀ loop' k', t.handles loop' k' = (s.handles loop' k').erase n := fun loop' k' =>
    System.handles_free (by rw [ht]; rfl) (by rw [ht]; rfl) hhandle loop' k'
  have hother : ∀ loop' k', loop' ≠ loop ∨ k' ≠ k → t.handles loop' k' = s.handles loop' k' ∧
      ∀ m ∈ s.handles loop' k', t.next m = s.next m ∧ t.prev m = s.prev m := by
    intro loop' k' hne
    constructor
    · rw [hhandles, List.erase_of_not_mem]
      intro hmem
      exact System.ne_of_mem hn hmem hne rfl
    · intro m hm
      rw [ht]
      refine (h.list k).remove_other hn fun hmem => ?_
      exact System.ne_of_mem hmem hm hne rfl
  refine ⟨?_, ?_, fun hset => ?_, hhandles loop k⟩
  · refine
      { managers := by rw [ht]; rfl
        managerCount := by rw [ht]; rfl
        manager := fun a ha => ?_
        owner := by rw [hmanager]
        handles := fun loop' hne k' => (hother loop' k' (Or.inl hne)).1
        active := fun _ _ _ m _ => by rw [hhandle]
        links := fun loop' hne k' m hm => (hother loop' k' (Or.inl hne)).2 m hm
        sleep := by rw [ht]; rfl
        installed := by rw [ht]; rfl
        timers := fun _ _ => by rw [ht]; rfl }
    rw [ht]
    exact update_of_ne ha ..
  · refine h.change k (d := (s.links mgr k).remove n) hmanager (by rw [ht]; rfl) (by rw [ht]; rfl) ?_
      ?_ (fun k' hk => (hother loop k' (Or.inr hk)).1)
      (fun k' hk m hm => (hother loop k' (Or.inr hk)).2 m hm)
      (fun _ _ m _ => by rw [hhandle]) (by rw [ht]; rfl) (by rw [ht]; rfl) (by rw [ht]; rfl)
    · rw [hhandles]
      exact (h.list k).remove hn
    · rw [hhandles, hhandle, h.count k, (List.perm_cons_erase hn).countP_eq,
        List.countP_cons_of_neg (by rw [hstopped]; exact Bool.false_ne_true)]
  · unfold TimerSet at hset ⊢
    rw [hmanager]
    dsimp only
    rw [update_eq_self]
    exact hset

end Kept

/-! ## Managers come and go -/

section managers

variable {s : System} {loop mgr : ℕ}

/-- The step from `s` to `t` that gives the loop a new manager. -/
structure Created (s t : System) (loop mgr : ℕ) : Prop where
  fresh : mgr = s.managerCount
  managers : t.managers = mgr :: s.managers
  managerCount : t.managerCount = mgr + 1
  self : t.manager mgr = ⟨loop, fun _ => none, fun _ => 0, s.sleep loop, 0, false⟩
  other : ∀ a, a ≠ mgr → t.manager a = s.manager a
  handles : t.handles = s.handles
  handle : t.handle = s.handle
  links : t.next = s.next ∧ t.prev = s.prev
  sleep : t.sleep =
    update s.sleep loop ⟨.idleBeforeSleepCallback mgr, .idleAfterSleepCallback mgr⟩
  installed : t.installed = s.installed
  timers : t.timers = s.timers

/-- What creating a manager does. -/
theorem System.idleCreateManager_spec {t : System} (hget : s.idleGetManager loop = none)
    (ht : s.idleCreateManager loop = (mgr, t)) : Created s t loop mgr := by
  unfold System.idleCreateManager at ht
  rw [hget] at ht
  cases ht
  exact ⟨rfl, rfl, rfl, update_self .., fun _ ha => update_of_ne ha .., rfl, rfl,
    ⟨rfl, rfl⟩, rfl, rfl, rfl⟩

/-- The managers there were. -/
theorem Created.old {t : System} (h : Created s t loop mgr) (hr : Registry s) {a : ℕ}
    (ha : a ∈ s.managers) : t.manager a = s.manager a ∧ a < mgr := by
  have hlt : a < mgr := by
    rw [h.fresh]
    exact hr.bound a ha
  exact ⟨h.other a (Nat.ne_of_lt hlt), hlt⟩

/-- The new manager is registered. -/
theorem Created.registry {t : System} (h : Created s t loop mgr) (hr : Registry s)
    (hget : s.idleGetManager loop = none) : Registry t := by
  have hloop : ∀ a ∈ s.managers, (s.manager a).loop ≠ loop := Registry.get_eq_none.mp hget
  refine ⟨?_, fun a ha b hb heq => ?_, fun a ha => ?_⟩
  · rw [h.managers, List.nodup_cons]
    exact ⟨fun hmem => absurd (h.old hr hmem).2 (Nat.lt_irrefl mgr), hr.nodup⟩
  · rw [h.managers] at ha hb
    rcases List.mem_cons.mp ha with ha' | ha'
    · rcases List.mem_cons.mp hb with hb' | hb'
      · rw [ha', hb']
      · rw [ha', h.self, (h.old hr hb').1] at heq
        exact absurd heq.symm (hloop b hb')
    · rcases List.mem_cons.mp hb with hb' | hb'
      · rw [hb', h.self, (h.old hr ha').1] at heq
        exact absurd heq (hloop a ha')
      · rw [(h.old hr ha').1, (h.old hr hb').1] at heq
        exact hr.loops a ha' b hb' heq
  · rw [h.managers] at ha
    rw [h.managerCount]
    rcases List.mem_cons.mp ha with ha' | ha'
    · rw [ha']
      exact Nat.lt_succ_self mgr
    · exact Nat.lt_succ_of_lt (h.old hr ha').2

/-- The new manager has no handles yet. -/
theorem Created.kept {t : System} (h : Created s t loop mgr) (hempty : ∀ k, s.handles loop k = [])
    (hsleep : s.sleep loop = s.installed loop) (htimers : s.timers loop = []) : Kept t loop mgr := by
  refine ⟨by rw [h.self], fun k => ?_, fun k => ?_, ?_, ?_, ?_⟩
  · unfold System.links
    rw [h.handles, hempty, h.self]
    exact ⟨rfl, trivial⟩
  · rw [h.handles, hempty, h.self]
    rfl
  · rw [h.self, h.timers]
    exact htimers
  · rw [h.sleep]
    exact update_self ..
  · rw [h.self, h.installed]
    exact hsleep

/-- The other loops have the managers they had. -/
theorem Created.sameLoop {t : System} (h : Created s t loop mgr) (hr : Registry s) {l : ℕ}
    (hl : l ≠ loop) : SameLoop s t l where
  get := by
    unfold System.idleGetManager
    rw [h.managers, List.find?_cons_of_neg]
    · refine List.find?_congr fun a ha => ?_
      rw [(h.old hr ha).1]
    · rw [h.self, decide_eq_true_eq]
      exact hl.symm
  manager := fun _ ha => (h.old hr (hr.get_eq_some.mp ha).1).1
  handles := fun _ => by rw [h.handles]
  active := fun _ _ _ => by rw [h.handle]
  links := fun _ _ _ => by
    rw [h.links.1, h.links.2]
    exact ⟨rfl, rfl⟩
  sleep := by
    rw [h.sleep]
    exact update_of_ne hl ..
  installed := by rw [h.installed]
  timers := by rw [h.timers]

/-- **A manager** for a loop: the one it has, or a new one without handles. -/
theorem IdleInv.create (h : IdleInv s) (loop : ℕ) {mgr : ℕ} {t : System}
    (ht : s.idleCreateManager loop = (mgr, t)) :
    Registry t ∧ t.idleGetManager loop = some mgr ∧ Kept t loop mgr ∧ TimerSet t mgr ∧
      (∀ loop', loop' ≠ loop → SameLoop s t loop') := by
  cases hget : s.idleGetManager loop with
  | some a =>
    unfold System.idleCreateManager at ht
    rw [hget] at ht
    cases ht
    exact ⟨h.registry, hget, (h.loops loop).kept _ hget, (h.loops loop).timer _ hget,
      fun loop' _ => .refl s loop'⟩
  | none =>
    obtain ⟨hempty, hsleep, htimers⟩ := (h.loops loop).none hget
    have hnew := System.idleCreateManager_spec hget ht
    have hr : Registry t := hnew.registry h.registry hget
    refine ⟨hr, ?_, hnew.kept hempty hsleep htimers, ?_,
      fun _ hl => hnew.sameLoop h.registry hl⟩
    · rw [hr.get_eq_some, hnew.managers, hnew.self]
      exact ⟨List.mem_cons_self, rfl⟩
    · unfold TimerSet
      rw [hnew.self]
      exact iff_of_false Bool.false_ne_true (Nat.lt_irrefl 0)

/-- The step from `s` to `t` that takes the manager of the loop away. -/
structure Destroyed (s t : System) (loop mgr : ℕ) : Prop where
  managers : t.managers = s.managers.erase mgr
  managerCount : t.managerCount = s.managerCount
  manager : t.manager = s.manager
  handles : t.handles = s.handles
  handle : t.handle = s.handle
  links : t.next = s.next ∧ t.prev = s.prev
  sleep : t.sleep = update s.sleep loop (s.installed loop)
  installed : t.installed = s.installed
  timers : t.timers loop = []
  otherTimers : ∀ l, l ≠ loop → t.timers l = s.timers l

/-- A manager without handles is destroyed. -/
theorem Kept.destroyed (h : Kept s loop mgr) :
    Destroyed s (s.idleDestroyManager mgr) loop mgr := by
  have htimers := h.timers
  have horig := h.orig
  unfold System.idleDestroyManager System.loopyUnregisterTimer
  dsimp only
  rw [h.owner, horig]
  cases hactive : (s.manager mgr).idleTimerActive with
  | true =>
    rw [hactive, if_pos rfl] at htimers
    rw [if_pos rfl]
    refine ⟨rfl, rfl, rfl, rfl, rfl, ⟨rfl, rfl⟩, rfl, rfl, ?_, fun l hl => ?_⟩
    · dsimp only
      rw [update_self, htimers, List.erase_cons_head]
    · exact update_of_ne hl ..
  | false =>
    rw [hactive, if_neg Bool.false_ne_true] at htimers
    rw [if_neg Bool.false_ne_true]
    exact ⟨rfl, rfl, rfl, rfl, rfl, ⟨rfl, rfl⟩, rfl, rfl, htimers, fun _ _ => rfl⟩

theorem Destroyed.mem_iff {t : System} (h : Destroyed s t loop mgr) (hr : Registry s) (a : ℕ) :
    a ∈ t.managers ↔ a ≠ mgr ∧ a ∈ s.managers := by
  rw [h.managers]
  exact hr.nodup.mem_erase_iff

/-- It leaves the registry. -/
theorem Destroyed.registry {t : System} (h : Destroyed s t loop mgr) (hr : Registry s) :
    Registry t := by
  refine ⟨?_, fun a ha b hb heq => ?_, fun a ha => ?_⟩
  · rw [h.managers]
    exact hr.nodup.erase mgr
  · rw [h.manager] at heq
    exact hr.loops a ((h.mem_iff hr a).mp ha).2 b ((h.mem_iff hr b).mp hb).2 heq
  · rw [h.managerCount]
    exact hr.bound a ((h.mem_iff hr a).mp ha).2

/-- The loop has no manager any more. -/
theorem Destroyed.get {t : System} (h : Destroyed s t loop mgr) (hr : Registry s)
    (hmem : mgr ∈ s.managers) (howner : (s.manager mgr).loop = loop) :
    t.idleGetManager loop = none := by
  refine Registry.get_eq_none.mpr fun a ha heq => ?_
  rw [h.manager] at heq
  obtain ⟨hne, ha⟩ := (h.mem_iff hr a).mp ha
  exact hne (hr.loops a ha mgr hmem (heq.trans howner.symm))

/-- Other loops keep theirs. -/
theorem Destroyed.sameLoop {t : System} (h : Destroyed s t loop mgr) (hr : Registry s)
    (howner : (s.manager mgr).loop = loop) {l : ℕ} (hl : l ≠ loop) : SameLoop s t l where
  get := by
    cases hget : s.idleGetManager l with
    | none =>
      rw [Registry.get_eq_none] at hget ⊢
      intro a ha
      rw [h.manager]
      exact hget a ((h.mem_iff hr a).mp ha).2
    | some b =>
      rw [hr.get_eq_some] at hget
      rw [(h.registry hr).get_eq_some, h.manager, h.mem_iff hr]
      refine ⟨⟨?_, hget.1⟩, hget.2⟩
      rintro rfl
      exact hl (hget.2.symm.trans howner)
  manager := fun a _ => congrFun h.manager a
  handles := fun _ => by rw [h.handles]
  active := fun _ _ _ => by rw [h.handle]
  links := fun _ _ _ => by
    rw [h.links.1, h.links.2]
    exact ⟨rfl, rfl⟩
  sleep := by
    rw [h.sleep]
    exact update_of_ne hl ..
  installed := by rw [h.installed]
  timers := h.otherTimers l hl

/-- **The manager of a loop without handles** is destroyed, and the sleep callbacks are what they
were. -/
theorem Kept.destroy (h : Kept s loop mgr) (hr : Registry s) (hmem : mgr ∈ s.managers)
    (hempty : ∀ k, s.handles loop k = []) :
    Registry (s.idleDestroyManager mgr) ∧ LoopInv (s.idleDestroyManager mgr) loop ∧
      ∀ loop', loop' ≠ loop → SameLoop s (s.idleDestroyManager mgr) loop' := by
  have hgone := h.destroyed
  have hnone := hgone.get hr hmem h.owner
  refine ⟨hgone.registry hr, ⟨fun a ha => ?_, fun a ha => ?_, fun a ha => ?_, fun _ => ?_⟩,
    fun _ hl => hgone.sameLoop hr h.owner hl⟩
  · rw [hnone] at ha
    cases ha
  · rw [hnone] at ha
    cases ha
  · rw [hnone] at ha
    cases ha
  · refine ⟨fun k => by rw [hgone.handles, hempty], ?_, hgone.timers⟩
    rw [hgone.sleep, hgone.installed, update_self]

end managers

/-! ## The calls -/

namespace IdleInv

variable {s t : System} {loop mgr n timerId : ℕ} {k : Kind}

/-- A change for a loop that keeps what its manager keeps. -/
theorem of_within (hr : Registry s) (hget : s.idleGetManager loop = some mgr)
    (howner : (s.manager mgr).loop = loop) (hother : ∀ l, l ≠ loop → LoopInv s l)
    (hw : Within s t loop mgr) (hkept : Kept t loop mgr) (hset : TimerSet t mgr)
    (hsome : ∃ k, t.handles loop k ≠ []) : IdleInv t := by
  have hgett : t.idleGetManager loop = some mgr := (hw.get loop).trans hget
  refine ⟨hw.registry hr, fun l => ?_⟩
  by_cases hl : l = loop
  · subst hl
    have heq : ∀ a, t.idleGetManager l = some a → mgr = a := fun a ha =>
      Option.some.inj (hgett.symm.trans ha)
    refine ⟨fun a ha => heq a ha ▸ hkept, fun a ha => heq a ha ▸ hset, fun _ _ => hsome, ?_⟩
    intro hnone
    rw [hgett] at hnone
    cases hnone
  · exact (hw.sameLoop hr howner hl).loopInv (hother l hl)

/-- The loop of a live handle has a manager. -/
theorem exists_manager (h : IdleInv s) (hn : n ∈ s.handles loop k) :
    ∃ mgr, s.idleGetManager loop = some mgr := by
  cases hget : s.idleGetManager loop with
  | some mgr => exact ⟨mgr, rfl⟩
  | none =>
    rw [((h.loops loop).none hget).1 k] at hn
    cases hn

/-- **Starting** a handle. -/
theorem startHandle (h : IdleInv s) (k : Kind) (loop cb userData : ℕ)
    (hid : k = .idle → timerId ≠ 0) : IdleInv (s.startHandle k loop cb userData timerId) := by
  unfold System.startHandle
  split
  · exact h
  · cases hc : s.idleCreateManager loop with
    | mk mgr s₁ =>
      obtain ⟨hr, hget, hkept, hset, hother⟩ := h.create loop hc
      obtain ⟨hw, hkept', hset', hhandles⟩ :=
        hkept.insert (x := ⟨k, loop, cb, userData, true⟩) rfl rfl
      obtain ⟨hw', hkept'', hset''⟩ := hkept'.countChanged (k := k) hid fun hk => hset' hk hset
      refine of_within hr hget hkept.owner (fun l hl => (hother l hl).loopInv (h.loops l))
        (hw.trans hw') hkept'' hset'' ⟨k, ?_⟩
      rw [(System.countChanged_spec ..).1, hhandles]
      exact List.cons_ne_nil _ _

/-- **Turning** a handle on or off. -/
theorem turn (h : IdleInv s) (hn : n ∈ s.handles loop k)
    (hget : s.idleGetManager loop = some mgr) {active : Bool} {count : ℕ}
    (hcount : count =
      (s.handles loop k).countP fun m => if m = n then active else (s.handle m).active)
    (hid : k = .idle → timerId ≠ 0) :
    IdleInv (((s.setActive n active).setActiveCount mgr k count).countChanged mgr k timerId) ∧
      ∀ loop' k', (((s.setActive n active).setActiveCount mgr k count).countChanged mgr k
        timerId).handles loop' k' = s.handles loop' k' := by
  have hkept := (h.loops loop).kept mgr hget
  obtain ⟨hw, hkept', hset, hhandles⟩ := hkept.turn hn hcount
  obtain ⟨hw', hkept'', hset'⟩ := hkept'.countChanged (k := k) hid fun hk =>
    hset hk ((h.loops loop).timer mgr hget)
  have hsame : ∀ loop' k', (((s.setActive n active).setActiveCount mgr k count).countChanged mgr k
      timerId).handles loop' k' = s.handles loop' k' := by
    intro loop' k'
    rw [(System.countChanged_spec ..).1, hhandles]
  refine ⟨?_, hsame⟩
  refine of_within h.registry hget hkept.owner (fun l _ => h.loops l) (hw.trans hw') hkept'' hset'
    ⟨k, ?_⟩
  rw [hsame]
  exact List.ne_nil_of_mem hn

/-- **Stopping** a handle. -/
theorem stopHandle (h : IdleInv s) (hn : n ∈ s.handles loop k) (hid : k = .idle → timerId ≠ 0) :
    IdleInv (s.stopHandle k n timerId) ∧ n ∈ (s.stopHandle k n timerId).handles loop k ∧
      ((s.stopHandle k n timerId).handle n).active = false := by
  obtain ⟨mgr, hget⟩ := h.exists_manager hn
  obtain ⟨-, -, hloop, -⟩ := System.mem_handles.mp hn
  unfold System.stopHandle
  cases hactive : (s.handle n).active with
  | false =>
    rw [if_pos rfl]
    exact ⟨h, hn, hactive⟩
  | true =>
    rw [if_neg (by decide)]
    dsimp only
    have hturn := countP_turn (s.nodup_handles loop k) hn
      (p := fun m => if m = n then false else (s.handle m).active)
      (q := fun m => (s.handle m).active) (fun m hm => (if_neg hm).symm) (if_pos rfl) hactive
    have hcount := ((h.loops loop).kept mgr hget).count k
    have hself : (s.setActive n false).handle n = { s.handle n with active := false } :=
      update_self ..
    have hget' : (s.setActive n false).idleGetManager loop = some mgr := hget
    have hpos : ((s.setActive n false).manager mgr).activeCount k > 0 := by
      show (s.manager mgr).activeCount k > 0
      omega
    rw [hself]
    dsimp only
    rw [hloop, hget']
    dsimp only
    rw [if_pos hpos]
    have hcount' : (s.manager mgr).activeCount k - 1 =
        (s.handles loop k).countP fun m => if m = n then false else (s.handle m).active := by
      omega
    obtain ⟨hinv, hhandles⟩ := h.turn hn hget hcount' hid
    refine ⟨hinv, ?_, ?_⟩
    · rw [← hhandles] at hn
      exact hn
    · refine Eq.trans ?_ (congrArg Handle.active hself)
      exact congrArg Handle.active (congrFun (System.countChanged_spec ..).2 n)

/-- **Restarting** a handle. -/
theorem restartHandle (h : IdleInv s) (hn : n ∈ s.handles loop k) (hid : k = .idle → timerId ≠ 0) :
    IdleInv (s.restartHandle k n timerId).2 := by
  obtain ⟨mgr, hget⟩ := h.exists_manager hn
  obtain ⟨-, -, hloop, -⟩ := System.mem_handles.mp hn
  unfold System.restartHandle
  cases hactive : (s.handle n).active with
  | true =>
    rw [if_pos rfl]
    exact h
  | false =>
    rw [if_neg Bool.false_ne_true]
    dsimp only
    have hturn := countP_turn (s.nodup_handles loop k) hn
      (p := fun m => (s.handle m).active)
      (q := fun m => if m = n then true else (s.handle m).active) (fun m hm => if_neg hm) hactive
      (if_pos rfl)
    have hcount := ((h.loops loop).kept mgr hget).count k
    have hself : (s.setActive n true).handle n = { s.handle n with active := true } :=
      update_self ..
    have hget' : (s.setActive n true).idleGetManager loop = some mgr := hget
    rw [hself]
    dsimp only
    rw [hloop, hget']
    have hcount' : (s.manager mgr).activeCount k + 1 =
        (s.handles loop k).countP fun m => if m = n then true else (s.handle m).active := by
      omega
    exact (h.turn hn hget hcount' hid).1

/-- **Freeing** a handle. -/
theorem freeHandle (h : IdleInv s) (hn : n ∈ s.handles loop k) (hid : k = .idle → timerId ≠ 0) :
    IdleInv (s.freeHandle k n timerId) := by
  have hstop : IdleInv (if (s.handle n).active then s.stopHandle k n timerId else s) ∧
      n ∈ (if (s.handle n).active then s.stopHandle k n timerId else s).handles loop k ∧
      ((if (s.handle n).active then s.stopHandle k n timerId else s).handle n).active = false := by
    cases hactive : (s.handle n).active with
    | true => exact h.stopHandle hn hid
    | false => exact ⟨h, hn, hactive⟩
  unfold System.freeHandle
  dsimp only
  generalize (if (s.handle n).active then s.stopHandle k n timerId else s) = s₁ at hstop
  obtain ⟨h₁, hn₁, hinactive⟩ := hstop
  obtain ⟨mgr, hget⟩ := h₁.exists_manager hn₁
  obtain ⟨-, -, hloop, -⟩ := System.mem_handles.mp hn₁
  have hkept := (h₁.loops loop).kept mgr hget
  obtain ⟨hw, hkept', hset, -⟩ := hkept.remove hn₁ hinactive rfl
  rw [hloop, hget]
  dsimp only
  have hnil : ∀ k', ((s₁.removeHandle mgr k n).manager mgr).list k' = none ↔
      ((s₁.removeHandle mgr k n).zfree n).handles loop k' = [] := fun k' =>
    (hkept'.list k').chain.eq_none_iff
  have hr := hw.registry h₁.registry
  have hmem : mgr ∈ s₁.managers := (h₁.registry.get_eq_some.mp hget).1
  by_cases hempty : ∀ k', ((s₁.removeHandle mgr k n).zfree n).handles loop k' = []
  · -- the last handle of the loop: the manager goes
    obtain ⟨hr', hown, hother⟩ := hkept'.destroy hr hmem hempty
    have heq : ((s₁.removeHandle mgr k n).idleDestroyManager mgr).zfree n =
        ((s₁.removeHandle mgr k n).zfree n).idleDestroyManager mgr := by
      unfold System.idleDestroyManager System.zfree
      dsimp only
      split <;> rfl
    rw [if_pos ⟨(hnil _).mpr (hempty _), (hnil _).mpr (hempty _), (hnil _).mpr (hempty _)⟩, heq]
    refine ⟨hr', fun l => ?_⟩
    by_cases hl : l = loop
    · subst hl
      exact hown
    · exact ((hw.sameLoop h₁.registry hkept.owner hl).trans (hother l hl)).loopInv (h₁.loops l)
  · rw [if_neg]
    · exact of_within h₁.registry hget hkept.owner (fun l _ => h₁.loops l) hw hkept'
        (hset ((h₁.loops loop).timer mgr hget)) (Classical.not_forall.mp hempty)
    · rintro ⟨hidle, hprepare, hcheck⟩
      refine hempty fun k' => (hnil k').mp ?_
      cases k' with
      | idle => exact hidle
      | prepare => exact hprepare
      | check => exact hcheck

/-- Other code sets the sleep callbacks of a loop without a manager. -/
theorem setSleep (h : IdleInv s) (hget : s.idleGetManager loop = none) (sleep : Sleep) :
    IdleInv (s.setSleep loop sleep) := by
  refine ⟨⟨h.registry.nodup, h.registry.loops, h.registry.bound⟩, fun l => ?_⟩
  have hgett : (s.setSleep loop sleep).idleGetManager l = s.idleGetManager l := rfl
  by_cases hl : l = loop
  · subst hl
    obtain ⟨hempty, -, htimers⟩ := (h.loops l).none hget
    refine ⟨fun mgr hmgr => ?_, fun mgr hmgr => ?_, fun mgr hmgr => ?_, fun _ => ?_⟩
    · rw [hgett, hget] at hmgr
      cases hmgr
    · rw [hgett, hget] at hmgr
      cases hmgr
    · rw [hgett, hget] at hmgr
      cases hmgr
    · refine ⟨hempty, ?_, htimers⟩
      unfold System.setSleep
      dsimp only
      rw [update_self, update_self]
  · refine SameLoop.loopInv (s := s) ?_ (h.loops l)
    exact
      { get := rfl
        manager := fun _ _ => rfl
        handles := fun _ => rfl
        active := fun _ _ _ => rfl
        links := fun _ _ _ => ⟨rfl, rfl⟩
        sleep := update_of_ne hl ..
        installed := update_of_ne hl ..
        timers := rfl }

theorem start (sleep : ℕ → Sleep) : IdleInv (.start sleep) := by
  refine ⟨⟨List.nodup_nil, ?_, ?_⟩, fun loop => ⟨?_, ?_, ?_, fun _ => ⟨fun k => ?_, rfl, rfl⟩⟩⟩
  · intro a ha
    cases ha
  · intro a ha
    cases ha
  · intro mgr hmgr
    cases hmgr
  · intro mgr hmgr
    cases hmgr
  · intro mgr hmgr
    cases hmgr
  · rfl

theorem mem_of_has (h : s.has k n = true) : n ∈ s.handles (s.handle n).loop k := by
  unfold System.has at h
  rw [Bool.and_eq_true, Bool.and_eq_true, decide_eq_true_eq, decide_eq_true_eq] at h
  exact System.mem_handles.mpr ⟨h.1.1, h.1.2, rfl, h.2⟩

theorem ne_zero_of_fresh (h : s.fresh loop timerId = true) : timerId ≠ 0 := by
  unfold System.fresh at h
  rw [Bool.and_eq_true, decide_eq_true_eq] at h
  exact h.1

/-- What a step can do. Only an idle handle may register the timer, with the id `tid`. -/
inductive Called (s : System) : Action → System → Prop
  | start (k : Kind) (loop cb userData timerId tid : ℕ) (hid : k = .idle → tid ≠ 0) :
    Called s (.start k loop cb userData timerId) (s.startHandle k loop cb userData tid)
  | stop (k : Kind) (n timerId tid : ℕ) (hn : n ∈ s.handles (s.handle n).loop k)
    (hid : k = .idle → tid ≠ 0) : Called s (.stop k n timerId) (s.stopHandle k n tid)
  | restart (k : Kind) (n timerId tid : ℕ) (hn : n ∈ s.handles (s.handle n).loop k)
    (hid : k = .idle → tid ≠ 0) : Called s (.restart k n timerId) (s.restartHandle k n tid).2
  | free (k : Kind) (n timerId tid : ℕ) (hn : n ∈ s.handles (s.handle n).loop k)
    (hid : k = .idle → tid ≠ 0) : Called s (.free k n timerId) (s.freeHandle k n tid)
  | setBeforeSleep (loop cb data : ℕ) (hget : s.idleGetManager loop = none) :
    Called s (.setBeforeSleep loop cb data)
      (s.setSleep loop { s.sleep loop with before := .other cb data })
  | setAfterSleep (loop cb data : ℕ) (hget : s.idleGetManager loop = none) :
    Called s (.setAfterSleep loop cb data)
      (s.setSleep loop { s.sleep loop with after := .other cb data })

/-- The twelve functions are four, each for three kinds of handles. -/
theorem called {a : Action} (hstep : s.step a = some t) : Called s a t := by
  unfold System.step at hstep
  cases a with
  | start k loop cb userData timerId =>
    obtain ⟨hfresh, hstep⟩ := Option.ite_none_right_eq_some.mp hstep
    cases k with
    | idle =>
      cases hstep
      exact .start .idle loop cb userData timerId timerId fun _ => ne_zero_of_fresh hfresh
    | prepare =>
      cases hstep
      exact .start .prepare loop cb userData timerId 0 (by decide)
    | check =>
      cases hstep
      exact .start .check loop cb userData timerId 0 (by decide)
  | stop k n timerId =>
    obtain ⟨⟨hn, hfresh⟩, hstep⟩ := Option.ite_none_right_eq_some.mp hstep
    cases k with
    | idle =>
      cases hstep
      exact .stop .idle n timerId timerId (mem_of_has hn) fun _ => ne_zero_of_fresh hfresh
    | prepare =>
      cases hstep
      exact .stop .prepare n timerId 0 (mem_of_has hn) (by decide)
    | check =>
      cases hstep
      exact .stop .check n timerId 0 (mem_of_has hn) (by decide)
  | restart k n timerId =>
    obtain ⟨⟨hn, hfresh⟩, hstep⟩ := Option.ite_none_right_eq_some.mp hstep
    cases k with
    | idle =>
      cases hstep
      exact .restart .idle n timerId timerId (mem_of_has hn) fun _ => ne_zero_of_fresh hfresh
    | prepare =>
      cases hstep
      exact .restart .prepare n timerId 0 (mem_of_has hn) (by decide)
    | check =>
      cases hstep
      exact .restart .check n timerId 0 (mem_of_has hn) (by decide)
  | free k n timerId =>
    obtain ⟨⟨hn, hfresh⟩, hstep⟩ := Option.ite_none_right_eq_some.mp hstep
    cases k with
    | idle =>
      cases hstep
      exact .free .idle n timerId timerId (mem_of_has hn) fun _ => ne_zero_of_fresh hfresh
    | prepare =>
      cases hstep
      exact .free .prepare n timerId 0 (mem_of_has hn) (by decide)
    | check =>
      cases hstep
      exact .free .check n timerId 0 (mem_of_has hn) (by decide)
  | setBeforeSleep loop cb data =>
    obtain ⟨hget, rfl⟩ := of_guard hstep
    exact .setBeforeSleep loop cb data hget
  | setAfterSleep loop cb data =>
    obtain ⟨hget, rfl⟩ := of_guard hstep
    exact .setAfterSleep loop cb data hget

/-- **One call.** -/
theorem step (h : IdleInv s) {a : Action} (hstep : s.step a = some t) : IdleInv t := by
  cases called hstep with
  | start k loop cb userData timerId tid hid => exact h.startHandle k loop cb userData hid
  | stop k n timerId tid hn hid => exact (h.stopHandle hn hid).1
  | restart k n timerId tid hn hid => exact h.restartHandle hn hid
  | free k n timerId tid hn hid => exact h.freeHandle hn hid
  | setBeforeSleep loop cb data hget => exact h.setSleep hget _
  | setAfterSleep loop cb data hget => exact h.setSleep hget _

/-- The count of a loop is that of its active handles. -/
theorem activeCount_eq (h : IdleInv s) (loop : ℕ) (k : Kind) :
    s.activeCount k loop = ((s.handles loop k).filter fun n => (s.handle n).active).length := by
  rw [← List.countP_eq_length_filter]
  unfold System.activeCount
  cases hget : s.idleGetManager loop with
  | some mgr => exact ((h.loops loop).kept mgr hget).count k
  | none =>
    rw [((h.loops loop).none hget).1 k]
    rfl

/-- The invariant gives the law. -/
theorem law (h : IdleInv s) : IdleLaw s where
  manager loop := by
    constructor
    · intro hsome
      obtain ⟨mgr, hget⟩ := Option.isSome_iff_exists.mp hsome
      obtain ⟨k, hk⟩ := (h.loops loop).some mgr hget
      obtain ⟨n, hn⟩ := List.exists_mem_of_ne_nil _ hk
      obtain ⟨hlt, hlive, hloop, -⟩ := System.mem_handles.mp hn
      exact ⟨n, hlt, hlive, hloop⟩
    · rintro ⟨n, hlt, hlive, hloop⟩
      obtain ⟨mgr, hget⟩ := h.exists_manager (k := (s.handle n).kind)
        (System.mem_handles.mpr ⟨hlt, hlive, hloop, rfl⟩)
      rw [hget]
      rfl
  list loop mgr hget := ((h.loops loop).kept mgr hget).list
  count loop k := h.activeCount_eq loop k
  timer loop mgr hget := by
    have hset := (h.loops loop).timer mgr hget
    have hcount : s.activeCount .idle loop = (s.manager mgr).activeCount .idle := by
      unfold System.activeCount
      rw [hget]
      rfl
    rw [((h.loops loop).kept mgr hget).timers, hcount]
    exact if_congr hset rfl rfl
  noTimer loop hget := ((h.loops loop).none hget).2.2
  sleep loop mgr hget :=
    ⟨((h.loops loop).kept mgr hget).sleep, ((h.loops loop).kept mgr hget).orig⟩
  restored loop hget := ((h.loops loop).none hget).2.1

end IdleInv

/-- **The bookkeeping** of the three kinds of handles, after any calls. -/
theorem bookkeeping {sleep : ℕ → Sleep} {as : List Action} {s : System}
    (h : Run System.step (fun _ _ => True) (.start sleep) as s) : IdleLaw s :=
  (h.invariant (P := IdleInv) (fun _ _ _ hs _ hstep => hs.step hstep) (.start sleep)).law

/-- Handles of two loops; the only handle of the second one is freed, and so is one between the
others. -/
def twoLoops : List Action :=
  [.setBeforeSleep 1 5 50, .start .idle 1 7 70 9, .start .prepare 1 8 80 4, .start .idle 2 7 71 9,
    .start .idle 1 7 72 4, .stop .idle 3 6, .free .idle 0 6, .restart .idle 3 6, .free .idle 2 6]

theorem bookkeeping_twoLoops :
    ∃ s, Run System.step (fun _ _ => True) (.start fun _ => ⟨.other 0 0, .other 0 0⟩) twoLoops s ∧
      IdleLaw s ∧ s.managers = [0] ∧ s.handles 1 .idle = [3] ∧ s.timers 1 = [6] ∧
      s.sleep 2 = ⟨.other 0 0, .other 0 0⟩ := by
  have hexec : (exec System.step (fun _ _ => True) (.start fun _ => ⟨.other 0 0, .other 0 0⟩)
      twoLoops).map (fun s => (s.managers, s.handles 1 .idle, s.timers 1, s.sleep 2)) =
      some ([0], [3], [6], ⟨.other 0 0, .other 0 0⟩) := by
    decide +kernel
  obtain ⟨s, hrun, hval⟩ := Run.of_exec_map hexec
  obtain ⟨hmanagers, hval⟩ := Prod.mk.inj hval
  obtain ⟨hhandles, hval⟩ := Prod.mk.inj hval
  obtain ⟨htimers, hsleep⟩ := Prod.mk.inj hval
  exact ⟨s, hrun, bookkeeping hrun, hmanagers, hhandles, htimers, hsleep⟩

end Loopy.Idle
