import Loopy.Idle.Bookkeeping

/-!
# What a call leaves as it is

A call changes the handles in one place: one is added, turned on or off, or freed. The data of the
other handles, the order of the lists and the managers of the loops that keep a handle stay
(`Frame`). A walk over the handles that is interrupted by calls rests on this alone.
-/

namespace Loopy.Idle

open Loopy.Lib
open Function (update update_of_ne update_self)

/-- What every call leaves as it is. -/
structure Frame (s t : System) : Prop where
  allocated : s.allocated ≤ t.allocated
  handle : ∀ n < s.allocated, t.handle n = { s.handle n with active := (t.handle n).active }
  fresh : ∀ n, s.allocated ≤ n → n < t.allocated → (t.handle n).cb ≠ 0
  installed : ∀ loop, s.idleGetManager loop ≠ none → t.installed loop = s.installed loop
  managers : ∀ a ∈ t.managers, (a ∈ s.managers ∧ (t.manager a).loop = (s.manager a).loop) ∨
    s.idleGetManager (t.manager a).loop = none

/-- What a call does to the lists: a handle is taken out, or there may be a new one in front. -/
def ListsAfter (s t : System) : Action → Prop
  | .free _ n _ => ∀ loop k, t.handles loop k = (s.handles loop k).erase n
  | _ => ∀ loop k, t.handles loop k = s.handles loop k ∨
    t.handles loop k = s.allocated :: s.handles loop k

/-- Only managers and timers have changed, and no manager is new or gone. -/
structure SameHandles (s t : System) : Prop where
  handle : t.handle = s.handle
  live : t.live = s.live
  allocated : t.allocated = s.allocated
  installed : t.installed = s.installed
  managers : t.managers = s.managers
  loop : ∀ a, (t.manager a).loop = (s.manager a).loop

namespace SameHandles

variable {s t u : System} {k : Kind} {mgr n timerId : ℕ}

theorem refl (s : System) : SameHandles s s := ⟨rfl, rfl, rfl, rfl, rfl, fun _ => rfl⟩

theorem trans (h : SameHandles s t) (h' : SameHandles t u) : SameHandles s u where
  handle := h'.handle.trans h.handle
  live := h'.live.trans h.live
  allocated := h'.allocated.trans h.allocated
  installed := h'.installed.trans h.installed
  managers := h'.managers.trans h.managers
  loop a := (h'.loop a).trans (h.loop a)

theorem handles (h : SameHandles s t) : t.handles = s.handles := by
  unfold System.handles
  rw [h.handle, h.live, h.allocated]

/-- A manager is written. -/
theorem setManager {m : LoopyIdleManager} (hm : m.loop = (s.manager mgr).loop) :
    SameHandles s (s.setManager mgr m) := by
  refine ⟨rfl, rfl, rfl, rfl, rfl, fun a => ?_⟩
  show (update s.manager mgr m a).loop = _
  by_cases ha : a = mgr
  · rw [ha, update_self, hm]
  · rw [update_of_ne ha]

theorem setTimers (h : SameHandles s t) (timers : ℕ → List ℕ) :
    SameHandles s { t with timers := timers } :=
  ⟨h.handle, h.live, h.allocated, h.installed, h.managers, h.loop⟩

theorem countChanged (s : System) (mgr timerId : ℕ) (k : Kind) :
    SameHandles s (s.countChanged mgr k timerId) := by
  unfold System.countChanged
  cases k with
  | idle =>
    unfold System.idleUpdateTimer
    dsimp only
    split
    · split
      · refine setTimers (setManager ?_) _
        rfl
      · exact setManager rfl
    · split
      · exact ((refl s).setTimers _).trans (setManager rfl)
      · exact refl s
  | prepare => exact refl s
  | check => exact refl s

theorem setActiveCount (s : System) (mgr count : ℕ) (k : Kind) :
    SameHandles s (s.setActiveCount mgr k count) := setManager rfl

/-- What stopping or restarting does after the handle is written. -/
theorem recount (s : System) (mgr count timerId : ℕ) (k : Kind) :
    SameHandles s ((s.setActiveCount mgr k count).countChanged mgr k timerId) :=
  (setActiveCount s mgr count k).trans (countChanged ..)

theorem removeHandle (s : System) (mgr n : ℕ) (k : Kind) :
    SameHandles s (s.removeHandle mgr k n) := by
  have hset : SameHandles s (s.setManager mgr
      { s.manager mgr with
        list := update (s.manager mgr).list k ((s.links mgr k).remove n).head }) :=
    setManager rfl
  exact ⟨hset.handle, hset.live, hset.allocated, hset.installed, hset.managers, hset.loop⟩

end SameHandles

namespace Frame

variable {s t u : System} {k : Kind} {loop mgr n cb userData timerId : ℕ}

theorem refl (s : System) : Frame s s where
  allocated := Nat.le_refl _
  handle _ _ := rfl
  fresh n hle hlt := absurd hlt (by omega)
  installed _ _ := rfl
  managers _ ha := .inl ⟨ha, rfl⟩

/-- What follows writes no handle and makes no manager. -/
theorem right (h : Frame s t) (hhandle : u.handle = t.handle) (hallocated : u.allocated = t.allocated)
    (hinstalled : u.installed = t.installed) (hmanagers : ∀ a ∈ u.managers, a ∈ t.managers)
    (hloop : ∀ a, (u.manager a).loop = (t.manager a).loop) : Frame s u where
  allocated := by
    rw [hallocated]
    exact h.allocated
  handle n hn := by
    rw [hhandle]
    exact h.handle n hn
  fresh n hle hlt := by
    rw [hhandle]
    rw [hallocated] at hlt
    exact h.fresh n hle hlt
  installed loop hloop := by
    rw [hinstalled]
    exact h.installed loop hloop
  managers a ha := by
    rw [hloop]
    exact h.managers a (hmanagers a ha)

theorem same (h : Frame s t) (h' : SameHandles t u) : Frame s u :=
  h.right h'.handle h'.allocated h'.installed (fun _ ha => h'.managers ▸ ha) h'.loop

/-- A handle is turned on or off. -/
theorem setActive (s : System) (n : ℕ) (active : Bool) :
    Frame s (s.setActive n active) ∧ (s.setActive n active).handles = s.handles := by
  have hself : ∀ m, (s.setActive n active).handle m =
      { s.handle m with active := ((s.setActive n active).handle m).active } := by
    intro m
    show update s.handle n { s.handle n with active := active } m = _
    by_cases hm : m = n
    · subst hm
      rw [update_self]
      unfold System.setActive System.setHandle
      dsimp only
      rw [update_self]
    · unfold System.setActive System.setHandle
      dsimp only
      rw [update_of_ne hm]
  refine ⟨⟨Nat.le_refl _, fun m _ => hself m, fun m hle hlt => absurd hlt ?_, fun _ _ => rfl,
    fun _ ha => .inl ⟨ha, rfl⟩⟩, ?_⟩
  · exact Nat.not_lt.mpr hle
  · funext loop k
    refine System.handles_congr (s := s) (t := s.setActive n active) rfl rfl (fun m => ?_)
      (fun m => ?_) loop k
    · exact (congrArg Handle.loop (hself m) :)
    · exact (congrArg Handle.kind (hself m) :)

theorem stopHandle (s : System) (k : Kind) (n timerId : ℕ) :
    Frame s (s.stopHandle k n timerId) ∧ (s.stopHandle k n timerId).handles = s.handles := by
  obtain ⟨hframe, hhandles⟩ := setActive s n false
  unfold System.stopHandle
  split
  · exact ⟨refl s, rfl⟩
  dsimp only
  split
  · split
    · have hsame := SameHandles.recount (s.setActive n false)
      exact ⟨hframe.same (hsame ..), (hsame ..).handles.trans hhandles⟩
    · exact ⟨hframe, hhandles⟩
  · exact ⟨hframe, hhandles⟩

theorem restartHandle (s : System) (k : Kind) (n timerId : ℕ) :
    Frame s (s.restartHandle k n timerId).2 ∧
      (s.restartHandle k n timerId).2.handles = s.handles := by
  obtain ⟨hframe, hhandles⟩ := setActive s n true
  unfold System.restartHandle
  split
  · exact ⟨refl s, rfl⟩
  dsimp only
  split
  · have hsame := SameHandles.recount (s.setActive n true)
    exact ⟨hframe.same (hsame ..), (hsame ..).handles.trans hhandles⟩
  · exact ⟨hframe, hhandles⟩

/-- A freed handle is taken out of its list. -/
theorem freeHandle (s : System) (k : Kind) (n timerId : ℕ) :
    Frame s (s.freeHandle k n timerId) ∧
      ∀ loop k', (s.freeHandle k n timerId).handles loop k' = (s.handles loop k').erase n := by
  have hstop : Frame s (if (s.handle n).active then s.stopHandle k n timerId else s) ∧
      (if (s.handle n).active then s.stopHandle k n timerId else s).handles = s.handles := by
    split
    · exact stopHandle ..
    · exact ⟨refl s, rfl⟩
  have hzfree : ∀ t, Frame s t → t.handles = s.handles →
      Frame s (t.zfree n) ∧ ∀ loop k', (t.zfree n).handles loop k' = (s.handles loop k').erase n := by
    intro t hframe hhandles
    refine ⟨hframe.right rfl rfl rfl (fun _ ha => ha) fun _ => rfl, fun loop k' => ?_⟩
    rw [System.handles_free (s := t) (t := t.zfree n) rfl rfl rfl, hhandles]
  unfold System.freeHandle
  dsimp only
  generalize (if (s.handle n).active then s.stopHandle k n timerId else s) = s₁ at hstop
  obtain ⟨hframe, hhandles⟩ := hstop
  apply hzfree
  · split
    next mgr _ =>
      have hremoved := hframe.same (SameHandles.removeHandle s₁ mgr n k)
      split
      · unfold System.idleDestroyManager
        dsimp only
        refine hremoved.right ?_ ?_ ?_ (fun a ha => ?_) fun a => ?_
        · split <;> rfl
        · split <;> rfl
        · split <;> rfl
        · refine List.mem_of_mem_erase (b := mgr) ?_
          dsimp only at ha
          split at ha <;> exact ha
        · split <;> rfl
      · exact hremoved
    next => exact hframe
  · split
    next mgr _ =>
      have hremoved := (SameHandles.removeHandle s₁ mgr n k).handles.trans hhandles
      split
      · refine Eq.trans ?_ hremoved
        unfold System.idleDestroyManager
        dsimp only
        split <;> rfl
      · exact hremoved
    next => exact hhandles

/-- The manager for a handle: the one of the loop, or a new one. -/
theorem idleCreateManager {loop mgr : ℕ} {t : System} (h : s.idleCreateManager loop = (mgr, t)) :
    Frame s t ∧ t.handles = s.handles ∧ t.allocated = s.allocated ∧ t.handle = s.handle := by
  unfold System.idleCreateManager at h
  split at h
  next a _ =>
    cases h
    exact ⟨refl s, rfl, rfl, rfl⟩
  next hnone =>
    cases h
    refine ⟨⟨Nat.le_refl _, fun _ _ => rfl, fun n hle hlt => ?_, fun _ _ => rfl, fun a ha => ?_⟩, rfl,
      rfl, rfl⟩
    · exact absurd hlt (Nat.not_lt.mpr hle)
    · show (a ∈ s.managers ∧ (update s.manager s.managerCount _ a).loop = _) ∨
        s.idleGetManager (update s.manager s.managerCount _ a).loop = none
      by_cases hnew : a = s.managerCount
      · rw [hnew, update_self]
        exact .inr hnone
      · rw [update_of_ne hnew]
        exact .inl ⟨(List.mem_cons.mp ha).resolve_left hnew, rfl⟩

theorem startHandle (s : System) (k : Kind) (loop cb userData timerId : ℕ) :
    Frame s (s.startHandle k loop cb userData timerId) ∧
      ∀ loop' k', (s.startHandle k loop cb userData timerId).handles loop' k' = s.handles loop' k' ∨
        (s.startHandle k loop cb userData timerId).handles loop' k' =
          s.allocated :: s.handles loop' k' := by
  unfold System.startHandle
  by_cases hnull : loop = 0 ∨ cb = 0
  · rw [if_pos hnull]
    exact ⟨refl s, fun _ _ => .inl rfl⟩
  rw [if_neg hnull]
  cases hc : s.idleCreateManager loop with
  | mk mgr t =>
    obtain ⟨hframe, hhandles, hallocated, hhandle⟩ := idleCreateManager hc
    have hpushed : (t.insertHandle mgr ⟨k, loop, cb, userData, true⟩).handle =
      update t.handle t.allocated ⟨k, loop, cb, userData, true⟩ := rfl
    have hloops : ∀ a, ((t.insertHandle mgr ⟨k, loop, cb, userData, true⟩).manager a).loop =
        (t.manager a).loop := by
      intro a
      unfold System.insertHandle System.setActiveCount System.setLinks System.setManager
      dsimp only
      by_cases ha : a = mgr
      · rw [ha, update_self, update_self]
        rfl
      · rw [update_of_ne ha, update_of_ne ha]
        rfl
    have hinserted : Frame s (t.insertHandle mgr ⟨k, loop, cb, userData, true⟩) := by
      refine ⟨?_, fun n hn => ?_, fun n hle hlt => ?_, hframe.installed, fun a ha => ?_⟩
      · exact Nat.le_trans hframe.allocated (Nat.le_succ _)
      · rw [hpushed, update_of_ne (by omega)]
        exact hframe.handle n hn
      · have hlt' : n < t.allocated + 1 := hlt
        obtain rfl : n = t.allocated := by omega
        rw [hpushed, update_self]
        exact (not_or.mp hnull).2
      · rw [hloops]
        exact hframe.managers a ha
    have hsame := SameHandles.countChanged (t.insertHandle mgr ⟨k, loop, cb, userData, true⟩) mgr
      timerId k
    refine ⟨hinserted.same hsame, fun loop' k' => ?_⟩
    dsimp only
    rw [hsame.handles, System.handles_alloc rfl rfl hpushed, hhandles, hallocated]
    split
    · exact .inr rfl
    · exact .inl rfl

/-- Other code sets the sleep callbacks of a loop without a manager. -/
theorem setSleep (hget : s.idleGetManager loop = none) (sleep : Sleep) :
    Frame s (s.setSleep loop sleep) := by
  refine ⟨Nat.le_refl _, fun _ _ => rfl, fun n hle hlt => ?_, fun loop' hloop' => ?_,
    fun _ ha => .inl ⟨ha, rfl⟩⟩
  · exact absurd hlt (Nat.not_lt.mpr hle)
  · refine update_of_ne ?_ ..
    rintro rfl
    exact hloop' hget

/-- Whatever is called: at most one handle is added to a list, or one is taken out. -/
theorem of_step {a : Action} (hstep : s.step a = some t) :
    Frame s t ∧ ListsAfter s t a := by
  cases IdleInv.called hstep with
  | start k loop cb userData timerId tid hid => exact startHandle ..
  | stop k n timerId tid hn hid =>
    obtain ⟨hframe, hlists⟩ := stopHandle s k n tid
    exact ⟨hframe, fun _ _ => .inl (by rw [hlists])⟩
  | restart k n timerId tid hn hid =>
    obtain ⟨hframe, hlists⟩ := restartHandle s k n tid
    exact ⟨hframe, fun _ _ => .inl (by rw [hlists])⟩
  | free k n timerId tid hn hid => exact freeHandle ..
  | setBeforeSleep loop cb data hget => exact ⟨setSleep hget _, fun _ _ => .inl rfl⟩
  | setAfterSleep loop cb data hget => exact ⟨setSleep hget _, fun _ _ => .inl rfl⟩

/-- A loop that keeps a handle keeps its manager. -/
theorem keeps_manager (h : Frame s t) (hs : IdleInv s) (ht : IdleInv t)
    (hget : s.idleGetManager loop = some mgr) (hn : n ∈ t.handles loop k) :
    t.idleGetManager loop = some mgr := by
  obtain ⟨a, ha⟩ := ht.exists_manager hn
  obtain ⟨hmem, hloop⟩ := ht.registry.get_eq_some.mp ha
  rcases h.managers a hmem with ⟨hold, hsame⟩ | hnone
  · have hfound := hs.registry.get_eq_some.mpr ⟨hold, hsame.symm.trans hloop⟩
    rw [hget] at hfound
    rw [ha, hfound]
  · rw [hloop, hget] at hnone
    cases hnone

end Frame

end Loopy.Idle
