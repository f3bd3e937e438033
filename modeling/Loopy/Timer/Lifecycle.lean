import Mathlib.Data.List.Nodup
import Loopy.Timer.Basic

/-!
# The life of a timer handle

A handle is registered only while it is active and has not been freed; it is in its callback exactly
while there is an activation of the wrapper for it, and an inactive handle that has not been freed
has one. So a cancellation frees a handle that is not in its callback, and otherwise the wrapper does.
-/

namespace Loopy.Timer

open Loopy.Lib
open Function (update update_eq_self update_of_ne update_self)

/-! ## The law -/

/-- Every handle is freed at most once and not used afterwards; the callback of a one-shot timer
starts at most once, and no callback starts after a cancellation; a timer that was cancelled, or is
one-shot and has expired, is freed unless its callback is still running. -/
structure TimerLaw (s : System) : Prop where
  frees : ∀ n, s.frees n ≤ 1
  misuse : s.misuse = []
  once : ∀ n, (s.timer n).isPeriodic = false → s.log.count (.started n) ≤ 1
  order : s.log.Pairwise fun a b => ∀ n, a = .cancelled n → b ≠ .started n
  freed : ∀ n, .cancelled n ∈ s.log ∨ (s.timer n).isPeriodic = false ∧ .started n ∈ s.log →
    (∀ f ∈ s.running, f.timer ≠ n) → s.frees n = 1

/-! ## The invariant -/

/-- An entry of a wheel. -/
structure Registered (s : System) (loop id n : ℕ) : Prop where
  lt : n < s.allocated
  frees : s.frees n = 0
  active : (s.timer n).isActive = true
  loop : (s.timer n).loop = loop
  id : (s.timer n).timerId = id

/-- An activation of the wrapper. -/
structure Running (s : System) (f : Frame) : Prop where
  lt : f.timer < s.allocated
  frees : s.frees f.timer = 0
  inCallback : (s.timer f.timer).inCallback = true
  loop : (s.timer f.timer).loop = f.loop
  id : (s.timer f.timer).timerId = f.id
  periodic : (s.timer f.timer).isPeriodic = f.isPeriodic

/-- A handle that is in its callback. -/
def InCallback (s : System) (n : ℕ) : Prop := ∃ f ∈ s.running, f.timer = n

/-- What holds of a handle between steps. -/
structure HandleInv (s : System) (n : ℕ) : Prop where
  frees : s.frees n ≤ 1
  unallocated : s.allocated ≤ n → s.frees n = 0 ∧ (s.timer n).inCallback = false
  logged : .started n ∈ s.log ∨ .cancelled n ∈ s.log → n < s.allocated
  registered : ∀ loop id, (id, n) ∈ s.wheel loop → Registered s loop id n
  running : ∀ f ∈ s.running, f.timer = n → Running s f
  inCallback : (s.timer n).inCallback = true → InCallback s n
  inactive : n < s.allocated → s.frees n = 0 → (s.timer n).isActive = false → InCallback s n
  cancelled : .cancelled n ∈ s.log → (s.timer n).isActive = false
  started : .started n ∈ s.log → (s.timer n).isPeriodic = false → s.frees n = 1 ∨ InCallback s n
  once : (s.timer n).isPeriodic = false → s.log.count (.started n) ≤ 1

/-- What holds between steps. -/
structure TimerInv (s : System) : Prop where
  misuse : s.misuse = []
  ids : ∀ loop, ((s.wheel loop).map Prod.fst).Nodup
  loops : (s.running.map (·.loop)).Nodup
  order : s.log.Pairwise fun a b => ∀ n, a = .cancelled n → b ≠ .started n
  handles : ∀ n, HandleInv s n

variable {s : System}

theorem TimerInv.law (h : TimerInv s) : TimerLaw s where
  frees n := (h.handles n).frees
  misuse := h.misuse
  once n := (h.handles n).once
  order := h.order
  freed n hn hrunning := by
    have hh := h.handles n
    have hout : ¬ InCallback s n := by
      rintro ⟨f, hf, hfn⟩
      exact hrunning f hf hfn
    rcases hn with hcancelled | ⟨hone, hstarted⟩
    · by_contra hne
      have hle := hh.frees
      exact hout (hh.inactive (hh.logged (Or.inr hcancelled)) (by omega) (hh.cancelled hcancelled))
    · exact (hh.started hstarted hone).resolve_right hout

theorem TimerInv.start : TimerInv .start := by
  refine ⟨rfl, fun _ => List.nodup_nil, List.nodup_nil, List.Pairwise.nil, fun n => ?_⟩
  refine ⟨Nat.zero_le 1, fun _ => ⟨rfl, rfl⟩, ?_, ?_, ?_, ?_, ?_, ?_, ?_, fun _ => Nat.zero_le 1⟩
  · rintro (h | h) <;> cases h
  · intro loop id h
    cases h
  · intro f h
    cases h
  · intro h
    cases h
  · intro h
    exact absurd h (Nat.not_lt_zero n)
  · intro h
    cases h
  · intro h
    cases h

/-! ## Other handles -/

/-- Nothing has changed for a handle. -/
structure Same (s t : System) (n : ℕ) : Prop where
  timer : t.timer n = s.timer n
  frees : t.frees n = s.frees n
  lt : n < t.allocated ↔ n < s.allocated
  wheel : ∀ loop id, (id, n) ∈ t.wheel loop → (id, n) ∈ s.wheel loop
  running : ∀ f, f.timer = n → (f ∈ t.running ↔ f ∈ s.running)
  started : t.log.count (.started n) = s.log.count (.started n)
  cancelled : t.log.count (.cancelled n) = s.log.count (.cancelled n)

theorem Same.handleInv {t : System} {n : ℕ} (h : Same s t n) (hs : HandleInv s n) :
    HandleInv t n := by
  have hin : InCallback s n → InCallback t n := by
    rintro ⟨f, hf, hfn⟩
    exact ⟨f, (h.running f hfn).mpr hf, hfn⟩
  have hstarted : .started n ∈ t.log → .started n ∈ s.log := by
    rw [← List.count_pos_iff, ← List.count_pos_iff, h.started]
    exact id
  have hcancelled : .cancelled n ∈ t.log → .cancelled n ∈ s.log := by
    rw [← List.count_pos_iff, ← List.count_pos_iff, h.cancelled]
    exact id
  refine ⟨?_, fun hle => ?_, fun hlog => ?_, fun loop id he => ?_, fun f hf hfn => ?_, fun hc => ?_,
    fun hlt hfrees hactive => ?_, fun hlog => ?_, fun hlog hone => ?_, fun hone => ?_⟩
  · rw [h.frees]
    exact hs.frees
  · rw [h.frees, h.timer]
    exact hs.unallocated (Nat.le_of_not_lt fun hlt => Nat.not_lt.mpr hle (h.lt.mpr hlt))
  · exact h.lt.mpr (hs.logged (hlog.imp hstarted hcancelled))
  · obtain ⟨hlt, hfrees, hactive, hloop, hid⟩ := hs.registered loop id (h.wheel loop id he)
    exact ⟨h.lt.mpr hlt, h.frees.trans hfrees, h.timer ▸ hactive, h.timer ▸ hloop, h.timer ▸ hid⟩
  · obtain ⟨hlt, hfrees, hcallback, hloop, hid, hperiodic⟩ := hs.running f ((h.running f hfn).mp hf) hfn
    subst hfn
    exact ⟨h.lt.mpr hlt, h.frees.trans hfrees, h.timer ▸ hcallback, h.timer ▸ hloop,
      h.timer ▸ hid, h.timer ▸ hperiodic⟩
  · rw [h.timer] at hc
    exact hin (hs.inCallback hc)
  · rw [h.frees] at hfrees
    rw [h.timer] at hactive
    exact hin (hs.inactive (h.lt.mp hlt) hfrees hactive)
  · rw [h.timer]
    exact hs.cancelled (hcancelled hlog)
  · rw [h.timer] at hone
    rw [h.frees]
    exact (hs.started (hstarted hlog) hone).imp_right hin
  · rw [h.timer] at hone
    rw [h.started]
    exact hs.once hone

namespace TimerInv

variable {s t : System} {n loop : ℕ}

/-- Using a handle that has not been freed leaves no mark. -/
theorem touch_eq (hn : s.frees n = 0) : s.touch n = s := by
  unfold System.touch
  rw [if_pos hn, List.append_nil]

/-- An inactive handle has no entry. -/
theorem not_registered (h : TimerInv s) (hn : (s.timer n).isActive = false) (loop id : ℕ) :
    (id, n) ∉ s.wheel loop := by
  intro he
  have hactive := ((h.handles n).registered loop id he).active
  rw [hn] at hactive
  cases hactive

/-! ## Creation -/

/-- The message is nobody's. -/
theorem setError (h : TimerInv s) (msg : String) : TimerInv (s.setError msg) := by
  refine ⟨h.misuse, h.ids, h.loops, h.order, fun n => Same.handleInv (s := s) ?_ (h.handles n)⟩
  exact ⟨rfl, rfl, Iff.rfl, fun _ _ => id, fun _ _ => Iff.rfl, rfl, rfl⟩

/-- **A new handle**, which is registered, or freed again. -/
theorem created (h : TimerInv s) {timer : LoopyTimer} (hactive : timer.isActive = true)
    (hcallback : timer.inCallback = false)
    (htimer : t.timer = update s.timer s.allocated timer)
    (hallocated : t.allocated = s.allocated + 1) (hrunning : t.running = s.running)
    (hlog : t.log = s.log) (hmisuse : t.misuse = s.misuse)
    (hother : ∀ n, n ≠ s.allocated →
      t.frees n = s.frees n ∧ ∀ loop id, (id, n) ∈ t.wheel loop → (id, n) ∈ s.wheel loop)
    (hids : ∀ loop, ((t.wheel loop).map Prod.fst).Nodup)
    (hself : t.frees s.allocated = 0 ∧ (∀ loop id, (id, s.allocated) ∈ t.wheel loop →
        timer.loop = loop ∧ timer.timerId = id) ∨
      t.frees s.allocated = 1 ∧ ∀ loop id, (id, s.allocated) ∉ t.wheel loop) : TimerInv t := by
  have hnew := h.handles s.allocated
  have hunlogged : ¬ (.started s.allocated ∈ t.log ∨ .cancelled s.allocated ∈ t.log) := by
    rw [hlog]
    exact fun hl => Nat.lt_irrefl _ (hnew.logged hl)
  have hidle : ∀ f ∈ t.running, f.timer ≠ s.allocated := by
    intro f hf heq
    rw [hrunning] at hf
    have hlt := (hnew.running f hf heq).lt
    omega
  have htself : t.timer s.allocated = timer := by
    rw [htimer]
    exact update_self ..
  refine ⟨hmisuse.trans h.misuse, hids, hrunning ▸ h.loops, hlog ▸ h.order, fun n => ?_⟩
  by_cases hn : n = s.allocated
  · subst hn
    refine ⟨?_, fun hle => ?_, fun hl => absurd hl hunlogged, fun loop id he => ?_,
      fun f hf hfn => absurd hfn (hidle f hf), fun hc => ?_, fun _ _ hinactive => ?_,
      fun hl => absurd (Or.inr hl) hunlogged, fun hl => absurd (Or.inl hl) hunlogged, fun _ => ?_⟩
    · rcases hself with ⟨hzero, -⟩ | ⟨hone, -⟩
      · omega
      · omega
    · omega
    · rcases hself with ⟨hzero, hentry⟩ | ⟨-, hnone⟩
      · obtain ⟨hloop, hid⟩ := hentry loop id he
        exact ⟨by omega, hzero, htself ▸ hactive, htself ▸ hloop, htself ▸ hid⟩
      · exact absurd he (hnone loop id)
    · rw [htself, hcallback] at hc
      cases hc
    · rw [htself, hactive] at hinactive
      cases hinactive
    · rw [List.count_eq_zero.mpr fun hl => hunlogged (Or.inl hl)]
      exact Nat.zero_le 1
  · refine Same.handleInv (s := s) ?_ (h.handles n)
    refine ⟨?_, (hother n hn).1, ?_, (hother n hn).2, fun f _ => by rw [hrunning], by rw [hlog],
      by rw [hlog]⟩
    · rw [htimer, update_of_ne hn]
    · omega

variable {timerId m id : ℕ} {f : Frame} {rest : List Frame}

theorem mem_register {loop' : ℕ} :
    (id, m) ∈ (s.loopyRegisterTimer loop timerId n).wheel loop' ↔
      loop' = loop ∧ id = timerId ∧ m = n ∨ (id, m) ∈ s.wheel loop' := by
  unfold System.loopyRegisterTimer
  dsimp only
  by_cases hl : loop' = loop
  · subst hl
    rw [update_self, List.mem_cons, Prod.mk.injEq]
    simp
  · rw [update_of_ne hl]
    simp [hl]

/-- **Creation.** -/
theorem create (h : TimerInv s) {intervalUs cb userData : ℕ}
    (hfresh : s.fresh loop timerId = true) :
    TimerInv (s.createTimer loop intervalUs cb userData timerId) := by
  obtain ⟨hfrees, -⟩ := (h.handles s.allocated).unallocated (Nat.le_refl _)
  have hentry : ∀ loop id, (id, s.allocated) ∉ s.wheel loop := by
    intro loop id he
    exact Nat.lt_irrefl _ ((h.handles s.allocated).registered loop id he).lt
  unfold System.createTimer
  split
  · exact h.setError _
  · split
    · exact h.setError _
    · dsimp only
      split
      · -- the registration fails
        have hone : update s.frees s.allocated (s.frees s.allocated + 1) s.allocated = 1 := by
          rw [update_self, hfrees]
        refine h.created rfl rfl rfl rfl rfl rfl rfl (fun n hn => ⟨?_, fun _ _ he => he⟩) h.ids
          (Or.inr ⟨hone, hentry⟩)
        exact update_of_ne hn ..
      · refine h.created rfl rfl rfl rfl rfl rfl rfl (fun n hn => ⟨rfl, fun loop' id he => ?_⟩)
          (fun loop' => ?_) (Or.inl ⟨hfrees, fun loop' id he => ?_⟩)
        · rcases mem_register.mp he with ⟨-, -, heq⟩ | he
          · exact absurd heq hn
          · exact he
        · show (List.map Prod.fst (update s.wheel loop
            ((timerId, s.allocated) :: s.wheel loop) loop')).Nodup
          by_cases hl : loop' = loop
          · subst hl
            rw [update_self, List.map_cons, List.nodup_cons]
            refine ⟨fun hmem => ?_, h.ids loop'⟩
            obtain ⟨e, he, heq⟩ := List.mem_map.mp hmem
            exact of_decide_eq_true (List.all_eq_true.mp hfresh e he) heq
          · rw [update_of_ne hl]
            exact h.ids loop'
        · rcases mem_register.mp he with ⟨hl, hid, -⟩ | he
          · exact ⟨hl.symm, hid.symm⟩
          · exact absurd he (hentry loop' id)

/-! ## Cancellation -/

/-- No entry of a handle is left when its id is unregistered. -/
theorem not_mem_unregister (h : TimerInv s) (loop id : ℕ) :
    (id, n) ∉ (s.loopyUnregisterTimer (s.timer n).loop (s.timer n).timerId).wheel loop := by
  intro he
  unfold System.loopyUnregisterTimer at he
  dsimp only at he
  by_cases hl : loop = (s.timer n).loop
  · rw [hl, update_self, List.mem_filter] at he
    have hid := ((h.handles n).registered _ id he.1).id
    exact of_decide_eq_true he.2 hid.symm
  · rw [update_of_ne hl] at he
    exact hl ((h.handles n).registered loop id he).loop.symm

theorem unregister_sublist (loop id loop' : ℕ) :
    ((s.loopyUnregisterTimer loop id).wheel loop').Sublist (s.wheel loop') := by
  unfold System.loopyUnregisterTimer
  dsimp only
  by_cases hl : loop' = loop
  · subst hl
    rw [update_self]
    exact List.filter_sublist
  · rw [update_of_ne hl]

/-- What a cancellation does: the handle is inactive and not registered, and freed unless it is in its
callback. -/
theorem cancel_spec (h : TimerInv s) (hfrees : s.frees n = 0) :
    (s.loopyTimerCancel n).timer = update s.timer n { s.timer n with isActive := false } ∧
      (s.loopyTimerCancel n).frees =
        update s.frees n (if (s.timer n).inCallback then 0 else 1) ∧
      (∀ loop, ((s.loopyTimerCancel n).wheel loop).Sublist (s.wheel loop)) ∧
      (∀ loop id, (id, n) ∉ (s.loopyTimerCancel n).wheel loop) ∧
      (s.loopyTimerCancel n).allocated = s.allocated ∧
      (s.loopyTimerCancel n).running = s.running ∧
      (s.loopyTimerCancel n).misuse = s.misuse ∧
      (s.loopyTimerCancel n).log = s.log ++ [.cancelled n] := by
  have hkept : update s.frees n 0 = s.frees := by
    rw [← hfrees]
    exact update_eq_self ..
  have hfreed : update s.frees n (s.frees n + 1) = update s.frees n 1 := by
    rw [hfrees]
  unfold System.loopyTimerCancel
  rw [touch_eq hfrees]
  dsimp only
  cases hactive : (s.timer n).isActive with
  | true =>
    rw [if_pos rfl]
    cases hcallback : (s.timer n).inCallback with
    | true =>
      rw [if_pos rfl, if_pos rfl, hkept]
      exact ⟨rfl, rfl, unregister_sublist _ _, h.not_mem_unregister, rfl, rfl, rfl, rfl⟩
    | false =>
      rw [if_neg Bool.false_ne_true, if_neg Bool.false_ne_true]
      exact ⟨rfl, hfreed, unregister_sublist _ _, h.not_mem_unregister, rfl, rfl, rfl, rfl⟩
  | false =>
    have hself : update s.timer n { s.timer n with isActive := false } = s.timer := by
      rw [← hactive]
      exact update_eq_self ..
    rw [if_neg Bool.false_ne_true]
    by_cases hcallback : (s.timer n).inCallback = true
    · rw [if_pos hcallback, if_pos hcallback, hkept]
      exact ⟨hself.symm, rfl, fun _ => List.Sublist.refl _, h.not_registered hactive, rfl, rfl, rfl,
        rfl⟩
    · rw [if_neg hcallback, if_neg hcallback]
      exact ⟨hself.symm, hfreed, fun _ => List.Sublist.refl _, h.not_registered hactive, rfl, rfl,
        rfl, rfl⟩

/-- **Cancellation.** -/
theorem cancel (h : TimerInv s) (hn : n < s.allocated) (hfrees : s.frees n = 0) :
    TimerInv (s.loopyTimerCancel n) := by
  obtain ⟨htimer, hfrees', hsub, hgone, hallocated, hrunning, hmisuse, hlog⟩ := h.cancel_spec hfrees
  generalize s.loopyTimerCancel n = t at *
  have hh := h.handles n
  have hself : t.timer n = { s.timer n with isActive := false } := by
    rw [htimer]
    exact update_self ..
  have hin : ∀ m, InCallback t m ↔ InCallback s m := by
    intro m
    unfold InCallback
    rw [hrunning]
  have hcount : ∀ m, t.log.count (.started m) = s.log.count (.started m) := by
    intro m
    rw [hlog, List.count_append]
    rfl
  have hstarted : ∀ m, .started m ∈ t.log ↔ .started m ∈ s.log := by
    intro m
    rw [← List.count_pos_iff, ← List.count_pos_iff, hcount]
  refine ⟨hmisuse.trans h.misuse, fun loop => (h.ids loop).sublist ((hsub loop).map _),
    hrunning ▸ h.loops, ?_, fun m => ?_⟩
  · rw [hlog, List.pairwise_append]
    refine ⟨h.order, List.pairwise_singleton .., fun a _ b hb m _ => ?_⟩
    rw [List.mem_singleton.mp hb]
    intro heq
    cases heq
  · by_cases hm : m = n
    · subst hm
      have hfreed : t.frees m = if (s.timer m).inCallback then 0 else 1 := by
        rw [hfrees']
        exact update_self ..
      refine ⟨?_, fun hle => ?_, fun _ => by omega, fun loop id he => absurd he (hgone loop id),
        fun f hf hfn => ?_, fun hc => ?_, fun _ hzero _ => ?_, fun _ => ?_, fun hl hone => ?_,
        fun hone => ?_⟩
      · rw [hfreed]
        split <;> omega
      · omega
      · rw [hrunning] at hf
        obtain ⟨hlt, -, hc, hloop, hid, hperiodic⟩ := hh.running f hf hfn
        subst hfn
        refine ⟨by omega, ?_, ?_, ?_, ?_, ?_⟩
        · rw [hfreed, if_pos hc]
        · rw [hself]
          exact hc
        · rw [hself]
          exact hloop
        · rw [hself]
          exact hid
        · rw [hself]
          exact hperiodic
      · rw [hself] at hc
        exact (hin m).mpr (hh.inCallback hc)
      · refine (hin m).mpr (hh.inCallback ?_)
        by_contra hc
        rw [hfreed, if_neg hc] at hzero
        cases hzero
      · rw [hself]
      · rw [hself] at hone
        rw [hstarted] at hl
        rw [hin]
        rcases hh.started hl hone with hfreed' | hcb
        · omega
        · exact Or.inr hcb
      · rw [hself] at hone
        rw [hcount]
        exact hh.once hone
    · refine Same.handleInv (s := s) ?_ (h.handles m)
      refine ⟨?_, ?_, by rw [hallocated], fun loop id he => (hsub loop).subset he,
        fun f _ => by rw [hrunning], hcount m, ?_⟩
      · rw [htimer, update_of_ne hm]
      · rw [hfrees', update_of_ne hm]
      · have hzero : [Event.cancelled n].count (.cancelled m) = 0 := by
          rw [List.count_eq_zero, List.mem_singleton]
          exact fun heq => hm (Event.cancelled.inj heq)
        rw [hlog, List.count_append, hzero, Nat.add_zero]

/-! ## Expiry -/

/-- The step from `s` to `t` in which the callback of the handle starts. -/
structure Expired (s t : System) (loop id n : ℕ) : Prop where
  timer : t.timer = update s.timer n { s.timer n with inCallback := true }
  running : t.running = ⟨loop, id, n, (s.timer n).isPeriodic⟩ :: s.running
  log : t.log = s.log ++ [.started n]
  wheel : t.wheel = s.wheel
  frees : t.frees = s.frees
  allocated : t.allocated = s.allocated
  misuse : t.misuse = s.misuse

theorem expire_spec (hfrees : s.frees n = 0) (hactive : (s.timer n).isActive = true) :
    Expired s (s.timerWheelCallbackWrapper loop id n) loop id n := by
  unfold System.timerWheelCallbackWrapper
  rw [touch_eq hfrees]
  dsimp only
  rw [if_neg (by rw [hactive]; decide)]
  exact ⟨rfl, rfl, rfl, rfl, rfl, rfl, rfl⟩

/-- A handle is in no callback when it expires: an activation for it would be of the same loop. -/
theorem not_running (h : TimerInv s) (he : (id, n) ∈ s.wheel loop)
    (hloop : ∀ f ∈ s.running, f.loop ≠ loop) : ∀ f ∈ s.running, f.timer ≠ n := by
  intro f hf hfn
  have hh := h.handles n
  have hrun := (hh.running f hf hfn).loop
  rw [hfn, (hh.registered loop id he).loop] at hrun
  exact hloop f hf hrun.symm

/-- A registered handle has not been cancelled. -/
theorem not_cancelled (h : TimerInv s) (he : (id, n) ∈ s.wheel loop) : .cancelled n ∉ s.log := by
  intro hl
  have hh := h.handles n
  have hinactive := hh.cancelled hl
  rw [(hh.registered loop id he).active] at hinactive
  cases hinactive

/-- The handle that expires. -/
theorem expired_self (h : TimerInv s) (ht : Expired s t loop id n) (he : (id, n) ∈ s.wheel loop)
    (hout : ∀ f ∈ s.running, f.timer ≠ n) : HandleInv t n := by
  have hh := h.handles n
  have hr := hh.registered loop id he
  have hself : t.timer n = { s.timer n with inCallback := true } := by
    rw [ht.timer]
    exact update_self ..
  have hin : InCallback t n := by
    refine ⟨⟨loop, id, n, (s.timer n).isPeriodic⟩, ?_, rfl⟩
    rw [ht.running]
    exact List.mem_cons_self
  refine ⟨?_, fun hle => ?_, fun _ => ?_, fun loop id he => ?_, fun f hf hfn => ?_, fun _ => hin,
    fun _ _ _ => hin, fun hl => ?_, fun _ _ => Or.inr hin, fun hone => ?_⟩
  · rw [ht.frees]
    exact hh.frees
  · rw [ht.allocated] at hle
    exact absurd hr.lt (Nat.not_lt.mpr hle)
  · rw [ht.allocated]
    exact hr.lt
  · rw [ht.wheel] at he
    obtain ⟨hlt, hzero, hactive, hl, hid⟩ := hh.registered loop id he
    exact ⟨ht.allocated ▸ hlt, ht.frees ▸ hzero, hself ▸ hactive, hself ▸ hl, hself ▸ hid⟩
  · rw [ht.running] at hf
    rcases List.mem_cons.mp hf with rfl | hf
    · exact ⟨ht.allocated ▸ hr.lt, ht.frees ▸ hr.frees, hself ▸ rfl, hself ▸ hr.loop, hself ▸ hr.id,
        hself ▸ rfl⟩
    · exact absurd hfn (hout f hf)
  · rw [ht.log, List.mem_append, List.mem_singleton] at hl
    refine absurd (hl.resolve_right fun heq => ?_) (h.not_cancelled he)
    cases heq
  · -- a oneshot that has started before is freed or in its callback
    rw [hself] at hone
    have hfresh : .started n ∉ s.log := by
      intro hl
      rcases hh.started hl hone with hfreed | ⟨f, hf, hfn⟩
      · rw [hr.frees] at hfreed
        cases hfreed
      · exact hout f hf hfn
    have hnone := List.count_eq_zero.mpr hfresh
    rw [ht.log, List.count_append, List.count_singleton_self]
    omega

/-- The other handles. -/
theorem expired_other (h : TimerInv s) (ht : Expired s t loop id n) (hm : m ≠ n) :
    HandleInv t m := by
  refine Same.handleInv (s := s) ?_ (h.handles m)
  have hcount : ∀ e, e ≠ .started n → t.log.count e = s.log.count e := by
    intro e he
    rw [ht.log, List.count_append, List.count_eq_zero.mpr (fun hmem => he (List.mem_singleton.mp hmem)),
      Nat.add_zero]
  refine ⟨?_, by rw [ht.frees], by rw [ht.allocated], fun _ _ he => ht.wheel ▸ he, fun f hfm => ?_,
    hcount _ fun heq => hm (Event.started.inj heq), hcount _ (by intro heq; cases heq)⟩
  · rw [ht.timer]
    exact update_of_ne hm ..
  · rw [ht.running, List.mem_cons]
    refine or_iff_right fun heq => hm ?_
    rw [← hfm, heq]

/-- **Expiry**: the callback of a registered handle starts. -/
theorem expire (h : TimerInv s) (he : (id, n) ∈ s.wheel loop)
    (hloop : ∀ f ∈ s.running, f.loop ≠ loop) :
    TimerInv (s.timerWheelCallbackWrapper loop id n) := by
  have hr := (h.handles n).registered loop id he
  have ht : Expired s (s.timerWheelCallbackWrapper loop id n) loop id n :=
    expire_spec hr.frees hr.active
  generalize s.timerWheelCallbackWrapper loop id n = t at ht
  refine ⟨ht.misuse.trans h.misuse, fun loop => ht.wheel ▸ h.ids loop, ?_, ?_, fun m => ?_⟩
  · rw [ht.running, List.map_cons, List.nodup_cons]
    refine ⟨fun hmem => ?_, h.loops⟩
    obtain ⟨f, hf, hfl⟩ := List.mem_map.mp hmem
    exact hloop f hf hfl
  · rw [ht.log, List.pairwise_append]
    refine ⟨h.order, List.pairwise_singleton .., fun a ha b hb m hm => ?_⟩
    rw [List.mem_singleton.mp hb]
    intro heq
    obtain rfl := Event.started.inj heq
    exact h.not_cancelled he (hm ▸ ha)
  · by_cases hm : m = n
    · subst hm
      exact h.expired_self ht he (h.not_running he hloop)
    · exact h.expired_other ht hm

/-! ## Return -/

theorem stop_sublist (loop id n loop' : ℕ) :
    ((s.stop loop id n).wheel loop').Sublist (s.wheel loop') := by
  unfold System.stop
  dsimp only
  by_cases hl : loop' = loop
  · subst hl
    rw [update_self]
    exact List.erase_sublist
  · rw [update_of_ne hl]

/-- No entry of a handle is left when the wheel drops its entry. -/
theorem not_mem_stop (h : TimerInv s) (loop id : ℕ) :
    (id, n) ∉ (s.stop (s.timer n).loop (s.timer n).timerId n).wheel loop := by
  intro he
  have hr := (h.handles n).registered loop id ((stop_sublist _ _ _ loop).subset he)
  unfold System.stop at he
  dsimp only at he
  rw [← hr.loop, ← hr.id, update_self] at he
  exact (List.Nodup.of_map _ (h.ids _)).not_mem_erase he

/-- **Return**: the handle is freed, or it is periodic and was not cancelled. -/
theorem returned_spec (h : TimerInv s) (hf : s.running = f :: rest) :
    (∀ m, m ≠ f.timer → (s.callbackReturned f).timer m = s.timer m ∧
        (s.callbackReturned f).frees m = s.frees m) ∧
      (∀ loop, ((s.callbackReturned f).wheel loop).Sublist (s.wheel loop)) ∧
      (s.callbackReturned f).allocated = s.allocated ∧ (s.callbackReturned f).running = rest ∧
      (s.callbackReturned f).misuse = s.misuse ∧ (s.callbackReturned f).log = s.log ∧
      ((s.callbackReturned f).frees f.timer = 1 ∧
          (s.callbackReturned f).timer f.timer =
            { s.timer f.timer with inCallback := false, isActive := false } ∧
          (∀ loop id, (id, f.timer) ∉ (s.callbackReturned f).wheel loop) ∨
        (s.callbackReturned f).frees f.timer = 0 ∧
          (s.callbackReturned f).timer f.timer = { s.timer f.timer with inCallback := false } ∧
          (s.timer f.timer).isActive = true ∧ (s.timer f.timer).isPeriodic = true) := by
  have hr := (h.handles f.timer).running f (hf ▸ List.mem_cons_self) rfl
  have hone : update s.frees f.timer (s.frees f.timer + 1) f.timer = 1 := by
    rw [update_self, hr.frees]
  have htail : s.running.tail = rest := by rw [hf, List.tail_cons]
  have hstop := h.not_mem_stop (n := f.timer)
  rw [hr.loop, hr.id] at hstop
  unfold System.callbackReturned
  rw [touch_eq hr.frees]
  dsimp only
  cases hactive : (s.timer f.timer).isActive with
  | false =>
    rw [if_pos rfl]
    refine ⟨fun m hm => ⟨update_of_ne hm .., update_of_ne hm ..⟩,
      stop_sublist _ _ _, rfl, htail, rfl, rfl, Or.inl ⟨hone, ?_, hstop⟩⟩
    exact update_self ..
  | true =>
    rw [if_neg (by decide)]
    cases hperiodic : f.isPeriodic with
    | true =>
      rw [if_pos rfl]
      refine ⟨fun m hm => ⟨update_of_ne hm .., rfl⟩, fun _ => List.Sublist.refl _, rfl, htail,
        rfl, rfl, Or.inr ⟨hr.frees, ?_, rfl, hr.periodic.trans hperiodic⟩⟩
      exact update_self ..
    | false =>
      rw [if_neg Bool.false_ne_true]
      refine ⟨fun m hm => ⟨?_, update_of_ne hm ..⟩, stop_sublist _ _ _, rfl, htail, rfl, rfl,
        Or.inl ⟨hone, ?_, hstop⟩⟩
      · exact (update_of_ne hm ..).trans (update_of_ne hm ..)
      · exact update_self ..

theorem returned (h : TimerInv s) (hf : s.running = f :: rest) :
    TimerInv (s.callbackReturned f) := by
  obtain ⟨hother, hsub, hallocated, hrunning, hmisuse, hlog, hself⟩ := h.returned_spec hf
  generalize s.callbackReturned f = t at *
  have hh := h.handles f.timer
  have hr := hh.running f (hf ▸ List.mem_cons_self) rfl
  have hloops := h.loops
  rw [hf, List.map_cons, List.nodup_cons] at hloops
  -- an activation for the handle would be of the same loop
  have hout : ∀ g ∈ rest, g.timer ≠ f.timer := by
    intro g hg hgf
    have hgr := hh.running g (hf ▸ List.mem_cons_of_mem f hg) hgf
    refine hloops.1 (List.mem_map.mpr ⟨g, hg, ?_⟩)
    rw [← hr.loop, ← hgr.loop, hgf]
  have hlt : f.timer < t.allocated := hallocated ▸ hr.lt
  refine ⟨hmisuse.trans h.misuse, fun loop => (h.ids loop).sublist ((hsub loop).map _),
    hrunning ▸ hloops.2, hlog ▸ h.order, fun m => ?_⟩
  by_cases hm : m = f.timer
  · subst hm
    rcases hself with ⟨hone, htimer, hgone⟩ | ⟨hzero, htimer, hactive, hperiodic⟩
    · refine ⟨Nat.le_of_eq hone, fun hle => absurd hlt (Nat.not_lt.mpr hle), fun _ => hlt,
        fun loop id he => absurd he (hgone loop id), fun g hg hgf => ?_, fun hc => ?_,
        fun _ hzero _ => ?_, fun _ => by rw [htimer], fun _ _ => Or.inl hone, fun hp => ?_⟩
      · exact absurd hgf (hout g (hrunning ▸ hg))
      · rw [htimer] at hc
        cases hc
      · omega
      · rw [htimer] at hp
        rw [hlog]
        exact hh.once hp
    · refine ⟨by omega, fun hle => absurd hlt (Nat.not_lt.mpr hle), fun _ => hlt, fun loop id he => ?_,
        fun g hg hgf => ?_, fun hc => ?_, fun _ _ hinactive => ?_, fun hl => ?_, fun _ hp => ?_,
        fun hp => ?_⟩
      · obtain ⟨-, -, -, hloop, hid⟩ := hh.registered loop id ((hsub loop).subset he)
        exact ⟨hlt, hzero, htimer ▸ hactive, htimer ▸ hloop, htimer ▸ hid⟩
      · exact absurd hgf (hout g (hrunning ▸ hg))
      · rw [htimer] at hc
        cases hc
      · rw [htimer] at hinactive
        cases hactive.symm.trans hinactive
      · rw [hlog] at hl
        cases hactive.symm.trans (hh.cancelled hl)
      · rw [htimer] at hp
        cases hperiodic.symm.trans hp
      · rw [htimer] at hp
        cases hperiodic.symm.trans hp
  · refine Same.handleInv (s := s) ?_ (h.handles m)
    refine ⟨(hother m hm).1, (hother m hm).2, by rw [hallocated],
      fun loop id he => (hsub loop).subset he, fun g hgm => ?_, by rw [hlog], by rw [hlog]⟩
    rw [hrunning, hf, List.mem_cons]
    refine (or_iff_right fun heq => hm ?_).symm
    rw [← hgm, heq]

/-- **One step.** -/
theorem step (h : TimerInv s) {a : Action} (hstep : s.step a = some t) : TimerInv t := by
  unfold System.step at hstep
  cases a with
  | create loop intervalUs cb userData timerId =>
    dsimp only at hstep
    split at hstep
    case isFalse => cases hstep
    case isTrue hc =>
      cases hstep
      exact h.create hc
  | cancel n =>
    dsimp only at hstep
    split at hstep
    case isFalse => cases hstep
    case isTrue hc =>
      cases hstep
      exact h.cancel hc.1 hc.2
  | expire loop id n =>
    dsimp only at hstep
    split at hstep
    case isFalse => cases hstep
    case isTrue hc =>
      cases hstep
      exact h.expire hc.1 hc.2
  | ret =>
    dsimp only at hstep
    split at hstep
    case h_1 => cases hstep
    case h_2 f rest hf =>
      cases hstep
      exact h.returned hf

end TimerInv

/-- **The life of a timer handle**, in every run of creations, cancellations and expiries, in which
callbacks cancel and create timers. -/
theorem freed_once {as : List Action} {s : System}
    (h : Run System.step (fun _ _ => True) .start as s) : TimerLaw s :=
  (h.invariant (P := TimerInv) (fun _ _ _ hs _ hstep => hs.step hstep) .start).law

/-- A periodic timer cancels itself twice and the one-shot timer that is due after it. -/
def cancelBoth : List Action :=
  [.create 1 10 7 70 3, .create 1 0 8 80 4, .create 1 0 9 90 5, .expire 1 3 0, .ret, .expire 1 3 0,
    .cancel 0, .cancel 0, .cancel 1, .create 1 0 8 81 3, .ret, .expire 1 5 2, .ret]

theorem freed_once_cancelBoth :
    ∃ s, Run System.step (fun _ _ => True) .start cancelBoth s ∧ TimerLaw s ∧
      (List.range 4).map s.frees = [1, 1, 1, 0] ∧ s.wheel 1 = [(3, 3)] ∧
      s.log = [.started 0, .started 0, .cancelled 0, .cancelled 0, .cancelled 1, .started 2] := by
  have hexec : (exec System.step (fun _ _ => True) .start cancelBoth).map
      (fun s => ((List.range 4).map s.frees, s.wheel 1, s.log)) =
      some ([1, 1, 1, 0], [(3, 3)],
        [.started 0, .started 0, .cancelled 0, .cancelled 0, .cancelled 1, .started 2]) := by
    decide +kernel
  obtain ⟨s, hrun, hval⟩ := Run.of_exec_map hexec
  obtain ⟨hfrees, hval⟩ := Prod.mk.inj hval
  obtain ⟨hwheel, hlog⟩ := Prod.mk.inj hval
  exact ⟨s, hrun, freed_once hrun, hfrees, hwheel, hlog⟩

end Loopy.Timer
