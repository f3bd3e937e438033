import Loopy.Lib.Tenancy
import Loopy.Signal.Basic

/-!
# One-shot registrations

After the callback of a one-shot registration `signalEventCallback` unregisters the signal if it is
registered, also if the callback has unregistered it and it has been registered anew.
`oneshots_iff` says in which runs every registration keeps its own life.
-/

namespace Loopy.Signal

open Loopy.Lib
open Function (update update_eq_self update_idem update_of_ne update_self)

variable {p : Platform} {s t : System} {signum : ℤ} {n : ℕ}

/-! ## The law -/

/-- The registration is in place. -/
def System.InPlace (s : System) (n : ℕ) : Prop :=
  ∃ signum, (s.signals signum).registered = true ∧ s.registration signum = n

/-- The callback of a one-shot registration is called at most once, and after it nothing else is
removed; a registration stays in place until a call removes it, or its own callback if it is a
one-shot one; and the kernel has been given the registered signals. -/
structure SignalLaw (s : System) : Prop where
  once : ∀ n < s.count, s.oneshot n = true → s.calls n ≤ 1
  own : ∀ r ∈ s.removed, ∀ n, r.cause = .callback n → r.registration = n
  kept : ∀ n < s.count, s.InPlace n ∨ ∃ r ∈ s.removed, r.registration = n ∧
    (r.cause = .unregister ∨ r.cause = .free ∨ s.oneshot n = true ∧ r.cause = .callback n)
  kernel : ∀ signum, s.signalFd signum = (s.signals signum).registered

/-- A registration that is not refused, and whose system calls succeed. -/
def System.Accepts (p : Platform) (s : System) (signum : ℤ) (cb : ℕ) (sys : SysCalls) : Prop :=
  ¬ (cb = 0 ∨ signum < 0 ∨ signum ≥ p.MAX_SIGNALS) ∧ (s.signals signum).registered = false ∧
    sys.sigprocmask = true ∧ sys.signalfd = true

/-- A one-shot registration whose callback runs is gone, and its signal is registered again. -/
def System.renewed (s : System) : Bool :=
  match s.pc with
  | .callback signum isOneshot n =>
    isOneshot && (s.signals signum).registered && (s.removed.map Removal.registration).contains n
  | _ => false

/-- No signal is registered that `sigaddset` does not take, and no one-shot callback returns after
it has renewed its signal. -/
def Sound (p : Platform) (s : System) : Action → Prop
  | .register signum cb _ sys | .registerOneshot signum cb _ sys =>
    s.Accepts p signum cb sys → p.valid signum = true
  | .ret => s.renewed = false
  | _ => True

instance (p : Platform) (s : System) (signum : ℤ) (cb : ℕ) (sys : SysCalls) :
    Decidable (s.Accepts p signum cb sys) :=
  inferInstanceAs (Decidable (_ ∧ _))

instance (p : Platform) (s : System) : ∀ a, Decidable (Sound p s a)
  | .register .. | .registerOneshot .. => inferInstanceAs (Decidable (_ → _))
  | .ret => inferInstanceAs (Decidable (_ = _))
  | .unregister _ | .free | .event | .read _ | .drained => isTrue trivial

/-! ## The sets -/

/-- The kernel has been given the registered signals that `sigaddset` takes. -/
structure Sets (p : Platform) (s : System) : Prop where
  given : s.signalFd = s.mask
  mask : ∀ k, s.mask k = ((s.signals k).registered && p.valid k)

variable {set : SigSet} {cb userData : ℕ} {oneshot : Bool} {cause : Cause}

variable {k : ℤ}

theorem sigaddset_of_ne (hk : k ≠ signum) : sigaddset p set signum k = set k := by
  unfold sigaddset
  split
  · exact update_of_ne hk ..
  · rfl

theorem sigdelset_of_ne (hk : k ≠ signum) : sigdelset p set signum k = set k := by
  unfold sigdelset
  split
  · exact update_of_ne hk ..
  · rfl

/-- A signal that is added and deleted. -/
theorem sigdelset_sigaddset (h : set signum = false) :
    sigdelset p (sigaddset p set signum) signum = set := by
  unfold sigdelset sigaddset
  split
  · rw [update_idem, ← h, update_eq_self]
  · rfl

/-! ## The registrations -/

theorem fillEntry_self :
    (s.fillEntry signum cb userData oneshot).signals signum = ⟨cb, userData, true, oneshot⟩ :=
  update_self ..

theorem clearEntry_self : ((s.clearEntry signum cause).signals signum).registered = false := by
  simp only [System.clearEntry, update_self]

/-- Who has the signals. -/
def System.tenancy (s : System) : Tenancy ℤ :=
  { count := s.count
    tenant := fun k => if (s.signals k).registered then some (s.registration k) else none
    departed := s.removed.map Removal.registration }

theorem tenant_of_registered (h : (s.signals signum).registered = true) :
    s.tenancy.tenant signum = some (s.registration signum) := if_pos h

theorem tenant_of_not_registered (h : (s.signals signum).registered = false) :
    s.tenancy.tenant signum = none := by
  refine if_neg ?_
  rw [h]
  exact Bool.false_ne_true

theorem inPlace_iff : s.InPlace n ↔ s.tenancy.InPlace n := by
  constructor
  · rintro ⟨k, hk, hn⟩
    rw [← hn]
    exact ⟨k, tenant_of_registered hk⟩
  · rintro ⟨k, hk⟩
    obtain ⟨hregistered, hn⟩ := Option.ite_none_right_eq_some.mp hk
    exact ⟨k, hregistered, Option.some.inj hn⟩

theorem tenancy_fillEntry :
    (s.fillEntry signum cb userData oneshot).tenancy = s.tenancy.enter signum := by
  have htenant : (s.fillEntry signum cb userData oneshot).tenancy.tenant =
      update s.tenancy.tenant signum (some s.count) := by
    funext k
    by_cases hk : k = signum
    · rw [hk, update_self, tenant_of_registered]
      · exact congrArg some (update_self ..)
      · exact congrArg LoopySignalEntry.registered fillEntry_self
    · rw [update_of_ne hk]
      simp only [System.tenancy, System.fillEntry, update_of_ne hk]
  exact congrArg (fun f => (⟨s.count + 1, f, s.removed.map Removal.registration⟩ : Tenancy ℤ)) htenant

theorem tenancy_clearEntry :
    (s.clearEntry signum cause).tenancy = s.tenancy.leave signum (s.registration signum) := by
  have htenant : (s.clearEntry signum cause).tenancy.tenant =
      update s.tenancy.tenant signum none := by
    funext k
    by_cases hk : k = signum
    · rw [hk, update_self, tenant_of_not_registered clearEntry_self]
    · rw [update_of_ne hk]
      simp only [System.tenancy, System.clearEntry, update_of_ne hk]
  have hdeparted : (s.clearEntry signum cause).tenancy.departed =
      s.tenancy.departed ++ [s.registration signum] := List.map_append
  unfold Tenancy.leave
  rw [← htenant, ← hdeparted]
  rfl

/-- What holds of the registrations. -/
structure Registry (p : Platform) (s : System) : Prop where
  tenancy : s.tenancy.Wf
  range : ∀ k, (s.signals k).registered = true → ¬ (k < 0 ∨ k ≥ p.MAX_SIGNALS)
  kind : ∀ k, (s.signals k).registered = true →
    (s.signals k).oneshot = s.oneshot (s.registration k)
  cause : ∀ r ∈ s.removed, ∀ n, r.cause = .callback n → n < s.count ∧ s.oneshot n = true
  once : ∀ n < s.count, s.oneshot n = true → s.calls n ≤ 1
  /-- A one-shot registration in place has not fired, unless its callback runs. -/
  waiting : ∀ k, (s.signals k).registered = true → s.oneshot (s.registration k) = true →
    (∀ signum isOneshot, s.pc ≠ .callback signum isOneshot (s.registration k)) →
    s.calls (s.registration k) = 0
  position : ∀ signum isOneshot n, s.pc = .callback signum isOneshot n →
    n < s.count ∧ isOneshot = s.oneshot n ∧
      ∀ k, (s.signals k).registered = true → s.registration k = n → k = signum

namespace Registry

theorem new (p : Platform) : Registry p .new := by
  refine ⟨.empty, fun k hk => ?_, fun k hk => ?_, fun r hr => ?_, fun n hn => ?_, fun k hk => ?_,
    fun signum isOneshot n hpc => ?_⟩
  · cases hk
  · cases hk
  · cases hr
  · cases hn
  · cases hk
  · cases hpc

theorem registration_lt (h : Registry p s) (hk : (s.signals signum).registered = true) :
    s.registration signum < s.count :=
  h.tenancy.lt_count (tenant_of_registered hk)

/-- A signal is registered. -/
theorem fillEntry (h : Registry p s) (hrange : ¬ (signum < 0 ∨ signum ≥ p.MAX_SIGNALS))
    (hfree : (s.signals signum).registered = false) (cb userData : ℕ) (oneshot : Bool) :
    Registry p (s.fillEntry signum cb userData oneshot) := by
  -- the new registration has the signal, and the others have what they had
  have hentry (k : ℤ) : k = signum ∧
      (s.fillEntry signum cb userData oneshot).signals k = ⟨cb, userData, true, oneshot⟩ ∧
      (s.fillEntry signum cb userData oneshot).registration k = s.count ∨
    k ≠ signum ∧ (s.fillEntry signum cb userData oneshot).signals k = s.signals k ∧
      (s.fillEntry signum cb userData oneshot).registration k = s.registration k := by
    by_cases hk : k = signum
    · rw [hk]
      exact .inl ⟨rfl, fillEntry_self, update_self ..⟩
    · exact .inr ⟨hk, update_of_ne hk .., update_of_ne hk ..⟩
  have holdKind {m : ℕ} (hm : m < s.count) :
      (s.fillEntry signum cb userData oneshot).oneshot m = s.oneshot m :=
    update_of_ne (Nat.ne_of_lt hm) ..
  have holdCalls {m : ℕ} (hm : m < s.count) :
      (s.fillEntry signum cb userData oneshot).calls m = s.calls m :=
    update_of_ne (Nat.ne_of_lt hm) ..
  have hnewKind : (s.fillEntry signum cb userData oneshot).oneshot s.count = oneshot :=
    update_self ..
  have hnewCalls : (s.fillEntry signum cb userData oneshot).calls s.count = 0 :=
    update_self ..
  refine ⟨?_, fun k hk => ?_, fun k hk => ?_, fun r hr m hm => ?_, fun m hm hone => ?_,
    fun k hk hone hpc => ?_, fun signum' isOneshot m hpc => ?_⟩
  · rw [tenancy_fillEntry]
    exact h.tenancy.enter (tenant_of_not_registered hfree)
  · obtain ⟨rfl, -, -⟩ | ⟨-, hsame, -⟩ := hentry k
    · exact hrange
    · rw [hsame] at hk
      exact h.range k hk
  · obtain ⟨rfl, hnew, hcount⟩ | ⟨-, hsame, hregistration⟩ := hentry k
    · rw [hnew, hcount, hnewKind]
    · rw [hsame] at hk
      rw [hsame, hregistration, holdKind (h.registration_lt hk)]
      exact h.kind k hk
  · obtain ⟨hlt, hone⟩ := h.cause r hr m hm
    exact ⟨Nat.lt_succ_of_lt hlt, (holdKind hlt).trans hone⟩
  · obtain hlt | rfl := Nat.lt_succ_iff_lt_or_eq.mp hm
    · rw [holdKind hlt] at hone
      rw [holdCalls hlt]
      exact h.once m hlt hone
    · rw [hnewCalls]
      exact Nat.zero_le 1
  · obtain ⟨rfl, -, hcount⟩ | ⟨-, hsame, hregistration⟩ := hentry k
    · rw [hcount, hnewCalls]
    · rw [hsame] at hk
      rw [hregistration] at hone hpc ⊢
      have hlt := h.registration_lt hk
      rw [holdKind hlt] at hone
      rw [holdCalls hlt]
      exact h.waiting k hk hone hpc
  · obtain ⟨hlt, hkind, hplace⟩ := h.position signum' isOneshot m hpc
    refine ⟨Nat.lt_succ_of_lt hlt, hkind.trans (holdKind hlt).symm, fun k hk hm => ?_⟩
    obtain ⟨rfl, -, hcount⟩ | ⟨-, hsame, hregistration⟩ := hentry k
    · rw [hcount] at hm
      exact absurd hm.symm (Nat.ne_of_lt hlt)
    · rw [hsame] at hk
      exact hplace k hk (hregistration.symm.trans hm)

theorem registered_clearEntry {k : ℤ} :
    ((s.clearEntry signum cause).signals k).registered = true ↔
      (s.signals k).registered = true ∧ k ≠ signum := by
  by_cases hk : k = signum
  · rw [hk, clearEntry_self]
    exact iff_of_false Bool.false_ne_true fun hand => hand.2 rfl
  · have hsame : (s.clearEntry signum cause).signals k = s.signals k :=
      update_of_ne hk ..
    rw [hsame]
    exact (and_iff_left hk).symm

/-- A signal is unregistered. -/
theorem clearEntry (h : Registry p s) (hregistered : (s.signals signum).registered = true)
    (hcause : ∀ n, cause = .callback n → n < s.count ∧ s.oneshot n = true) :
    Registry p (s.clearEntry signum cause) := by
  have hsame {k : ℤ} (hk : k ≠ signum) : (s.clearEntry signum cause).signals k = s.signals k :=
    update_of_ne hk ..
  refine ⟨?_, fun k hk => ?_, fun k hk => ?_, fun r hr m hm => ?_, h.once,
    fun k hk hone hpc => ?_, fun signum' isOneshot m hpc => ?_⟩
  · rw [tenancy_clearEntry]
    exact h.tenancy.leave (tenant_of_registered hregistered)
  · exact h.range k (registered_clearEntry.mp hk).1
  · obtain ⟨hold, hne⟩ := registered_clearEntry.mp hk
    rw [hsame hne]
    exact h.kind k hold
  · obtain hr | hr := List.mem_append.mp hr
    · exact h.cause r hr m hm
    · rw [List.mem_singleton.mp hr] at hm
      exact hcause m hm
  · exact h.waiting k (registered_clearEntry.mp hk).1 hone hpc
  · obtain ⟨hlt, hkind, hplace⟩ := h.position signum' isOneshot m hpc
    exact ⟨hlt, hkind, fun k hk hm => hplace k (registered_clearEntry.mp hk).1 hm⟩

/-- The sets do not matter. -/
theorem sets (h : Registry p s) (mask blocked signalFd : SigSet) :
    Registry p
      { s with
        mask := mask
        blocked := blocked
        signalFd := signalFd } :=
  ⟨h.tenancy, h.range, h.kind, h.cause, h.once, h.waiting, h.position⟩

/-- `signalEventCallback` goes on, and is in no callback. -/
theorem setPc (h : Registry p s) {pc : Pc}
    (hpc : ∀ signum isOneshot n, pc ≠ .callback signum isOneshot n)
    (hgone : ∀ k, (s.signals k).registered = true → s.oneshot (s.registration k) = true →
      ∀ signum isOneshot, s.pc ≠ .callback signum isOneshot (s.registration k)) :
    Registry p { s with pc := pc } := by
  refine ⟨h.tenancy, h.range, h.kind, h.cause, h.once, fun k hk hone _ => ?_,
    fun signum isOneshot n hcallback => absurd hcallback (hpc signum isOneshot n)⟩
  exact h.waiting k hk hone (hgone k hk hone)

/-- A signal is read. -/
theorem dispatch (h : Registry p s) (hpc : s.pc = .reading) (signum : ℤ) :
    Registry p (s.dispatch p signum) := by
  have hnone (signum : ℤ) (isOneshot : Bool) (n : ℕ) : s.pc ≠ .callback signum isOneshot n := by
    rw [hpc]
    exact Pc.noConfusion
  unfold System.dispatch
  split
  next hread =>
    have hregistered := hread.2.2
    refine ⟨h.tenancy, h.range, h.kind, h.cause, fun m hm hone => ?_, fun k hk hone hother => ?_,
      fun signum' isOneshot m hcallback => ?_⟩
    · show update s.calls (s.registration signum) _ m ≤ 1
      by_cases hfired : m = s.registration signum
      · rw [hfired] at hone ⊢
        have hzero := h.waiting signum hregistered hone fun _ _ => hnone _ _ _
        exact Nat.le_of_eq (by rw [update_self, hzero])
      · rw [update_of_ne hfired]
        exact h.once m hm hone
    · -- the registration that fires is the only one whose count changes
      have hne : s.registration k ≠ s.registration signum := fun heq =>
        hother signum (s.signals signum).oneshot (by rw [heq])
      show update s.calls (s.registration signum) _ (s.registration k) = 0
      rw [update_of_ne hne]
      exact h.waiting k hk hone fun _ _ => hnone _ _ _
    · obtain ⟨rfl, rfl, rfl⟩ := Pc.callback.inj hcallback
      refine ⟨h.registration_lt hregistered, h.kind signum hregistered, fun k hk heq => ?_⟩
      have htenant := tenant_of_registered hk
      rw [heq] at htenant
      exact h.tenancy.slot_unique htenant (tenant_of_registered hregistered)
  next => exact h

end Registry

/-! ## The operations -/

/-- What is left after a registration that succeeds. -/
def System.filled (p : Platform) (s : System) (signum : ℤ) (cb userData : ℕ) (oneshot : Bool) :
    System :=
  let t : System :=
    { s with
      mask := sigaddset p s.mask signum
      blocked := block s.blocked (sigaddset p sigemptyset signum)
      signalFd := sigaddset p s.mask signum }
  t.fillEntry signum cb userData oneshot

/-- What is left after a signal is unregistered. -/
def System.cleared (p : Platform) (s : System) (signum : ℤ) (cause : Cause) : System :=
  let t : System :=
    { s with
      mask := sigdelset p s.mask signum
      blocked := unblock s.blocked (sigaddset p sigemptyset signum)
      signalFd := sigdelset p s.mask signum }
  t.clearEntry signum cause

/-- The invariant. -/
structure SignalInv (p : Platform) (s : System) : Prop where
  registry : Registry p s
  sets : Sets p s

/-- A call that registers either fills in the entry, or has at most unblocked the signal. -/
theorem register_cases (h : Sets p s) (signum : ℤ) (cb userData : ℕ) (oneshot : Bool)
    (sys : SysCalls) :
    s.Accepts p signum cb sys ∧ (s.signalRegisterInternal p signum cb userData oneshot sys).2 =
        s.filled p signum cb userData oneshot ∨
      ¬ s.Accepts p signum cb sys ∧ ∃ blocked,
        (s.signalRegisterInternal p signum cb userData oneshot sys).2 =
          { s with blocked := blocked } := by
  unfold System.signalRegisterInternal
  split
  next hrefused => exact .inr ⟨fun haccepts => haccepts.1 hrefused, s.blocked, rfl⟩
  next hrange =>
    split
    next hregistered =>
      refine .inr ⟨fun haccepts => ?_, s.blocked, rfl⟩
      rw [haccepts.2.1] at hregistered
      cases hregistered
    next hfree =>
      have hfree : (s.signals signum).registered = false := eq_false_of_ne_true hfree
      have hmask : s.mask signum = false := by
        rw [h.mask, hfree, Bool.false_and]
      dsimp only
      split
      next hprocmask =>
        refine .inr ⟨fun haccepts => ?_, s.blocked, ?_⟩
        · rw [haccepts.2.2.1] at hprocmask
          cases hprocmask
        · rw [sigdelset_sigaddset hmask]
      next hprocmask =>
        split
        next hfd =>
          have hrejects : ¬ s.Accepts p signum cb sys := by
            intro haccepts
            rw [haccepts.2.2.2] at hfd
            cases hfd
          rw [sigdelset_sigaddset hmask]
          exact .inr ⟨hrejects, _, rfl⟩
        next hfd =>
          exact .inl ⟨⟨hrange, hfree, eq_true_of_ne_false hprocmask, eq_true_of_ne_false hfd⟩, rfl⟩

/-- A signal that is not registered is left alone. -/
theorem unregister_cases (h : Registry p s) (signum : ℤ) (cause : Cause) :
    (s.signals signum).registered = true ∧
        (s.loopySignalUnregister p signum cause).2 = s.cleared p signum cause ∨
      (s.signals signum).registered = false ∧ (s.loopySignalUnregister p signum cause).2 = s := by
  unfold System.loopySignalUnregister
  split
  next hrange =>
    refine .inr ⟨eq_false_of_ne_true fun hregistered => ?_, rfl⟩
    exact h.range signum hregistered hrange
  next =>
    split
    next hfree => exact .inr ⟨hfree, rfl⟩
    next hregistered => exact .inl ⟨eq_true_of_ne_false hregistered, rfl⟩

namespace SignalInv

theorem new (p : Platform) : SignalInv p .new :=
  ⟨.new p, rfl, fun _ => rfl⟩

section

variable (h : SignalInv p s)

include h

/-- A new registration, also one of a signal that `sigaddset` does not take. -/
theorem filled (hrange : ¬ (signum < 0 ∨ signum ≥ p.MAX_SIGNALS))
    (hfree : (s.signals signum).registered = false) (cb userData : ℕ) (oneshot : Bool) :
    SignalInv p (s.filled p signum cb userData oneshot) := by
  have hsets := h.registry.sets (sigaddset p s.mask signum)
    (block s.blocked (sigaddset p sigemptyset signum)) (sigaddset p s.mask signum)
  refine ⟨hsets.fillEntry hrange hfree cb userData oneshot, rfl, fun k => ?_⟩
  show sigaddset p s.mask signum k =
    ((update s.signals signum ⟨cb, userData, true, oneshot⟩ k).registered && p.valid k)
  by_cases hk : k = signum
  · rw [hk, update_self, Bool.true_and]
    unfold sigaddset
    split
    next hvalid => rw [update_self, hvalid]
    next hinvalid => rw [h.sets.mask, hfree, Bool.false_and, eq_false_of_ne_true hinvalid]
  · rw [sigaddset_of_ne hk, update_of_ne hk]
    exact h.sets.mask k

theorem cleared (hregistered : (s.signals signum).registered = true)
    (hcause : ∀ n, cause = .callback n → n < s.count ∧ s.oneshot n = true) :
    SignalInv p (s.cleared p signum cause) := by
  have hsets := h.registry.sets (sigdelset p s.mask signum)
    (unblock s.blocked (sigaddset p sigemptyset signum)) (sigdelset p s.mask signum)
  refine ⟨hsets.clearEntry hregistered hcause, rfl, fun k => ?_⟩
  by_cases hk : k = signum
  · have hentry : ((s.cleared p signum cause).signals signum).registered = false := clearEntry_self
    rw [hk, hentry, Bool.false_and]
    show sigdelset p s.mask signum signum = false
    unfold sigdelset
    split
    next => rw [update_self]
    next hinvalid => rw [h.sets.mask, eq_false_of_ne_true hinvalid, Bool.and_false]
  · have hentry : (s.cleared p signum cause).signals k = s.signals k := update_of_ne hk ..
    have hmask : (s.cleared p signum cause).mask k = s.mask k := sigdelset_of_ne hk
    rw [hentry, hmask]
    exact h.sets.mask k

/-- The invariant does not depend on what is blocked. -/
theorem setBlocked (blocked : SigSet) : SignalInv p { s with blocked := blocked } :=
  ⟨h.registry.sets s.mask blocked s.signalFd, h.sets.given, h.sets.mask⟩

/-- A signal is read. -/
theorem dispatch (hpc : s.pc = .reading) (signum : ℤ) : SignalInv p (s.dispatch p signum) := by
  refine ⟨h.registry.dispatch hpc signum, ?_⟩
  unfold System.dispatch
  split
  next => exact ⟨h.sets.given, h.sets.mask⟩
  next => exact h.sets

theorem register (signum : ℤ) (cb userData : ℕ) (oneshot : Bool)
    (sys : SysCalls) :
    SignalInv p (s.signalRegisterInternal p signum cb userData oneshot sys).2 := by
  obtain ⟨haccepts, hresult⟩ | ⟨-, blocked, hresult⟩ :=
    register_cases h.sets signum cb userData oneshot sys
  · rw [hresult]
    exact h.filled (fun hrange => haccepts.1 (.inr hrange)) haccepts.2.1 cb userData oneshot
  · rw [hresult]
    exact h.setBlocked blocked

theorem unregister (signum : ℤ)
    (hcause : ∀ n, cause = .callback n → n < s.count ∧ s.oneshot n = true) :
    SignalInv p (s.loopySignalUnregister p signum cause).2 := by
  obtain ⟨hregistered, hresult⟩ | ⟨-, hresult⟩ := unregister_cases h.registry signum cause
  · rw [hresult]
    exact h.cleared hregistered hcause
  · rw [hresult]
    exact h

theorem setPc {pc : Pc}
    (hpc : ∀ signum isOneshot n, pc ≠ .callback signum isOneshot n)
    (hgone : ∀ k, (s.signals k).registered = true → s.oneshot (s.registration k) = true →
      ∀ signum isOneshot, s.pc ≠ .callback signum isOneshot (s.registration k)) :
    SignalInv p { s with pc := pc } :=
  ⟨h.registry.setPc hpc hgone, h.sets.given, h.sets.mask⟩

/-- What a one-shot callback leaves in place has not fired. -/
theorem autoUnregister {isOneshot : Bool}
    (hpc : s.pc = .callback signum isOneshot n) :
    SignalInv p (s.autoUnregister p signum isOneshot n) := by
  obtain ⟨hlt, hkind, hplace⟩ := h.registry.position signum isOneshot n hpc
  have hreading (signum : ℤ) (isOneshot : Bool) (n : ℕ) :
      Pc.reading ≠ .callback signum isOneshot n := Pc.noConfusion
  -- a registration whose callback runs is the one that has fired, so it is a one-shot one in place
  have hfired {k : ℤ} (hk : (s.signals k).registered = true)
      (hone : s.oneshot (s.registration k) = true) {signum' : ℤ} {b : Bool}
      (hcallback : s.pc = .callback signum' b (s.registration k)) :
      isOneshot = true ∧ k = signum := by
    rw [hpc] at hcallback
    obtain ⟨-, -, hn⟩ := Pc.callback.inj hcallback
    rw [← hn] at hone
    exact ⟨hkind.trans hone, hplace k hk hn.symm⟩
  unfold System.autoUnregister
  split
  next hauto =>
    have hcause (m : ℕ) (hm : Cause.callback n = .callback m) :
        m < s.count ∧ s.oneshot m = true := by
      rw [← Cause.callback.inj hm]
      exact ⟨hlt, hkind.symm.trans hauto.1⟩
    obtain ⟨hregistered, hresult⟩ | ⟨hfree, -⟩ :=
      unregister_cases h.registry signum (.callback n)
    · rw [hresult]
      refine (h.cleared hregistered hcause).setPc hreading fun k hk hone signum' b hcallback => ?_
      obtain ⟨hold, hne⟩ := Registry.registered_clearEntry.mp hk
      exact hne (hfired hold hone hcallback).2
    · rw [hfree] at hauto
      cases hauto.2
  next hauto =>
    refine h.setPc hreading fun k hk hone signum' b hcallback => ?_
    obtain ⟨hisOneshot, rfl⟩ := hfired hk hone hcallback
    exact hauto ⟨hisOneshot, hk⟩

end

end SignalInv

/-! ## When the law holds -/

/-- The part of the law that a step can break. -/
structure Clean (p : Platform) (s : System) : Prop where
  own : ∀ r ∈ s.removed, ∀ n, r.cause = .callback n → r.registration = n
  valid : ∀ k, (s.signals k).registered = true → p.valid k = true

theorem SignalInv.law_iff (h : SignalInv p s) : SignalLaw s ↔ Clean p s := by
  have hgiven (k : ℤ) : s.signalFd k = ((s.signals k).registered && p.valid k) := by
    rw [h.sets.given, h.sets.mask]
  constructor
  · intro hlaw
    refine ⟨hlaw.own, fun k hk => ?_⟩
    have hkernel := hlaw.kernel k
    rwa [hgiven, hk, Bool.true_and] at hkernel
  · intro hclean
    refine ⟨h.registry.once, hclean.own, fun n hn => ?_, fun k => ?_⟩
    · obtain hplace | hdeparted := h.registry.tenancy.inPlace_or_departed hn
      · exact .inl (inPlace_iff.mpr hplace)
      · obtain ⟨r, hr, rfl⟩ := List.mem_map.mp hdeparted
        -- only its own callback can have removed it automatically
        refine .inr ⟨r, hr, rfl, ?_⟩
        generalize hcause : r.cause = cause
        cases cause with
        | unregister => exact .inl rfl
        | free => exact .inr (.inl rfl)
        | callback m =>
          have hown := hclean.own r hr m hcause
          rw [hown]
          exact .inr (.inr ⟨(h.registry.cause r hr m hcause).2, rfl⟩)
    · rw [hgiven]
      by_cases hk : (s.signals k).registered = true
      · rw [hk, hclean.valid k hk, Bool.and_self]
      · rw [eq_false_of_ne_true hk, Bool.false_and]

/-- A registration is clean exactly if `sigaddset` takes the signal. -/
theorem Clean.filled_iff (h : Clean p s) :
    Clean p (s.filled p signum cb userData oneshot) ↔ p.valid signum = true := by
  constructor
  · intro hclean
    exact hclean.valid signum (congrArg LoopySignalEntry.registered fillEntry_self)
  · intro hvalid
    refine ⟨h.own, fun k hk => ?_⟩
    by_cases hsignum : k = signum
    · rw [hsignum]
      exact hvalid
    · have hentry : (s.filled p signum cb userData oneshot).signals k = s.signals k :=
        update_of_ne hsignum ..
      rw [hentry] at hk
      exact h.valid k hk

/-- Unregistering a signal is clean unless the callback of another registration has done it. -/
theorem Clean.cleared_iff (h : Clean p s) :
    Clean p (s.cleared p signum cause) ↔ ∀ n, cause = .callback n → s.registration signum = n := by
  constructor
  · intro hclean
    exact hclean.own ⟨s.registration signum, cause⟩ (List.mem_append_right _ List.mem_cons_self)
  · intro hcause
    refine ⟨fun r hr n hn => ?_, fun k hk => h.valid k (Registry.registered_clearEntry.mp hk).1⟩
    obtain hr | hr := List.mem_append.mp hr
    · exact h.own r hr n hn
    · rw [List.mem_singleton.mp hr] at hn ⊢
      exact hcause n hn

/-- A call of the user that unregisters a signal. -/
theorem Clean.unregister (h : Clean p s) (hinv : SignalInv p s) (signum : ℤ)
    (hcause : ∀ n, cause ≠ .callback n) : Clean p (s.loopySignalUnregister p signum cause).2 := by
  obtain ⟨-, hresult⟩ | ⟨-, hresult⟩ := unregister_cases hinv.registry signum cause
  · rw [hresult]
    exact h.cleared_iff.mpr fun n hn => absurd hn (hcause n)
  · rw [hresult]
    exact h

/-- A call that registers. -/
theorem Clean.register_iff (h : Clean p s) (hinv : SignalInv p s) (signum : ℤ) (cb userData : ℕ)
    (oneshot : Bool) (sys : SysCalls) :
    Clean p (s.signalRegisterInternal p signum cb userData oneshot sys).2 ↔
      (s.Accepts p signum cb sys → p.valid signum = true) := by
  obtain ⟨haccepts, hresult⟩ | ⟨hrejects, blocked, hresult⟩ :=
    register_cases hinv.sets signum cb userData oneshot sys
  · rw [hresult, h.filled_iff]
    exact ⟨fun hvalid _ => hvalid, fun hvalid => hvalid haccepts⟩
  · rw [hresult]
    exact iff_of_true ⟨h.own, h.valid⟩ fun haccepts => absurd haccepts hrejects

/-- Reading a signal registers and removes nothing. -/
theorem Clean.dispatch (h : Clean p s) (signum : ℤ) : Clean p (s.dispatch p signum) := by
  unfold System.dispatch
  split
  next => exact ⟨h.own, h.valid⟩
  next => exact h

/-- The end of a callback is clean unless it has renewed its signal as a one-shot one. -/
theorem Clean.autoUnregister_iff (h : Clean p s) (hinv : SignalInv p s) {isOneshot : Bool}
    (hpc : s.pc = .callback signum isOneshot n) :
    Clean p (s.autoUnregister p signum isOneshot n) ↔ s.renewed = false := by
  obtain ⟨hlt, -, hplace⟩ := hinv.registry.position signum isOneshot n hpc
  have hrenewed : s.renewed = (isOneshot && (s.signals signum).registered &&
      (s.removed.map Removal.registration).contains n) := by
    rw [System.renewed, hpc]
  rw [hrenewed]
  unfold System.autoUnregister
  split
  next hauto =>
    obtain ⟨hregistered, hresult⟩ | ⟨hfree, -⟩ :=
      unregister_cases hinv.registry signum (.callback n)
    · rw [hresult, hauto.1, hregistered, Bool.true_and, Bool.true_and]
      have hcleared : Clean p { s.cleared p signum (.callback n) with pc := .reading } ↔
          Clean p (s.cleared p signum (.callback n)) :=
        ⟨fun hclean => ⟨hclean.own, hclean.valid⟩, fun hclean => ⟨hclean.own, hclean.valid⟩⟩
      have hdeparted : (s.removed.map Removal.registration).contains n = false ↔
          n ∉ s.tenancy.departed := by
        rw [← Bool.not_eq_true, List.contains_iff_mem]
        rfl
      rw [hcleared, h.cleared_iff, hdeparted]
      constructor
      · intro hown
        rw [← hown n rfl]
        exact hinv.registry.tenancy.not_departed (tenant_of_registered hregistered)
      · intro hpresent m hm
        -- a registration that has not departed is still in place, so it has its signal
        obtain ⟨k, hk, hn⟩ := inPlace_iff.mpr
          ((hinv.registry.tenancy.inPlace_or_departed hlt).resolve_right hpresent)
        rw [← hplace k hk hn, ← Cause.callback.inj hm]
        exact hn
    · rw [hfree] at hauto
      cases hauto.2
  next hauto =>
    have hand : (isOneshot && (s.signals signum).registered) = false :=
      eq_false_of_ne_true fun hand => hauto ((Bool.and_eq_true ..).mp hand)
    rw [hand, Bool.false_and]
    exact iff_of_true ⟨h.own, h.valid⟩ rfl

/-- All signals of a list are unregistered. -/
theorem SignalInv.freeSignals (is : List ℕ) (h : SignalInv p s) :
    SignalInv p (is.foldl (System.freeSignal p) s) ∧
      (is.foldl (System.freeSignal p) s).pc = s.pc ∧
      (Clean p s → Clean p (is.foldl (System.freeSignal p) s)) := by
  have hfree (n : ℕ) : Cause.free ≠ .callback n := Cause.noConfusion
  induction is generalizing s with
  | nil => exact ⟨h, rfl, id⟩
  | cons i is ih =>
    have hstep : SignalInv p (s.freeSignal p i) ∧ (s.freeSignal p i).pc = s.pc ∧
        (Clean p s → Clean p (s.freeSignal p i)) := by
      unfold System.freeSignal
      split
      next =>
        refine ⟨h.unregister i fun n hn => absurd hn (hfree n), ?_, fun hclean =>
          hclean.unregister h i hfree⟩
        obtain ⟨-, hresult⟩ | ⟨-, hresult⟩ := unregister_cases h.registry i .free
        · rw [hresult]
          rfl
        · rw [hresult]
      next => exact ⟨h, rfl, id⟩
    obtain ⟨hinv, hpc, hclean⟩ := hstep
    obtain ⟨hinvs, hpcs, hcleans⟩ := ih hinv
    exact ⟨hinvs, hpcs.trans hpc, fun hs => hcleans (hclean hs)⟩

/-- **One step** keeps the invariant, and it stays clean exactly if it is sound. -/
theorem SignalInv.step (h : SignalInv p s) {a : Action} (hstep : s.step p a = some t) :
    SignalInv p t ∧ (Clean p s → (Clean p t ↔ Sound p s a)) := by
  have hsame (pc : Pc) (hclean : Clean p s) : Clean p { s with pc := pc } :=
    ⟨hclean.own, hclean.valid⟩
  unfold System.step at hstep
  cases a with
  | register signum cb userData sys =>
    obtain ⟨-, rfl⟩ := of_guard hstep
    exact ⟨h.register signum cb userData false sys, fun hclean =>
      hclean.register_iff h signum cb userData false sys⟩
  | registerOneshot signum cb userData sys =>
    obtain ⟨-, rfl⟩ := of_guard hstep
    exact ⟨h.register signum cb userData true sys, fun hclean =>
      hclean.register_iff h signum cb userData true sys⟩
  | unregister signum =>
    obtain ⟨-, rfl⟩ := of_guard hstep
    have hcause (n : ℕ) : Cause.unregister ≠ .callback n := Cause.noConfusion
    exact ⟨h.unregister signum fun n hn => absurd hn (hcause n), fun hclean =>
      iff_of_true (hclean.unregister h signum hcause) trivial⟩
  | free =>
    obtain ⟨hpc, rfl⟩ := of_guard hstep
    obtain ⟨hinv, hpcs, hcleans⟩ := h.freeSignals (List.range p.MAX_SIGNALS.toNat)
    refine ⟨hinv.setPc (fun _ _ _ => Pc.noConfusion) fun k _ _ signum isOneshot => ?_,
      fun hclean => iff_of_true ⟨(hcleans hclean).own, (hcleans hclean).valid⟩ trivial⟩
    rw [hpcs, hpc]
    exact Pc.noConfusion
  | event | drained =>
    obtain ⟨hpc, rfl⟩ := of_guard hstep
    refine ⟨h.setPc (fun _ _ _ => Pc.noConfusion) fun k _ _ signum isOneshot => ?_,
      fun hclean => iff_of_true (hsame _ hclean) trivial⟩
    rw [hpc]
    exact Pc.noConfusion
  | read signum =>
    obtain ⟨hpc, rfl⟩ := of_guard hstep
    exact ⟨h.dispatch hpc signum, fun hclean => iff_of_true (hclean.dispatch signum) trivial⟩
  | ret =>
    dsimp only at hstep
    split at hstep
    next signum isOneshot n hpc =>
      rw [← Option.some.inj hstep]
      exact ⟨h.autoUnregister hpc, fun hclean => hclean.autoUnregister_iff h hpc⟩
    next => cases hstep

/-- **One-shot registrations are independent** in every state of a run exactly if the run registers
no signal that `sigaddset` does not take, and no callback of a one-shot registration that has been
unregistered returns while its signal is registered again. -/
theorem oneshots_iff {as : List Action}
    (hrun : Run (System.step p) (fun _ _ => True) .new as s) :
    (∀ bs t, bs <+: as → Run (System.step p) (fun _ _ => True) .new bs t → SignalLaw t) ↔
      Run (System.step p) (Sound p) .new as s := by
  have hnew : SignalInv p .new := .new p
  have hclean : Clean p .new := by
    refine ⟨fun r hr => ?_, fun k hk => ?_⟩
    · cases hr
    · cases hk
  refine hrun.always_iff (P := SignalInv p) (fun _ _ _ h hstep => (h.step hstep).1)
    (fun s a t h hlaw hstep => ?_) hnew (hnew.law_iff.mpr hclean)
  obtain ⟨hinv, hiff⟩ := h.step hstep
  rw [hinv.law_iff]
  exact hiff (h.law_iff.mp hlaw)

/-- The signals of Linux, of which the C library keeps two. -/
def linux : Platform where
  MAX_SIGNALS := 65
  valid := fun signum => decide (1 ≤ signum ∧ signum ≤ 64 ∧ signum ≠ 32 ∧ signum ≠ 33)

/-- A one-shot callback unregisters its signal and registers another one; the callback of that one
makes itself a one-shot. -/
def soundRun : List Action :=
  [.registerOneshot 10 1 0 ⟨true, true⟩, .event, .read 10, .unregister 10,
    .register 12 2 0 ⟨true, true⟩, .ret, .read 12, .unregister 12,
    .registerOneshot 12 3 0 ⟨true, true⟩, .ret, .read 12, .ret, .read 12, .drained]

theorem oneshots_soundRun :
    ∃ s, Run (System.step linux) (fun _ _ => True) .new soundRun s ∧ SignalLaw s ∧
      s.removed = [⟨0, .unregister⟩, ⟨1, .unregister⟩, ⟨2, .callback 2⟩] ∧ s.calls 2 = 1 := by
  have hexec : (exec (System.step linux) (Sound linux) .new soundRun).map
      (fun s => (s.removed, s.calls 2)) =
      some ([⟨0, .unregister⟩, ⟨1, .unregister⟩, ⟨2, .callback 2⟩], 1) := by decide +kernel
  obtain ⟨s, hsound, hval⟩ := Run.of_exec_map hexec
  have hrun : Run (System.step linux) (fun _ _ => True) .new soundRun s :=
    hsound.mono fun _ _ _ => trivial
  obtain ⟨hremoved, hcalls⟩ := Prod.mk.inj hval
  exact ⟨s, hrun, (oneshots_iff hrun).mpr hsound soundRun s (List.prefix_refl _) hrun, hremoved,
    hcalls⟩

/-- The callback of a one-shot registration unregisters its signal and registers it again. -/
theorem oneshots_renewed :
    ¬ ∀ as s, Run (System.step linux) (fun _ _ => True) .new as s → SignalLaw s := by
  intro hall
  have hexec : (exec (System.step linux) (fun _ _ => True) .new
      [.registerOneshot 10 1 0 ⟨true, true⟩, .event, .read 10, .unregister 10,
        .register 10 2 0 ⟨true, true⟩, .ret]).map System.removed =
      some [⟨0, .unregister⟩, ⟨1, .callback 0⟩] := by
    decide +kernel
  obtain ⟨s, hrun, hremoved⟩ := Run.of_exec_map hexec
  have hmem : (⟨1, .callback 0⟩ : Removal) ∈ s.removed := by
    rw [hremoved]
    exact List.mem_cons_of_mem _ List.mem_cons_self
  have hown := (hall _ s hrun).own _ hmem 0 rfl
  cases hown

end Loopy.Signal
