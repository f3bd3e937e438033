import Loopy.EventLoop.Basic
import Loopy.MaxHeap.Theorems
import Mathlib.Tactic.Linarith
import Mathlib.Tactic.Ring

/-!
# What the table operations do

For any adapter: `TableEffect` lists everything a table call can do, `perform_inv` says that
a call that returned did one of these, and `perform_total` that a call on a live loop and a
descriptor below `2^30` returns. `TableInv` is the agreement of mask table, heap and
`maxfd`, which every effect keeps (`TableInv.effect`).
-/

namespace Loopy.EventLoop

open Loopy.MaxHeap
open Function (update update_of_ne update_self)

/-! ## Directions -/

namespace LoopyAction

variable {a : LoopyAction}

/-- Two masks are equal when they agree on both directions. -/
theorem ext_iff' {b : LoopyAction} : a = b ↔ a.read = b.read ∧ a.write = b.write := by
  cases a; cases b; simp

/-- The empty mask has neither direction. -/
theorem eq_none_iff : a = NONE ↔ a.read = false ∧ a.write = false := ext_iff'

@[simp] theorem union_read (a b : LoopyAction) : (a.union b).read = (a.read || b.read) := rfl

@[simp] theorem union_write (a b : LoopyAction) : (a.union b).write = (a.write || b.write) := rfl

@[simp] theorem diff_read (a b : LoopyAction) : (a.diff b).read = (a.read && !b.read) := rfl

@[simp] theorem diff_write (a b : LoopyAction) : (a.diff b).write = (a.write && !b.write) := rfl

/-- A union with a mask that is not empty is not empty. -/
theorem union_ne_none {b : LoopyAction} (hb : b ≠ NONE) : a.union b ≠ NONE := by
  rw [Ne, eq_none_iff] at hb ⊢
  simp only [union_read, union_write, Bool.or_eq_false_iff]
  tauto

end LoopyAction

section

variable {σ ε : Type} (A : Adapter σ ε)

/-! ## Growing the tables -/

/-- The loop with its tables grown to `n` entries. -/
def LoopyLoop.growTo (l : LoopyLoop σ) (n addr : ℕ) : LoopyLoop σ :=
  { l with
    events := fun i => if l.setSize ≤ i ∧ i < n then .zero else l.events i
    eventsPtr := some addr
    fired := fun i => if l.setSize ≤ i ∧ i < n then .zero else l.fired i
    setSize := n
    state := l.state.map fun s => A.resize s n }

/-- The loop itself, or its tables grown at a new address. -/
def Grown (addr : ℕ) (l l' : LoopyLoop σ) : Prop :=
  l' = l ∨ ∃ n, l.setSize < n ∧ n < 2 ^ 31 ∧ l' = l.growTo A n addr

variable {A}

variable {addr n i : ℕ} {l l' : LoopyLoop σ} {s : σ} {b : Bool} {fd : ℤ} {c : TableCall}
  {env : Env ε}

/-- Growing leaves the loop its backend. -/
theorem Grown.state (h : Grown A addr l l') (hs : l.state = some s) : ∃ s', l'.state = some s' := by
  rcases h with rfl | ⟨n, _, _, rfl⟩
  · exact ⟨s, hs⟩
  · exact ⟨A.resize s n, by simp [LoopyLoop.growTo, hs]⟩

/-- The table does not shrink. -/
theorem Grown.setSize_le (h : Grown A addr l l') : l.setSize ≤ l'.setSize := by
  rcases h with rfl | ⟨n, hn, _, rfl⟩
  · exact le_rfl
  · exact hn.le

/-- A larger size is taken over. -/
theorem fdStorageResize_grow (l : LoopyLoop σ) (hn : l.setSize < n) (addr : ℕ)
    (hmax : l.maxfd < n) : fdStorageResize A l n addr = some (true, l.growTo A n addr) := by
  have h1 : ¬ (n : ℤ) = l.setSize := by omega
  have h2 : (n : ℤ) > l.setSize := by omega
  have h3 : ¬ l.maxfd ≥ n := by omega
  simp only [fdStorageResize, if_neg h1, h2, not_true_eq_false, if_false, if_neg h3,
    Int.toNat_natCast, LoopyLoop.growTo]

/-- What a resize can do. -/
theorem fdStorageResize_inv {setSize : ℤ} (hint : setSize < 2 ^ 31)
    (h : fdStorageResize A l setSize addr = some (b, l')) : Grown A addr l l' := by
  unfold fdStorageResize at h
  by_cases h1 : setSize = l.setSize
  · rw [if_pos h1] at h; cases h; exact Or.inl rfl
  · rw [if_neg h1] at h
    by_cases h2 : setSize > l.setSize
    · rw [if_neg (not_not.mpr h2)] at h
      by_cases h3 : l.maxfd ≥ setSize
      · rw [if_pos h3] at h; cases h; exact Or.inl rfl
      · rw [if_neg h3] at h; cases h; exact Or.inr ⟨setSize.toNat, by omega, by omega, rfl⟩
    · rw [if_pos h2] at h; cases h

/-- A wrapped value is an `int`. -/
theorem wrapInt_lt (x : ℤ) : wrapInt x < 2 ^ 31 := by unfold wrapInt; omega

/-- So is the size that the doubling ends with. -/
theorem conformLoop_lt {fuel : ℕ} {newSize r : ℤ} (h : conformLoop fuel newSize fd = some r)
    (hlt : newSize < 2 ^ 31) : r < 2 ^ 31 := by
  induction fuel generalizing newSize with
  | zero => cases h
  | succ fuel ih =>
    rw [conformLoop] at h
    by_cases hle : newSize ≤ fd
    · rw [if_pos hle] at h; exact ih h (wrapInt_lt _)
    · rw [if_neg hle] at h; cases h; exact hlt

/-- The table grows or, with room for `fd`, stays. -/
theorem fdConformStorageBounds_inv (h : fdConformStorageBounds A l fd addr = some l') :
    Grown A addr l l' ∧ (fd < l.setSize → l' = l) := by
  unfold fdConformStorageBounds at h
  by_cases hok : fd < l.setSize
  · rw [if_pos hok] at h; cases h; exact ⟨Or.inl rfl, fun _ => rfl⟩
  · rw [if_neg hok] at h
    obtain ⟨newSize, hloop, h⟩ := Option.bind_eq_some_iff.mp h
    obtain ⟨⟨b, l₁⟩, hres, h⟩ := Option.bind_eq_some_iff.mp h
    cases h
    -- the loop has doubled at least once, so its result is an `int`
    rw [conformLoop, if_pos (not_lt.mp hok)] at hloop
    exact ⟨fdStorageResize_inv (conformLoop_lt hloop (wrapInt_lt _)) hres,
      fun hlt => absurd hlt hok⟩

/-- An access that does not end the program is in bounds. -/
theorem tableIndex_inv (h : tableIndex l fd = some i) : fd = i ∧ i < l.setSize := by
  unfold tableIndex at h
  by_cases hb : 0 ≤ fd ∧ fd < l.setSize
  · rw [if_pos hb] at h; cases h; omega
  · rw [if_neg hb] at h; cases h

/-! ## Registering and unregistering -/

/-- The loop after the adapter accepted a registration. -/
def LoopyLoop.registered (l : LoopyLoop σ) (s : σ) (i : ℕ) (mask : LoopyAction)
    (cb clientData : ℕ) : LoopyLoop σ :=
  let fdHeap := if (l.events i).mask = .NONE then loopyMaxHeapInsert l.fdHeap i else l.fdHeap
  { l with
    state := some s
    events := update l.events i ((l.events i).register mask cb clientData)
    fdHeap := fdHeap
    maxfd := heapMaxfd fdHeap }

/-- The loop after the adapter dropped the directions `mask` of a registered index. -/
def LoopyLoop.unregistered (l : LoopyLoop σ) (s : σ) (i : ℕ) (mask : LoopyAction) :
    LoopyLoop σ :=
  let fe := { l.events i with mask := (l.events i).mask.diff mask }
  let l := { l with state := some s, events := update l.events i fe }
  if fe.mask = .NONE then
    let fdHeap := (loopyMaxHeapRemove l.fdHeap i).2
    { l with fdHeap := fdHeap, maxfd := heapMaxfd fdHeap }
  else l

@[simp] theorem registered_events (l : LoopyLoop σ) (s : σ) (i : ℕ) (mask : LoopyAction)
    (cb clientData : ℕ) : (l.registered s i mask cb clientData).events =
      update l.events i ((l.events i).register mask cb clientData) := rfl

@[simp] theorem unregistered_events (l : LoopyLoop σ) (s : σ) (i : ℕ) (mask : LoopyAction) :
    (l.unregistered s i mask).events =
      update l.events i { l.events i with mask := (l.events i).mask.diff mask } := by
  unfold LoopyLoop.unregistered
  dsimp only
  split <;> rfl

@[simp] theorem unregistered_state (l : LoopyLoop σ) (s : σ) (i : ℕ) (mask : LoopyAction) :
    (l.unregistered s i mask).state = some s := by
  unfold LoopyLoop.unregistered
  dsimp only
  split <;> rfl

/-- Unregistering keeps everything but the adapter's state, the table, heap and `maxfd`. -/
theorem unregistered_frame (l : LoopyLoop σ) (s : σ) (i : ℕ) (mask : LoopyAction) :
    l.unregistered s i mask =
      { l with
        state := some s
        events := (l.unregistered s i mask).events
        fdHeap := (l.unregistered s i mask).fdHeap
        maxfd := (l.unregistered s i mask).maxfd } := by
  unfold LoopyLoop.unregistered
  dsimp only
  split <;> rfl

/-! ## The effects of a call -/

/-- The registration a call asks for. -/
structure Registration where
  fd : ℤ
  mask : LoopyAction
  cb : ℕ
  clientData : ℕ

/-- What a registering call asks for. -/
def TableCall.registration : TableCall → Option Registration
  | .registerRead fd cb clientData => some ⟨fd, .READ, cb, clientData⟩
  | .registerWrite fd cb clientData => some ⟨fd, .WRITE, cb, clientData⟩
  | .registerWriteIfNoneExists fd cb clientData => some ⟨fd, .WRITE, cb, clientData⟩
  | _ => none

/-- The call that registers only where nothing is registered yet. -/
def TableCall.exclusive : TableCall → Bool
  | .registerWriteIfNoneExists _ _ _ => true
  | _ => false

/-- What an unregistering call drops. -/
def TableCall.unregistration : TableCall → Option (ℤ × LoopyAction)
  | .unregisterRead fd => some (fd, .READ)
  | .unregisterWrite fd => some (fd, .WRITE)
  | .unregisterReadWrite fd => some (fd, .ALL)
  | _ => none

/-- A registration is for some event. -/
theorem TableCall.registration_mask {r : Registration} (hc : c.registration = some r) :
    r.mask ≠ .NONE := by
  cases c <;> cases hc <;> simp [LoopyAction.READ, LoopyAction.WRITE, LoopyAction.NONE]

variable (A) in
/-- Everything a table call can do, with the value it returns. The loop a registration works
on is grown, and not grown where the tables have the index already. -/
inductive TableEffect (env : Env ε) (l : LoopyLoop σ) : TableCall → Bool → LoopyLoop σ → Prop
  | register {c : TableCall} {r : Registration} {l₁ : LoopyLoop σ} {s : σ} {i : ℕ}
      (hc : c.registration = some r) (hr : r.fd = i) (hg : Grown A env.addr l l₁)
      (hsame : i < l.setSize → l₁ = l) (hi : i < l₁.setSize) (hs : l₁.state = some s)
      (hfree : c.exclusive = true → (l₁.events i).mask.write = false)
      (hok : (A.addEvent env.sys l₁.events s i r.mask).1 = true) :
      TableEffect env l c true
        (l₁.registered (A.addEvent env.sys l₁.events s i r.mask).2 i r.mask r.cb r.clientData)
  | refuse {c : TableCall} {r : Registration} {l₁ : LoopyLoop σ} {s : σ} {i : ℕ}
      (hc : c.registration = some r) (hr : r.fd = i) (hg : Grown A env.addr l l₁)
      (hi : i < l₁.setSize) (hs : l₁.state = some s)
      (hok : (A.addEvent env.sys l₁.events s i r.mask).1 = false) :
      TableEffect env l c false
        { l₁ with state := some (A.addEvent env.sys l₁.events s i r.mask).2 }
  | taken {c : TableCall} {r : Registration} {l₁ : LoopyLoop σ} (hc : c.registration = some r)
      (hg : Grown A env.addr l l₁) : TableEffect env l c false l₁
  | unregister {c : TableCall} {s : σ} {i : ℕ} {mask : LoopyAction}
      (hc : c.unregistration = some ((i : ℤ), mask)) (hi : i < l.setSize)
      (hmask : (l.events i).mask ≠ .NONE) (hs : l.state = some s) :
      TableEffect env l c true (l.unregistered (A.delEvent env.sys l.events s i mask) i mask)
  | absent {c : TableCall} {i : ℕ} {mask : LoopyAction}
      (hc : c.unregistration = some ((i : ℤ), mask))
      (hmask : ¬ (i < l.setSize ∧ (l.events i).mask ≠ .NONE)) : TableEffect env l c true l
  | resize {setSize : ℤ} {l₁ : LoopyLoop σ} (hg : Grown A env.addr l l₁) :
      TableEffect env l (.resizeSetSize setSize) true l₁

/-- A registration that returned is one of the effects. -/
theorem TableEffect.newFileEvent {l₀ : LoopyLoop σ} {r : Registration}
    (hc : c.registration = some r) (hg₀ : Grown A env.addr l l₀)
    (hsame₀ : r.fd < l.setSize → l₀ = l) (hlt₀ : l₀ = l ∨ r.fd < l₀.setSize)
    (hfree : c.exclusive = true → ∀ i : ℕ, r.fd = i → (l₀.events i).mask.write = false)
    (hlt : c.exclusive = true → r.fd < l₀.setSize)
    (h : loopyNewFileEvent A env l₀ r.fd r.mask r.cb r.clientData = some (b, l')) :
    TableEffect A env l c b l' := by
  unfold loopyNewFileEvent at h
  obtain ⟨l₁, hconf, h⟩ := Option.bind_eq_some_iff.mp h
  obtain ⟨i, hidx, h⟩ := Option.bind_eq_some_iff.mp h
  obtain ⟨s, hs, h⟩ := Option.bind_eq_some_iff.mp h
  obtain ⟨hg₁, hsame₁⟩ := fdConformStorageBounds_inv hconf
  obtain ⟨hr, hi⟩ := tableIndex_inv hidx
  have hg : Grown A env.addr l l₁ := by
    rcases hlt₀ with rfl | hlt₀
    · exact hg₁
    · rw [hsame₁ hlt₀]; exact hg₀
  have hsame : i < l.setSize → l₁ = l := by
    intro hil
    have hl₀ := hsame₀ (by omega)
    rw [hsame₁ (by rw [hl₀]; omega), hl₀]
  cases hok : (A.addEvent env.sys l₁.events s i r.mask).1
  · simp only [hok] at h
    cases h
    exact .refuse hc hr hg hi hs hok
  · simp only [hok] at h
    cases h
    refine .register hc hr hg hsame hi hs (fun hex => ?_) hok
    rw [hsame₁ (hlt hex)]
    exact hfree hex i hr

/-- An unregistration that returned is one of the effects. -/
theorem TableEffect.deleteFileEvent (mask : LoopyAction) (hc : c.unregistration = some (fd, mask))
    (h : (loopyDeleteFileEvent A env l fd mask).map (fun l => (true, l)) = some (b, l')) :
    TableEffect A env l c b l' := by
  obtain ⟨l₁, hdel, heq⟩ := Option.map_eq_some_iff.mp h
  cases heq
  unfold loopyDeleteFileEvent at hdel
  by_cases hlt : fd < l.setSize
  · rw [if_neg (not_not.mpr hlt)] at hdel
    obtain ⟨i, hidx, hrest⟩ := Option.bind_eq_some_iff.mp hdel
    obtain ⟨hfd, hi⟩ := tableIndex_inv hidx
    rw [hfd] at hc
    by_cases hnone : (l.events i).mask = .NONE
    · simp only [if_pos hnone] at hrest
      cases hrest
      exact .absent hc fun hm => hm.2 hnone
    · simp only [if_neg hnone] at hrest
      obtain ⟨s, hs, hbody⟩ := Option.bind_eq_some_iff.mp hrest
      have heq : l' = l.unregistered (A.delEvent env.sys l.events s i mask) i mask := by
        unfold LoopyLoop.unregistered
        by_cases hd : (l.events i).mask.diff mask = .NONE
        · simp only [hd, if_true] at hbody ⊢; exact (Option.some.inj hbody).symm
        · simp only [hd, if_false] at hbody ⊢; exact (Option.some.inj hbody).symm
      rw [heq]
      exact .unregister hc hi hnone hs
  · rw [if_pos hlt] at hdel
    cases hdel
    obtain ⟨i, hfd⟩ : ∃ i : ℕ, fd = i := ⟨fd.toNat, by omega⟩
    rw [hfd] at hc
    exact .absent hc fun hm => hlt (by omega)

/-- A call that returned had one of the effects. -/
theorem perform_inv (h : c.perform A env l = some (b, l')) : TableEffect A env l c b l' := by
  cases c with
  | registerRead fd cb clientData =>
    exact .newFileEvent (r := ⟨fd, .READ, cb, clientData⟩) rfl (Or.inl rfl) (fun _ => rfl)
      (Or.inl rfl) nofun nofun h
  | registerWrite fd cb clientData =>
    exact .newFileEvent (r := ⟨fd, .WRITE, cb, clientData⟩) rfl (Or.inl rfl) (fun _ => rfl)
      (Or.inl rfl) nofun nofun h
  | registerWriteIfNoneExists fd cb clientData =>
    obtain ⟨l₁, hconf, h⟩ := Option.bind_eq_some_iff.mp h
    obtain ⟨i, hidx, h⟩ := Option.bind_eq_some_iff.mp h
    obtain ⟨hg, hsame⟩ := fdConformStorageBounds_inv hconf
    obtain ⟨hfd, hi⟩ := tableIndex_inv hidx
    by_cases hw : (l₁.events i).mask.write = true
    · rw [if_pos hw] at h
      cases h
      exact .taken (r := ⟨fd, .WRITE, cb, clientData⟩) rfl hg
    · rw [if_neg hw] at h
      -- the tables are large enough now, so the second growth is none
      have hlt : fd < l₁.setSize := by omega
      refine .newFileEvent (r := ⟨fd, .WRITE, cb, clientData⟩) rfl hg hsame (Or.inr hlt)
        (fun _ j hj => ?_) (fun _ => hlt) h
      have hij : j = i := by
        have hjf : fd = j := hj
        omega
      rw [hij]
      simpa using hw
  | unregisterRead fd => exact .deleteFileEvent .READ rfl h
  | unregisterWrite fd => exact .deleteFileEvent .WRITE rfl h
  | unregisterReadWrite fd => exact .deleteFileEvent .ALL rfl h
  | resizeSetSize n =>
    obtain ⟨⟨b', l₁⟩, hres, h⟩ := Option.bind_eq_some_iff.mp h
    cases h
    exact .resize (fdStorageResize_inv (wrapInt_lt n) hres)

/-! ## Calls return -/

/-- The sizes the storage code relies on: `setSize` is a positive `int` and the table holds
every index up to `maxfd`. -/
structure Sized (l : LoopyLoop σ) : Prop where
  pos : 1 ≤ l.setSize
  lt : l.setSize < 2 ^ 31
  maxfd_lt : l.maxfd < l.setSize

/-- The calls on descriptors below `2^30`, and growing resizes. -/
def TableCall.Admissible (l : LoopyLoop σ) : TableCall → Prop
  | .registerRead fd _ _ | .registerWrite fd _ _ | .registerWriteIfNoneExists fd _ _
  | .unregisterRead fd | .unregisterWrite fd | .unregisterReadWrite fd => 0 ≤ fd ∧ fd < 2 ^ 30
  | .resizeSetSize setSize => l.setSize < setSize ∧ setSize < 2 ^ 31

instance (l : LoopyLoop σ) : (c : TableCall) → Decidable (c.Admissible l)
  | .registerRead .. | .registerWrite .. | .registerWriteIfNoneExists ..
  | .unregisterRead _ | .unregisterWrite _ | .unregisterReadWrite _ =>
    inferInstanceAs (Decidable (_ ∧ _))
  | .resizeSetSize _ => inferInstanceAs (Decidable (_ ∧ _))

/-- The doubling loop ends below `2^31` on descriptors below `2^30`. -/
theorem conformLoop_spec (fuel : ℕ) (m fd : ℤ) (hm : 1 ≤ m) (hm' : m < 2 ^ 31)
    (hfd : fd < 2 ^ 30) (hfuel : fd < 2 ^ fuel * m) :
    ∃ r : ℤ, conformLoop (fuel + 1) m fd = some r ∧ fd < r ∧ m ≤ r ∧ r < 2 ^ 31 := by
  induction fuel generalizing m with
  | zero =>
    have hlt : ¬ m ≤ fd := by simpa using hfuel
    exact ⟨m, by rw [conformLoop, if_neg hlt], not_le.mp hlt, le_rfl, hm'⟩
  | succ fuel ih =>
    rw [conformLoop]
    by_cases hle : m ≤ fd
    · have hwrap : wrapInt (m * 2) = m * 2 := by unfold wrapInt; omega
      rw [if_pos hle, hwrap]
      have hpow : (2 : ℤ) ^ (fuel + 1) * m = 2 ^ fuel * (m * 2) := by ring
      obtain ⟨r, hr, h1, h2, h3⟩ := ih (m * 2) (by omega) (by omega) (by rw [← hpow]; exact hfuel)
      exact ⟨r, hr, h1, by omega, h3⟩
    · exact ⟨m, by rw [if_neg hle], not_le.mp hle, le_rfl, hm'⟩

/-- Below 2^30 the doubling ends, and there is room for `fd`. -/
theorem fdConformStorageBounds_total (hl : Sized l) (fd : ℤ) (hfd : fd < 2 ^ 30) (addr : ℕ) :
    ∃ l', fdConformStorageBounds A l fd addr = some l' ∧ fd < l'.setSize ∧ Sized l' := by
  obtain ⟨hpos, hlt, hmaxfd⟩ := hl
  unfold fdConformStorageBounds
  by_cases hok : fd < l.setSize
  · rw [if_pos hok]
    exact ⟨l, rfl, hok, hpos, hlt, hmaxfd⟩
  · have hfuel : fd < 2 ^ 63 * (l.setSize : ℤ) := by
      have h1 : (1 : ℤ) ≤ l.setSize := by exact_mod_cast hpos
      nlinarith
    obtain ⟨r, hr, hfdr, hmr, hr31⟩ := conformLoop_spec 63 l.setSize fd (by omega) (by omega)
      hfd hfuel
    obtain ⟨n, rfl⟩ : ∃ n : ℕ, r = n := ⟨r.toNat, by omega⟩
    have hgrow : fdStorageResize A l n addr = some (true, l.growTo A n addr) :=
      fdStorageResize_grow l (by omega) addr (by omega)
    rw [if_neg hok, hr]
    refine ⟨l.growTo A n addr, ?_, hfdr, ?_⟩
    · simp only [Option.bind_eq_bind, Option.bind_some, hgrow]
      rfl
    · exact ⟨by show 1 ≤ n; omega, by show n < 2 ^ 31; omega, by show l.maxfd < n; omega⟩

/-- The index and the adapter state a registration needs are there after the growth. -/
theorem conform_ready (env : Env ε) (hl : Sized l) (hs : l.state = some s) (i : ℕ)
    (hi : i < 2 ^ 30) :
    ∃ l₁ s₁, fdConformStorageBounds A l i env.addr = some l₁ ∧ Sized l₁ ∧
      tableIndex l₁ i = some i ∧ l₁.state = some s₁ := by
  obtain ⟨l₁, hconf, hlt, hl₁⟩ :=
    fdConformStorageBounds_total (A := A) hl i (by omega) env.addr
  obtain ⟨s₁, hs₁⟩ := (fdConformStorageBounds_inv hconf).1.state hs
  refine ⟨l₁, s₁, hconf, hl₁, ?_, hs₁⟩
  rw [tableIndex, if_pos ⟨by omega, hlt⟩, Int.toNat_natCast]

/-- So the registration returns. -/
theorem loopyNewFileEvent_total (env : Env ε) (hl : Sized l) (hs : l.state = some s) (h0 : 0 ≤ fd)
    (hfd : fd < 2 ^ 30) (mask : LoopyAction) (cb clientData : ℕ) :
    (loopyNewFileEvent A env l fd mask cb clientData).isSome := by
  obtain ⟨i, rfl⟩ : ∃ i : ℕ, fd = i := ⟨fd.toNat, by omega⟩
  obtain ⟨l₁, s₁, hconf, -, hidx, hs₁⟩ := conform_ready (A := A) env hl hs i (by omega)
  simp only [loopyNewFileEvent, hconf, hidx, hs₁, Option.bind_eq_bind, Option.bind_some]
  split <;> rfl

/-- Deleting needs no room at all. -/
theorem loopyDeleteFileEvent_total (env : Env ε) (hs : l.state = some s) (h0 : 0 ≤ fd)
    (mask : LoopyAction) :
    ((loopyDeleteFileEvent A env l fd mask).map (fun l => (true, l))).isSome := by
  unfold loopyDeleteFileEvent
  by_cases hlt : fd < l.setSize
  · have hidx : tableIndex l fd = some fd.toNat := by rw [tableIndex, if_pos ⟨h0, hlt⟩]
    simp only [hlt, not_true_eq_false, if_false, hidx, hs, Option.bind_eq_bind, Option.bind_some,
      Option.isSome_map]
    split
    · rfl
    · split <;> rfl
  · simp [hlt]

/-- Every admissible call on a live loop returns. -/
theorem perform_total (env : Env ε) (hl : Sized l) (hs : l.state = some s) (c : TableCall)
    (hc : c.Admissible l) : (c.perform A env l).isSome := by
  cases c with
  | registerRead fd cb clientData => exact loopyNewFileEvent_total env hl hs hc.1 hc.2 _ _ _
  | registerWrite fd cb clientData => exact loopyNewFileEvent_total env hl hs hc.1 hc.2 _ _ _
  | registerWriteIfNoneExists fd cb clientData =>
    obtain ⟨h0, hfd⟩ := hc
    obtain ⟨i, rfl⟩ : ∃ i : ℕ, fd = i := ⟨fd.toNat, by omega⟩
    obtain ⟨l₁, s₁, hconf, hl₁, hidx, hs₁⟩ := conform_ready (A := A) env hl hs i (by omega)
    simp only [TableCall.perform, loopyRegisterWriteIfNoneExists, hconf, hidx,
      Option.bind_eq_bind, Option.bind_some]
    split
    · rfl
    · exact loopyNewFileEvent_total env hl₁ hs₁ h0 hfd _ _ _
  | unregisterRead fd => exact loopyDeleteFileEvent_total env hs hc.1 _
  | unregisterWrite fd => exact loopyDeleteFileEvent_total env hs hc.1 _
  | unregisterReadWrite fd => exact loopyDeleteFileEvent_total env hs hc.1 _
  | resizeSetSize n =>
    obtain ⟨hlt, hlt31⟩ := hc
    obtain ⟨m, rfl⟩ : ∃ m : ℕ, n = m := ⟨n.toNat, by omega⟩
    have hmax := hl.maxfd_lt
    have hwrap : wrapInt m = m := by unfold wrapInt; omega
    have hgrow : fdStorageResize A l m env.addr = some (true, l.growTo A m env.addr) :=
      fdStorageResize_grow l (by omega) env.addr (by omega)
    simp only [TableCall.perform, loopyResizeSetSize, hwrap, hgrow, Option.bind_eq_bind,
      Option.bind_some]
    rfl

/-- Growing keeps the sizes in order. -/
theorem Grown.sized (h : Grown A addr l l') (hl : Sized l) : Sized l' := by
  rcases h with rfl | ⟨n, hn, hn31, rfl⟩
  · exact hl
  · have h1 := hl.pos
    have h2 := hl.maxfd_lt
    exact ⟨by show 1 ≤ n; omega, hn31, by show l.maxfd < n; omega⟩

/-! ## The tables agree -/

/-- `maxfd` is the largest registered index, or -1 when there is none. -/
def MaxfdOk (l : LoopyLoop σ) : Prop :=
  (l.maxfd = -1 ∧ ∀ i, (l.events i).mask = .NONE) ∨
    ∃ m : ℕ, l.maxfd = m ∧ (l.events m).mask ≠ .NONE ∧ ∀ i, (l.events i).mask ≠ .NONE → i ≤ m

/-- The heap holds exactly the registered indices, each once. -/
def HeapOk (l : LoopyLoop σ) : Prop :=
  l.fdHeap.contents.Nodup ∧
    ∀ v : ℤ, v ∈ l.fdHeap.contents ↔ ∃ i : ℕ, v = i ∧ (l.events i).mask ≠ .NONE

/-- What holds of mask table, heap and `maxfd` between table operations, for any adapter. -/
structure TableInv (l : LoopyLoop σ) : Prop where
  sized : Sized l
  heap : FdHeap l.fdHeap
  holds : ∀ i : ℕ, (i : ℤ) ∈ l.fdHeap.contents ↔ (l.events i).mask ≠ .NONE
  maxfd_eq : l.maxfd = heapMaxfd l.fdHeap
  beyond : ∀ i, l.setSize ≤ i → l.events i = .zero
  fired_beyond : ∀ i, l.setSize ≤ i → l.fired i = .zero

/-- What is registered is inside the table. -/
theorem TableInv.lt_setSize (h : TableInv l) (hi : (l.events i).mask ≠ .NONE) : i < l.setSize := by
  by_contra hlt
  rw [h.beyond i (by omega)] at hi
  exact hi rfl

/-- The heap has the registered indices. -/
theorem TableInv.heapOk (h : TableInv l) : HeapOk l := by
  refine ⟨h.heap.nodup, fun v => ⟨fun hv => ?_, ?_⟩⟩
  · have hv0 := h.heap.nonneg hv
    refine ⟨v.toNat, by omega, (h.holds v.toNat).mp ?_⟩
    rwa [Int.toNat_of_nonneg hv0]
  · rintro ⟨i, rfl, hi⟩
    exact (h.holds i).mpr hi

/-- `maxfd` as recomputed from a heap that holds the registered indices. -/
theorem heapMaxfd_cases {h : LoopyMaxHeap} (fh : FdHeap h) :
    (heapMaxfd h = -1 ∧ h.contents = 0) ∨
      ∃ m : ℕ, heapMaxfd h = m ∧ (m : ℤ) ∈ h.contents ∧ ∀ v ∈ h.contents, v ≤ m := by
  rcases peek_spec fh with ⟨h0, hpeek⟩ | ⟨hmem, hmax⟩
  · left
    exact ⟨by rw [heapMaxfd, hpeek, if_neg (not_not.mpr rfl)], h0⟩
  · right
    have hnn := fh.nonneg hmem
    have hne : loopyMaxHeapPeek h ≠ heapEmptyValue := by unfold heapEmptyValue; omega
    refine ⟨(loopyMaxHeapPeek h).toNat, ?_, ?_, ?_⟩
    · rw [heapMaxfd, if_pos hne, Int.toNat_of_nonneg hnn]
    · rwa [Int.toNat_of_nonneg hnn]
    · rwa [Int.toNat_of_nonneg hnn]

/-- Its maximum is `maxfd`. -/
theorem TableInv.maxfdOk (h : TableInv l) : MaxfdOk l := by
  rcases heapMaxfd_cases h.heap with ⟨heq, h0⟩ | ⟨m, heq, hmem, hmax⟩
  · left
    refine ⟨h.maxfd_eq.trans heq, fun i => ?_⟩
    by_contra hi
    have hin := (h.holds i).mpr hi
    rw [h0] at hin
    exact absurd hin (Multiset.notMem_zero _)
  · right
    refine ⟨m, h.maxfd_eq.trans heq, (h.holds m).mp hmem, fun i hi => ?_⟩
    exact_mod_cast hmax i ((h.holds i).mpr hi)

/-- A heap of indices in the table gives a `maxfd` in the table. -/
theorem heapMaxfd_lt {h : LoopyMaxHeap} (fh : FdHeap h)
    (hlt : ∀ i : ℕ, (i : ℤ) ∈ h.contents → i < n) : heapMaxfd h < n := by
  rcases heapMaxfd_cases fh with ⟨heq, _⟩ | ⟨m, heq, hmem, _⟩
  · omega
  · have := hlt m hmem
    omega

/-- On a loop with `TableInv` growing changes nothing but the size and the address. -/
theorem TableInv.growTo_eq (h : TableInv l) (n addr : ℕ) :
    l.growTo A n addr =
      { l with setSize := n, eventsPtr := some addr, state := l.state.map fun s => A.resize s n } := by
  have hev : (fun i => if l.setSize ≤ i ∧ i < n then LoopyFileEvent.zero else l.events i) =
      l.events := by
    funext i
    split
    · rename_i hi; exact (h.beyond i hi.1).symm
    · rfl
  have hfired : (fun i => if l.setSize ≤ i ∧ i < n then LoopyFiredEvent.zero else l.fired i) =
      l.fired := by
    funext i
    split
    · rename_i hi; exact (h.fired_beyond i hi.1).symm
    · rfl
  rw [LoopyLoop.growTo, hev, hfired]

/-- Growing keeps the table right. -/
theorem TableInv.grown (h : TableInv l) (hg : Grown A addr l l') : TableInv l' := by
  have hsized := hg.sized h.sized
  rcases hg with rfl | ⟨n, hn, _, rfl⟩
  · exact h
  · rw [h.growTo_eq] at hsized ⊢
    exact ⟨hsized, h.heap, h.holds, h.maxfd_eq, fun i hi => h.beyond i (by simp at hi; omega),
      fun i hi => h.fired_beyond i (by simp at hi; omega)⟩

/-- So does a registration. -/
theorem TableInv.registered (h : TableInv l) (s : σ) (hi : i < l.setSize) {mask : LoopyAction}
    (hmask : mask ≠ .NONE) (cb clientData : ℕ) :
    TableInv (l.registered s i mask cb clientData) := by
  -- the heap after the registration, with its contents
  have hheap : ∀ fdHeap, fdHeap = (if (l.events i).mask = .NONE then loopyMaxHeapInsert l.fdHeap i
      else l.fdHeap) → FdHeap fdHeap ∧ ∀ j : ℕ, (j : ℤ) ∈ fdHeap.contents ↔
        j = i ∨ (l.events j).mask ≠ .NONE := by
    rintro fdHeap rfl
    by_cases hempty : (l.events i).mask = .NONE
    · rw [if_pos hempty]
      have hnew : (i : ℤ) ∉ l.fdHeap.contents := fun hin => (h.holds i).mp hin hempty
      have hlt := h.sized.lt
      obtain ⟨hfd, hcont⟩ := insert_fdHeap h.heap (by omega : (0 : ℤ) ≤ i) (by omega) hnew
      refine ⟨hfd, fun j => ?_⟩
      rw [hcont, Multiset.mem_cons, h.holds j, Int.natCast_inj]
    · rw [if_neg hempty]
      refine ⟨h.heap, fun j => ?_⟩
      rw [h.holds j]
      constructor
      · exact Or.inr
      · rintro (rfl | hj)
        · exact hempty
        · exact hj
  obtain ⟨hfd, hcont⟩ := hheap _ rfl
  have hmaskj : ∀ j, ((l.registered s i mask cb clientData).events j).mask ≠ .NONE ↔
      j = i ∨ (l.events j).mask ≠ .NONE := by
    intro j
    show (update l.events i ((l.events i).register mask cb clientData) j).mask ≠ _ ↔ _
    by_cases hj : j = i
    · subst hj
      rw [update_self]
      exact ⟨fun _ => Or.inl rfl, fun _ => LoopyAction.union_ne_none hmask⟩
    · rw [update_of_ne hj]
      tauto
  refine ⟨⟨h.sized.pos, h.sized.lt, ?_⟩, hfd, fun j => (hcont j).trans (hmaskj j).symm, rfl,
    fun j hj => ?_, h.fired_beyond⟩
  · refine heapMaxfd_lt hfd fun j hj => ?_
    rcases (hcont j).mp hj with rfl | hj'
    · exact hi
    · exact h.lt_setSize hj'
  · show update l.events i _ j = _
    rw [update_of_ne (by simp [LoopyLoop.registered] at hj; omega)]
    exact h.beyond j hj

/-- So does its removal. -/
theorem TableInv.unregistered (h : TableInv l) (s : σ) (hi : (l.events i).mask ≠ .NONE)
    (mask : LoopyAction) : TableInv (l.unregistered s i mask) := by
  have hlt := h.lt_setSize hi
  have hmem : (i : ℤ) ∈ l.fdHeap.contents := (h.holds i).mpr hi
  have hbeyond : ∀ (fe : LoopyFileEvent) j, l.setSize ≤ j →
      update l.events i fe j = .zero := fun fe j hj => by
    rw [update_of_ne (by omega)]
    exact h.beyond j hj
  -- the heap after the unregistration, with its contents
  have hheap : FdHeap (l.unregistered s i mask).fdHeap ∧
      (l.unregistered s i mask).maxfd = heapMaxfd (l.unregistered s i mask).fdHeap ∧
      ∀ j : ℕ, (j : ℤ) ∈ (l.unregistered s i mask).fdHeap.contents ↔
        (j = i ∧ (l.events i).mask.diff mask ≠ .NONE) ∨ (j ≠ i ∧ (l.events j).mask ≠ .NONE) := by
    unfold LoopyLoop.unregistered
    by_cases hd : (l.events i).mask.diff mask = .NONE
    · simp only [hd, if_true]
      obtain ⟨-, hfd, hcont⟩ := remove_fdHeap h.heap hmem
      refine ⟨hfd, trivial, fun j => ?_⟩
      rw [hcont, h.heap.nodup.mem_erase_iff, h.holds j, Ne, Int.natCast_inj]
      simp
    · simp only [hd, if_false]
      refine ⟨h.heap, h.maxfd_eq, fun j => ?_⟩
      rw [h.holds j]
      by_cases hj : j = i
      · subst hj; simp [hi, hd]
      · simp [hj]
  obtain ⟨hfd, hmax, hcont⟩ := hheap
  have hsize : (l.unregistered s i mask).setSize = l.setSize := by rw [unregistered_frame]
  have hfired : (l.unregistered s i mask).fired = l.fired := by rw [unregistered_frame]
  refine ⟨⟨?_, ?_, ?_⟩, hfd, fun j => (hcont j).trans ?_, hmax, fun j hj => ?_, ?_⟩
  · rw [hsize]; exact h.sized.pos
  · rw [hsize]; exact h.sized.lt
  · rw [hsize, hmax]
    refine heapMaxfd_lt hfd fun j hj => ?_
    rcases (hcont j).mp hj with ⟨rfl, _⟩ | ⟨_, hj'⟩
    · exact hlt
    · exact h.lt_setSize hj'
  · rw [unregistered_events]
    by_cases hj : j = i
    · subst hj; simp
    · simp [hj]
  · rw [hsize] at hj
    rw [unregistered_events]
    exact hbeyond _ j hj
  · rw [hfired, hsize]; exact h.fired_beyond

/-- Every table call keeps the tables in agreement. -/
theorem TableInv.effect (h : TableInv l) (he : TableEffect A env l c b l') : TableInv l' := by
  cases he with
  | register hc _ hg _ hi _ _ _ =>
    exact (h.grown hg).registered _ hi (TableCall.registration_mask hc) _ _
  | refuse _ _ hg _ _ _ =>
    have h₁ := h.grown hg
    exact ⟨⟨h₁.sized.pos, h₁.sized.lt, h₁.sized.maxfd_lt⟩, h₁.heap, h₁.holds, h₁.maxfd_eq,
      h₁.beyond, h₁.fired_beyond⟩
  | taken _ hg => exact h.grown hg
  | unregister _ _ hmask _ => exact h.unregistered _ hmask _
  | absent => exact h
  | resize hg => exact h.grown hg

/-- What a table call keeps of the adapter's state: what growing, an accepted or refused
registration and an unregistration of the adapter keep. -/
theorem TableEffect.state_inv {P : (ℕ → LoopyFileEvent) → σ → Prop} (ht : TableInv l)
    (hs : l.state = some s) (he : TableEffect A env l c b l') (h : P l.events s)
    (hresize : ∀ n, P l.events (A.resize s n))
    (hadd : ∀ s i mask cb clientData, P l.events s → mask ≠ .NONE →
      (A.addEvent env.sys l.events s i mask).1 = true →
      P (update l.events i ((l.events i).register mask cb clientData))
        (A.addEvent env.sys l.events s i mask).2)
    (hrefuse : ∀ s i mask, P l.events s → (A.addEvent env.sys l.events s i mask).1 = false →
      P l.events (A.addEvent env.sys l.events s i mask).2)
    (hdel : ∀ (i : ℕ) mask, c.unregistration = some ((i : ℤ), mask) → (l.events i).mask ≠ .NONE →
      P (update l.events i { l.events i with mask := (l.events i).mask.diff mask })
        (A.delEvent env.sys l.events s i mask)) :
    ∃ s', l'.state = some s' ∧ P l'.events s' := by
  have hgrown : ∀ l₁, Grown A env.addr l l₁ → l₁.events = l.events ∧
      ∃ s₁, l₁.state = some s₁ ∧ P l.events s₁ := by
    rintro l₁ (rfl | ⟨n, -, -, rfl⟩)
    · exact ⟨rfl, s, hs, h⟩
    · rw [ht.growTo_eq]
      refine ⟨rfl, A.resize s n, ?_, hresize n⟩
      simp only [hs, Option.map_some]
  cases he with
  | @register _ r l₁ s₁ i hc hr hg hsame hi hs₁ hfree hok =>
    obtain ⟨hev, s₂, hs₂, hP⟩ := hgrown _ hg
    obtain rfl := Option.some.inj (hs₁.symm.trans hs₂)
    rw [hev] at hok ⊢
    refine ⟨_, rfl, ?_⟩
    rw [registered_events, hev]
    exact hadd s₁ i r.mask r.cb r.clientData hP (TableCall.registration_mask hc) hok
  | @refuse _ r l₁ s₁ i hc hr hg hi hs₁ hok =>
    obtain ⟨hev, s₂, hs₂, hP⟩ := hgrown _ hg
    obtain rfl := Option.some.inj (hs₁.symm.trans hs₂)
    rw [hev] at hok ⊢
    exact ⟨_, rfl, hrefuse s₁ i r.mask hP hok⟩
  | taken hc hg =>
    obtain ⟨hev, s₁, hs₁, hP⟩ := hgrown _ hg
    rw [hev]
    exact ⟨s₁, hs₁, hP⟩
  | @unregister _ s₁ i mask hc hi hmask hs₁ =>
    obtain rfl := Option.some.inj (hs.symm.trans hs₁)
    refine ⟨_, unregistered_state _ _ _ _, ?_⟩
    rw [unregistered_events]
    exact hdel i mask hc hmask
  | absent => exact ⟨s, hs, h⟩
  | resize hg =>
    obtain ⟨hev, s₁, hs₁, hP⟩ := hgrown _ hg
    rw [hev]
    exact ⟨s₁, hs₁, hP⟩

variable (A) in
/-- A table operation as a step, forgetting what it returns. -/
def TableCall.step (l : LoopyLoop σ) (i : TableCall × Env ε) : Option (LoopyLoop σ) :=
  (i.1.perform A i.2 l).map Prod.snd

/-- A step that returns has one of the effects. -/
theorem TableCall.step_inv {i : TableCall × Env ε} (h : TableCall.step A l i = some l') :
    ∃ b, TableEffect A i.2 l i.1 b l' := by
  obtain ⟨⟨b, l₁⟩, hperf, rfl⟩ := Option.map_eq_some_iff.mp h
  exact ⟨b, perform_inv hperf⟩

variable (A) in
/-- A loop just initialised for `n` descriptors. -/
def LoopyLoop.fresh (n addr : ℕ) : LoopyLoop σ :=
  { (LoopyLoop.zero : LoopyLoop σ) with
    state := some (A.new n)
    eventsPtr := some addr
    fdHeap := loopyMaxHeapInit n
    setSize := n
    maxfd := -1 }

/-- What `loopyInit` leaves in a zeroed loop, caller-allocated or of `loopyNew`. -/
theorem loopyInit_zero (hn : 1 ≤ n) (addr : ℕ) (allocated : Bool) :
    loopyInit A { LoopyLoop.zero with allocated := allocated } n addr =
      some (true, { LoopyLoop.fresh A n addr with allocated := allocated }) := by
  have hgrow := fdStorageResize_grow (A := A) { LoopyLoop.zero with allocated := allocated } hn addr
    (by show (0 : ℤ) < n; omega)
  rw [loopyInit, hgrow]
  simp [LoopyLoop.growTo, LoopyLoop.fresh, LoopyLoop.zero]

/-- The tables of a fresh loop. -/
theorem TableInv.fresh (hn : 1 ≤ n) (hn31 : n < 2 ^ 31) (addr : ℕ) :
    TableInv (LoopyLoop.fresh A n addr) where
  sized := ⟨hn, hn31, by show (-1 : ℤ) < n; omega⟩
  heap := fdHeap_init hn31
  holds := fun i => by
    show (i : ℤ) ∈ (loopyMaxHeapInit n).contents ↔ LoopyFileEvent.zero.mask ≠ .NONE
    rw [contents_init]
    exact ⟨fun h => absurd h (Multiset.notMem_zero _), fun h => absurd rfl h⟩
  maxfd_eq := rfl
  beyond := fun _ _ => rfl
  fired_beyond := fun _ _ => rfl

end

end Loopy.EventLoop
