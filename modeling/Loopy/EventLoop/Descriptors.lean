import Loopy.Epoll.Poll

/-!
# Descriptors of any value

The functions that take a descriptor test it against `setSize` only from above, so a negative one
indexes the table in front of its first entry; and the doubling loop that makes room for a large one
works on an `int`, which may wrap past every value the loop waits for. `DescriptorCall.Safe` is the
condition under which such a call returns with its table accesses in bounds, on every reachable loop.
-/

namespace Loopy.EventLoop

open Loopy.Lib Loopy.Epoll

/-! ## The doubling loop -/

/-- Doubling `setSize` as a 32-bit `int` passes `fd` at some time. -/
def Reaches (setSize : ℕ) (fd : ℤ) : Prop := ∃ k : ℕ, fd < wrapInt (setSize * 2 ^ k)

variable {x newSize : ℤ} {fuel k : ℕ}

/-- An `int` is not wrapped. -/
theorem wrapInt_eq (hlo : -2 ^ 31 ≤ x) (hhi : x < 2 ^ 31) : wrapInt x = x := by
  unfold wrapInt
  omega

/-- Wrapping twice is wrapping once. -/
theorem wrapInt_wrapInt (x : ℤ) : wrapInt (wrapInt x) = wrapInt x := by
  unfold wrapInt
  omega

/-- Wrapping before a multiplication changes nothing. -/
theorem wrapInt_mul (x y : ℤ) : wrapInt (wrapInt x * y) = wrapInt (x * y) := by
  have hmod : wrapInt x % 2 ^ 32 = x % 2 ^ 32 := by
    unfold wrapInt
    omega
  have hprod : wrapInt x * y % 2 ^ 32 = x * y % 2 ^ 32 := by
    rw [Int.mul_emod, hmod, ← Int.mul_emod]
  unfold wrapInt at hprod ⊢
  omega

variable {fd : ℤ} {setSize : ℕ}

/-- The loop ends at the first doubling that passes `fd`. -/
theorem conformLoop_inv {r : ℤ} (hint : wrapInt newSize = newSize)
    (h : conformLoop fuel newSize fd = some r) : fd < r ∧ ∃ k, r = wrapInt (newSize * 2 ^ k) := by
  induction fuel generalizing newSize with
  | zero => cases h
  | succ fuel ih =>
    rw [conformLoop] at h
    split at h
    case isTrue hle =>
      obtain ⟨hlt, k, hk⟩ := ih (wrapInt_wrapInt _) h
      refine ⟨hlt, k + 1, ?_⟩
      rw [hk, wrapInt_mul, Int.mul_assoc, ← Int.pow_succ']
    case isFalse hlt =>
      cases h
      exact ⟨by omega, 0, by rw [Int.pow_zero, Int.mul_one, hint]⟩

/-- The loop ends if one of the first doublings passes `fd`. -/
theorem conformLoop_isSome (hint : wrapInt newSize = newSize) (hk : k < fuel)
    (h : fd < wrapInt (newSize * 2 ^ k)) : (conformLoop fuel newSize fd).isSome := by
  induction fuel generalizing newSize k with
  | zero => omega
  | succ fuel ih =>
    rw [conformLoop]
    split
    case isTrue hle =>
      cases k with
      | zero =>
        rw [Int.pow_zero, Int.mul_one, hint] at h
        omega
      | succ k =>
        rw [Int.pow_succ', ← Int.mul_assoc, ← wrapInt_mul] at h
        exact ih (wrapInt_wrapInt _) (by omega) h
    case isFalse => rfl

/-- After 32 doublings an `int` is 0. -/
theorem wrapInt_doubled (hk : 32 ≤ k) : wrapInt (x * 2 ^ k) = 0 := by
  obtain ⟨j, rfl⟩ := Nat.exists_eq_add_of_le hk
  have hpow : x * 2 ^ (32 + j) = 2 ^ 32 * (x * 2 ^ j) := by ring
  rw [hpow]
  unfold wrapInt
  omega

/-- A doubling that passes `fd` is among the first 32. -/
theorem Reaches.early (hlt : setSize < 2 ^ 31) (h : Reaches setSize fd) :
    ∃ k < 64, fd < wrapInt (setSize * 2 ^ k) := by
  obtain ⟨k, hk⟩ := h
  by_cases hle : 32 ≤ k
  · rw [wrapInt_doubled hle] at hk
    refine ⟨0, by omega, ?_⟩
    rw [Int.pow_zero, Int.mul_one, wrapInt_eq (by omega) (by omega)]
    omega
  · exact ⟨k, by omega, hk⟩

/-- The loop ends exactly if a doubling passes `fd`. -/
theorem conformLoop_isSome_iff (hlt : setSize < 2 ^ 31) :
    (conformLoop 64 setSize fd).isSome ↔ Reaches setSize fd := by
  have hint : wrapInt setSize = setSize := wrapInt_eq (by omega) (by omega)
  constructor
  · intro h
    obtain ⟨r, hr⟩ := Option.isSome_iff_exists.mp h
    obtain ⟨hpass, k, hk⟩ := conformLoop_inv hint hr
    exact ⟨k, hk ▸ hpass⟩
  · intro h
    obtain ⟨k, hk, hpass⟩ := h.early hlt
    exact conformLoop_isSome hint hk hpass

/-- A loop that has not ended after 64 turns never ends. -/
theorem conformLoop_diverges (hlt : setSize < 2 ^ 31) (h : conformLoop 64 setSize fd = none)
    (fuel : ℕ) : conformLoop fuel setSize fd = none := by
  have hint : wrapInt setSize = setSize := wrapInt_eq (by omega) (by omega)
  by_contra hsome
  obtain ⟨r, hr⟩ := Option.ne_none_iff_exists'.mp hsome
  obtain ⟨hpass, k, hk⟩ := conformLoop_inv hint hr
  have hends := (conformLoop_isSome_iff hlt).mpr ⟨k, hk ▸ hpass⟩
  rw [h] at hends
  cases hends

/-! ## Calls -/

section

variable {σ ε : Type} (A : Adapter σ ε)

/-- `loopyGetEvents`. -/
def loopyGetEvents (l : LoopyLoop σ) (fd : ℤ) : Option LoopyAction :=
  if ¬ fd < l.setSize then some .NONE
  else do
    let i ← tableIndex l fd
    return (l.events i).mask

/-- The functions that take a descriptor. -/
inductive DescriptorCall
  | registerRead (fd : ℤ) (cb clientData : ℕ)
  | registerWrite (fd : ℤ) (cb clientData : ℕ)
  | registerWriteIfNoneExists (fd : ℤ) (cb clientData : ℕ)
  | unregisterRead (fd : ℤ)
  | unregisterWrite (fd : ℤ)
  | unregisterReadWrite (fd : ℤ)
  | getEvents (fd : ℤ)
deriving DecidableEq, Repr

/-- The call returns, and has accessed the table in bounds. -/
def DescriptorCall.returns (env : Env ε) (l : LoopyLoop σ) : DescriptorCall → Bool
  | .registerRead fd cb clientData => (loopyRegisterRead A env l fd cb clientData).isSome
  | .registerWrite fd cb clientData => (loopyRegisterWrite A env l fd cb clientData).isSome
  | .registerWriteIfNoneExists fd cb clientData =>
    (loopyRegisterWriteIfNoneExists A env l fd cb clientData).isSome
  | .unregisterRead fd => (loopyUnregisterRead A env l fd).isSome
  | .unregisterWrite fd => (loopyUnregisterWrite A env l fd).isSome
  | .unregisterReadWrite fd => (loopyUnregisterReadWrite A env l fd).isSome
  | .getEvents fd => (loopyGetEvents l fd).isSome

/-- The descriptor is not negative; to register it the loop needs its adapter, and a doubling of the
table that passes it. -/
def DescriptorCall.Safe (l : LoopyLoop σ) : DescriptorCall → Prop
  | .registerRead fd _ _ | .registerWrite fd _ _ | .registerWriteIfNoneExists fd _ _ =>
    l.state.isSome ∧ 0 ≤ fd ∧ Reaches l.setSize fd
  | .unregisterRead fd | .unregisterWrite fd | .unregisterReadWrite fd | .getEvents fd => 0 ≤ fd

/-- What the calls need of a loop: a size that is an `int`, a `maxfd` in the table, and the adapter
where anything is registered. -/
structure Usable (l : LoopyLoop σ) : Prop where
  sized : Sized l
  state : ∀ i, (l.events i).mask ≠ .NONE → l.state.isSome

variable {A} {env : Env ε} {l : LoopyLoop σ} {fd : ℤ}

/-- An access in bounds is answered. -/
theorem tableIndex_eq (h0 : 0 ≤ fd) (h : fd < l.setSize) : tableIndex l fd = some fd.toNat := by
  rw [tableIndex, if_pos ⟨h0, h⟩]

/-- A negative descriptor ends the program. -/
theorem tableIndex_none (h : fd < 0) : tableIndex l fd = none := by
  rw [tableIndex, if_neg (by omega)]

/-- A descriptor inside the table needs no doubling. -/
theorem Reaches.of_lt (hlt : l.setSize < 2 ^ 31) (h : fd < l.setSize) : Reaches l.setSize fd := by
  refine ⟨0, ?_⟩
  rw [Int.pow_zero, Int.mul_one, wrapInt_eq (by omega) (by omega)]
  exact h

variable {l₁ : LoopyLoop σ} {addr : ℕ}

/-- The backend is there as before. -/
theorem Grown.isSome (h : Grown A addr l l₁) : l₁.state.isSome ↔ l.state.isSome := by
  rcases h with rfl | ⟨n, -, -, rfl⟩
  · rfl
  · simp [LoopyLoop.growTo]

/-- A table that has grown can be used. -/
theorem Usable.grown (h : Usable l) (hg : Grown A addr l l₁) : Usable l₁ := by
  refine ⟨hg.sized h.sized, fun i hi => hg.isSome.mpr (h.state i ?_)⟩
  rcases hg.events_eq i with heq | ⟨-, hzero⟩
  · rwa [← heq]
  · rw [hzero] at hi
    exact absurd rfl hi

/-- Making room returns exactly if a doubling passes the descriptor, and then there is room. -/
theorem fdConformStorageBounds_cases (hl : Sized l) (fd : ℤ) (addr : ℕ) :
    (Reaches l.setSize fd ∧
      ∃ l₁, fdConformStorageBounds A l fd addr = some l₁ ∧ fd < l₁.setSize ∧ Grown A addr l l₁) ∨
    (¬ Reaches l.setSize fd ∧ fdConformStorageBounds A l fd addr = none) := by
  have hmax := hl.maxfd_lt
  have hlt31 := hl.lt
  unfold fdConformStorageBounds
  split
  case isTrue hlt => exact .inl ⟨.of_lt hlt31 hlt, l, rfl, hlt, .inl rfl⟩
  case isFalse hlt =>
    rw [← conformLoop_isSome_iff hlt31]
    cases hloop : conformLoop 64 l.setSize fd with
    | none => exact .inr ⟨Bool.false_ne_true, rfl⟩
    | some r =>
      have hint : wrapInt l.setSize = l.setSize := wrapInt_eq (by omega) (by omega)
      obtain ⟨hpass, k, hk⟩ := conformLoop_inv hint hloop
      obtain ⟨n, hn⟩ : ∃ n : ℕ, r = n := ⟨r.toNat, by omega⟩
      have hn31 : r < 2 ^ 31 := hk ▸ wrapInt_lt _
      have hgrow : fdStorageResize A l r addr = some (true, l.growTo A n addr) :=
        hn ▸ fdStorageResize_grow l (by omega) addr (by omega)
      refine .inl ⟨rfl, l.growTo A n addr, ?_, hn ▸ hpass, .inr ⟨n, by omega, by omega, rfl⟩⟩
      simp only [Option.bind_eq_bind, Option.bind_some, hgrow]
      rfl

/-- **A registration returns exactly if the doubling reaches its descriptor.**. -/
theorem loopyNewFileEvent_isSome (hl : Sized l) (fd : ℤ) (mask : LoopyAction) (cb clientData : ℕ) :
    (loopyNewFileEvent A env l fd mask cb clientData).isSome ↔
      l.state.isSome ∧ 0 ≤ fd ∧ Reaches l.setSize fd := by
  unfold loopyNewFileEvent
  obtain ⟨hreach, l₁, hconf, hlt, hg⟩ | ⟨hreach, hconf⟩ :=
    fdConformStorageBounds_cases (A := A) hl fd env.addr
  · rw [hconf, ← hg.isSome]
    by_cases h0 : 0 ≤ fd
    · cases hs : l₁.state with
      | none => simp [tableIndex_eq h0 hlt, hs]
      | some s =>
        simp only [Option.bind_eq_bind, Option.bind_some, tableIndex_eq h0 hlt, hs]
        split
        · exact ⟨fun _ => ⟨rfl, h0, hreach⟩, fun _ => rfl⟩
        · exact ⟨fun _ => ⟨rfl, h0, hreach⟩, fun _ => rfl⟩
    · simp [tableIndex_none (l := l₁) (not_le.mp h0), h0]
  · simp [hconf, hreach]

/-- Deleting needs a descriptor that is not negative. -/
theorem loopyDeleteFileEvent_isSome (hl : Usable l) (fd : ℤ) (mask : LoopyAction) :
    (loopyDeleteFileEvent A env l fd mask).isSome ↔ 0 ≤ fd := by
  unfold loopyDeleteFileEvent
  by_cases h0 : 0 ≤ fd
  · refine ⟨fun _ => h0, fun _ => ?_⟩
    split
    case isTrue => rfl
    case isFalse hlt =>
      simp only [Option.bind_eq_bind, tableIndex_eq h0 (not_not.mp hlt), Option.bind_some]
      split
      case isTrue => rfl
      case isFalse hmask =>
        obtain ⟨s, hs⟩ := Option.isSome_iff_exists.mp (hl.state _ hmask)
        simp only [hs, Option.bind_some]
        split <;> rfl
  · have hpos := hl.sized.pos
    have hlt : fd < l.setSize := by omega
    simp [tableIndex_none (l := l) (not_le.mp h0), hlt, h0]

/-- So does asking for the mask. -/
theorem loopyGetEvents_isSome (hl : Sized l) (fd : ℤ) : (loopyGetEvents l fd).isSome ↔ 0 ≤ fd := by
  unfold loopyGetEvents
  by_cases h0 : 0 ≤ fd
  · refine ⟨fun _ => h0, fun _ => ?_⟩
    split
    case isTrue => rfl
    case isFalse hlt =>
      rw [tableIndex_eq h0 (not_not.mp hlt)]
      rfl
  · have hpos := hl.pos
    have hlt : fd < l.setSize := by omega
    simp [tableIndex_none (l := l) (not_le.mp h0), hlt, h0]

/-- Registering once is registering or asking. -/
theorem loopyRegisterWriteIfNoneExists_isSome (hl : Usable l) (fd : ℤ) (cb clientData : ℕ) :
    (loopyRegisterWriteIfNoneExists A env l fd cb clientData).isSome ↔
      l.state.isSome ∧ 0 ≤ fd ∧ Reaches l.setSize fd := by
  unfold loopyRegisterWriteIfNoneExists
  obtain ⟨hreach, l₁, hconf, hlt, hg⟩ | ⟨hreach, hconf⟩ :=
    fdConformStorageBounds_cases (A := A) hl.sized fd env.addr
  · have hl₁ := hl.grown hg
    rw [hconf, ← hg.isSome]
    by_cases h0 : 0 ≤ fd
    · simp only [Option.bind_eq_bind, Option.bind_some, tableIndex_eq h0 hlt]
      split
      case isTrue hwrite =>
        have hstate := hl₁.state _ (ne_none_of_has .write hwrite)
        exact ⟨fun _ => ⟨hstate, h0, hreach⟩, fun _ => rfl⟩
      case isFalse =>
        refine (loopyNewFileEvent_isSome hl₁.sized fd .WRITE cb clientData).trans ?_
        exact ⟨fun h => ⟨h.1, h0, hreach⟩, fun h => ⟨h.1, h0, .of_lt hl₁.sized.lt hlt⟩⟩
    · simp [tableIndex_none (l := l₁) (not_le.mp h0), h0]
  · simp [hconf, hreach]

/-- On a usable loop a call returns exactly if it is safe. -/
theorem DescriptorCall.returns_iff (hl : Usable l) (c : DescriptorCall) :
    c.returns A env l = true ↔ c.Safe l := by
  cases c with
  | registerRead fd cb clientData => exact loopyNewFileEvent_isSome hl.sized fd .READ cb clientData
  | registerWrite fd cb clientData => exact loopyNewFileEvent_isSome hl.sized fd .WRITE cb clientData
  | registerWriteIfNoneExists fd cb clientData =>
    exact loopyRegisterWriteIfNoneExists_isSome hl fd cb clientData
  | unregisterRead fd => exact loopyDeleteFileEvent_isSome hl fd .READ
  | unregisterWrite fd => exact loopyDeleteFileEvent_isSome hl fd .WRITE
  | unregisterReadWrite fd => exact loopyDeleteFileEvent_isSome hl fd .ALL
  | getEvents fd => exact loopyGetEvents_isSome hl.sized fd

end

/-! ## Reachable loops -/

section

variable {σ ε π : Type} {A : Adapter σ ε} {l l' : LoopyLoop σ}

/-- The loop with an empty batch: a poll of any adapter writes nothing else of the tables. -/
def LoopyLoop.withoutBatch (l : LoopyLoop σ) : LoopyLoop σ := { l with fired := fun _ => .zero }

/-- A loop in use. -/
structure Live (l : LoopyLoop σ) : Prop where
  state : l.state.isSome
  tables : TableInv l.withoutBatch

/-- A loop that was deleted, and whose tables may have been resized since. -/
structure Dead (l : LoopyLoop σ) : Prop where
  state : l.state = none
  masks : ∀ i, (l.events i).mask = .NONE
  maxfd : l.maxfd = 0
  lt : l.setSize < 2 ^ 31

/-- A live loop can be used. -/
theorem Live.usable (h : Live l) : Usable l :=
  ⟨⟨h.tables.sized.pos, h.tables.sized.lt, h.tables.sized.maxfd_lt⟩, fun _ _ => h.state⟩

/-- So can a dead one whose table has a size. -/
theorem Dead.usable (h : Dead l) (hsize : 1 ≤ l.setSize) : Usable l := by
  refine ⟨⟨hsize, h.lt, ?_⟩, fun i hi => absurd (h.masks i) hi⟩
  rw [h.maxfd]
  omega

/-- A loop of zeros is dead. -/
theorem Dead.zero : Dead (.zero : LoopyLoop σ) := ⟨rfl, fun _ => rfl, rfl, Nat.two_pow_pos 31⟩

/-- A new loop is live. -/
theorem Live.fresh {n : ℕ} (hn : 1 ≤ n) (hn31 : n < 2 ^ 31) (addr : ℕ) (allocated : Bool) :
    Live { LoopyLoop.fresh A n addr with allocated := allocated } := by
  obtain ⟨⟨h1, h2, h3⟩, h4, h5, h6, h7, h8⟩ := TableInv.fresh (A := A) hn hn31 addr
  exact ⟨rfl, ⟨h1, h2, h3⟩, h4, h5, h6, h7, h8⟩

/-! ### Table calls -/

variable {addr : ℕ} {env : Env ε} {c : TableCall} {b : Bool}

theorem Grown.withoutBatch (h : Grown A addr l l') :
    Grown A addr l.withoutBatch l'.withoutBatch := by
  rcases h with rfl | ⟨n, hn, hn31, rfl⟩
  · exact .inl rfl
  · refine .inr ⟨n, hn, hn31, ?_⟩
    simp only [LoopyLoop.growTo, LoopyLoop.withoutBatch]
    congr 1
    funext i
    exact (ite_self _).symm

theorem unregistered_withoutBatch (l : LoopyLoop σ) (s : σ) (i : ℕ) (mask : LoopyAction) :
    (l.unregistered s i mask).withoutBatch = l.withoutBatch.unregistered s i mask := by
  unfold LoopyLoop.unregistered LoopyLoop.withoutBatch
  dsimp only
  split <;> rfl

theorem Live.grown (h : Live l) (hg : Grown A addr l l') : Live l' :=
  ⟨hg.isSome.mpr h.state, h.tables.grown hg.withoutBatch⟩

/-- It stays so under every call of the table. -/
theorem Live.effect (h : Live l) (he : TableEffect A env l c b l') : Live l' := by
  cases he with
  | register hc _ hg _ hi _ _ _ =>
    exact ⟨rfl, (h.grown hg).tables.registered _ hi (TableCall.registration_mask hc) _ _⟩
  | refuse _ _ hg _ _ _ =>
    obtain ⟨-, ⟨h1, h2, h3⟩, h4, h5, h6, h7, h8⟩ := h.grown hg
    exact ⟨rfl, ⟨h1, h2, h3⟩, h4, h5, h6, h7, h8⟩
  | taken _ hg => exact h.grown hg
  | @unregister _ s i mask _ _ hmask _ =>
    have htables := h.tables.unregistered (A.delEvent env.sys l.events s i mask) hmask mask
    refine ⟨by rw [unregistered_state]; rfl, ?_⟩
    rwa [← unregistered_withoutBatch] at htables
  | absent => exact h
  | resize hg => exact h.grown hg

theorem Dead.grown (h : Dead l) (hg : Grown A addr l l') : Dead l' := by
  rcases hg with rfl | ⟨n, hn, hn31, rfl⟩
  · exact h
  · refine ⟨?_, fun i => ?_, h.maxfd, hn31⟩
    · simp [LoopyLoop.growTo, h.state]
    · have hmask := h.masks i
      simp only [LoopyLoop.growTo]
      split
      · rfl
      · exact hmask

/-- A dead loop stays dead. -/
theorem Dead.effect (h : Dead l) (he : TableEffect A env l c b l') : Dead l' := by
  cases he with
  | register _ _ hg _ _ hs _ _ => simp [(h.grown hg).state] at hs
  | refuse _ _ hg _ hs _ => simp [(h.grown hg).state] at hs
  | taken _ hg => exact h.grown hg
  | unregister _ _ hmask _ => exact absurd (h.masks _) hmask
  | absent => exact h
  | resize hg => exact h.grown hg

/-! ### Steps of the machine -/

/-- The tables are the same, and the adapter is there if it was. -/
structure SameTables (l l' : LoopyLoop σ) : Prop where
  events : l'.events = l.events
  fdHeap : l'.fdHeap = l.fdHeap
  setSize : l'.setSize = l.setSize
  maxfd : l'.maxfd = l.maxfd
  state : l'.state.isSome = l.state.isSome

theorem Live.same (h : Live l) (hs : SameTables l l') : Live l' := by
  obtain ⟨hstate, ⟨h1, h2, h3⟩, h4, h5, h6, h7, -⟩ := h
  obtain ⟨hevents, hheap, hsize, hmax, hisSome⟩ := hs
  refine ⟨hisSome.trans hstate, ⟨?_, ?_, ?_⟩, ?_, ?_, ?_, ?_, fun _ _ => rfl⟩ <;>
    simp only [LoopyLoop.withoutBatch, hevents, hheap, hsize, hmax] <;> assumption

theorem Dead.same (h : Dead l) (hs : SameTables l l') : Dead l' where
  state := Option.isNone_iff_eq_none.mp (by simp [← Option.not_isSome, hs.state, h.state])
  masks := hs.events ▸ h.masks
  maxfd := hs.maxfd.trans h.maxfd
  lt := hs.setSize ▸ h.lt

/-- A loop that runs can meet: in use, or deleted. -/
def Known (l : LoopyLoop σ) : Prop := Live l ∨ Dead l

theorem Known.same (h : Known l) (hs : SameTables l l') : Known l' :=
  h.imp (fun h => h.same hs) fun h => h.same hs

/-- A loop is live or dead. -/
theorem Known.effect (h : Known l) (he : TableEffect A env l c b l') : Known l' :=
  h.imp (fun h => h.effect he) fun h => h.effect he

theorem Known.usable (h : Known l) (hsize : 1 ≤ l.setSize) : Usable l :=
  h.elim Live.usable fun h => h.usable hsize

/-- It is so after every step of the machine. -/
theorem Known.step {poll : π → ℕ → σ → List LoopyFiredEvent × σ} {m m' : Machine σ}
    {i : Input ε π} (h : Known m.loop) (hstep : m.step A poll i = some m') : Known m'.loop := by
  have hsame : SameTables m.loop m.loop := ⟨rfl, rfl, rfl, rfl, rfl⟩
  cases Machine.step_inv hstep with
  | table _ heff => exact h.effect heff
  | control _ _ _ hl =>
    obtain ⟨stop, before, after, timer, -, rfl⟩ := hl
    exact h.same ⟨rfl, rfl, rfl, rfl, rfl⟩
  | deletePending => exact h.same ⟨rfl, rfl, rfl, rfl, rfl⟩
  | deleteNow => exact .inr .zero
  | exitDelete => exact .inr .zero
  | enter => exact h.same ⟨rfl, rfl, rfl, rfl, rfl⟩
  | started => exact h.same ⟨rfl, rfl, rfl, rfl, rfl⟩
  | polled _ _ hs => exact h.same ⟨rfl, rfl, rfl, rfl, by rw [hs]; rfl⟩
  | leave => exact h.same ⟨rfl, rfl, rfl, rfl, rfl⟩
  | _ => exact h

/-- After any run a call on a descriptor returns, with its table accesses in bounds, exactly if the
descriptor is not negative and, to be registered, is passed by a doubling of the table of a loop that
has its adapter. -/
theorem descriptors_safe (A : Adapter σ ε) (poll : π → ℕ → σ → List LoopyFiredEvent × σ)
    (n : ℕ) (hn : 1 ≤ n) (hn31 : n < 2 ^ 31) (addr : ℕ) (allocated : Bool) (is : List (Input ε π))
    (m : Machine σ)
    (hrun : Run (Machine.step A poll) (fun _ _ => True)
      (.start { LoopyLoop.fresh A n addr with allocated := allocated }) is m)
    (hsize : 1 ≤ m.loop.setSize) (env : Env ε) (c : DescriptorCall) :
    c.returns A env m.loop = true ↔ c.Safe m.loop := by
  have hknown : Known m.loop :=
    hrun.invariant (P := fun m => Known m.loop) (fun _ _ _ h _ hstep => h.step hstep)
      (.inl (.fresh hn hn31 addr allocated))
  exact DescriptorCall.returns_iff (hknown.usable hsize) c

end

/-- On a loop of one entry that has registered descriptor 2, descriptor 7 can be registered. -/
theorem descriptors_safe_run :
    ∃ m, Run epollStep (fun _ _ => True) (epollStart 1 1 false)
      [.call (.table (.registerRead 2 5 9)) ⟨2, true⟩] m ∧ m.loop.setSize = 4 ∧
      (DescriptorCall.registerWrite 7 5 9).returns epollAdapter ⟨3, true⟩ m.loop = true := by
  have hexec : (exec epollStep (fun _ _ => True) (epollStart 1 1 false)
      [.call (.table (.registerRead 2 5 9)) ⟨2, true⟩]).map
        (fun m => (m.loop.setSize, m.loop.state.isSome)) = some (4, true) := by decide +kernel
  obtain ⟨m, hrun, hend⟩ := Run.of_exec_map hexec
  obtain ⟨hsize, hstate⟩ := Prod.mk.inj hend
  refine ⟨m, hrun, hsize, ?_⟩
  rw [descriptors_safe epollAdapter loopyInternalPoll 1 (by decide) (by decide) 1 false _ m hrun
    (by omega)]
  exact ⟨hstate, by decide, 1, by rw [hsize]; decide⟩

/-- On a fresh loop of 16 entries unregistering -1 leaves the table and registering `2 ^ 30` never
returns. -/
theorem descriptors_unsafe :
    (DescriptorCall.unregisterRead (-1)).returns epollAdapter ⟨3, true⟩
      (epollStart 16 1 false).loop = false ∧
    (DescriptorCall.registerRead (2 ^ 30) 5 9).returns epollAdapter ⟨3, true⟩
      (epollStart 16 1 false).loop = false := by
  decide +kernel

end Loopy.EventLoop
