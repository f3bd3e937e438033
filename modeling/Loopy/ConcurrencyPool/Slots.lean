import Loopy.Lib.Run
import Loopy.Lib.Total

/-!
# `loopyConcurrencyPool.c`: slots

The threads of a `loopyConcurrencyPool` as a machine of atomic actions over `globalActive` and
the `active` counters of the users, `size_t`s all of them. `T` names the threads and `U` the
users, told apart by their addresses. A weak compare-exchange may fail for no reason; peaks and
statistics are left out. `wrapped` records that a counter was ever carried past its range.

An acquisition reserves global slots first and user slots second, a release gives them back in
the opposite order. In between a thread holds global slots that no user has: `globalActive` is
what the users have and what the threads hold (`PoolInv`).
-/

namespace Loopy.ConcurrencyPool

open Loopy.Lib
open Function (update update_eq_self update_of_ne update_self)

/-! ## The machine -/

/-- Where a thread is in its call, with the user and the `count`. -/
inductive Pc (U : Type)
  | idle
  /-- `loopyConcurrencyUserTryAcquire`, at the load of `globalActive`. -/
  | loadGlobal (u : U) (count : ℕ)
  /-- There was room for `count` above `globalActive`. -/
  | casGlobal (u : U) (count globalActive : ℕ)
  /-- At the load of `user->active`. -/
  | loadUser (u : U) (count : ℕ)
  /-- There was room for `count` above `active`. -/
  | casUser (u : U) (count active : ℕ)
  /-- The user's limit is reached. -/
  | rollback (u : U) (count : ℕ)
  /-- Without a global limit the global counter comes last. -/
  | addGlobal (u : U) (count : ℕ)
  /-- `loopyConcurrencyUserRelease`, at the load of `user->active`. -/
  | loadRelease (u : U) (count : ℕ)
  | casRelease (u : U) (count active : ℕ)
  /-- `loopyConcurrencyUserReleaseAll`, before its exchange. -/
  | exchange (u : U)
  /-- The user has given back `count` slots. -/
  | subGlobal (u : U) (count : ℕ)
  /-- `loopyConcurrencyPoolRemoveUser` has the lock and has found the user. -/
  | removeLoad (u : U)
  | removeSub (u : U) (active : ℕ)
  | raxRemove (u : U)
  | removeUnlock
deriving DecidableEq, Repr

/-- The user that a call works on. -/
def Pc.user {U : Type} : Pc U → Option U
  | .idle | .removeUnlock => none
  | .loadGlobal u _ | .casGlobal u _ _ | .loadUser u _ | .casUser u _ _ | .rollback u _
  | .addGlobal u _ | .loadRelease u _ | .casRelease u _ _ | .exchange u | .subGlobal u _
  | .removeLoad u | .removeSub u _ | .raxRemove u => some u

/-- The user that a call removes. -/
def Pc.removing {U : Type} : Pc U → Option U
  | .removeLoad u | .removeSub u _ | .raxRemove u => some u
  | _ => none

/-- The thread has the lock. -/
def Pc.locked {U : Type} : Pc U → Bool
  | .removeLoad _ | .removeSub .. | .raxRemove _ | .removeUnlock => true
  | _ => false

/-- The user whose slots a removal has given back, while it is still registered. -/
def Pc.gone {U : Type} : Pc U → Finset U
  | .raxRemove u => {u}
  | _ => ∅

/-- The global slots that a thread holds for no user. -/
def Pc.held {U : Type} : Pc U → ℕ
  | .loadUser _ count | .casUser _ count _ | .rollback _ count | .subGlobal _ count => count
  | _ => 0

/-- `loopyConcurrencyPool`, its users with their limits, and its threads. -/
structure LoopyConcurrencyPool (T U : Type) where
  globalLimit : ℕ
  limit : U → ℕ
  users : Finset U
  active : U → ℕ
  globalActive : ℕ
  lock : Option T
  thread : T → Pc U
  wrapped : Bool

/-- A new pool. -/
def LoopyConcurrencyPool.fresh (T : Type) {U : Type} (globalLimit : ℕ) (limit : U → ℕ) :
    LoopyConcurrencyPool T U :=
  { globalLimit
    limit
    users := ∅
    active := fun _ => 0
    globalActive := 0
    lock := none
    thread := fun _ => .idle
    wrapped := false }

/-- The actions: calls, and the atomic actions of a thread. -/
inductive Action (T U : Type)
  | addUser (u : U)
  | tryAcquire (t : T) (u : U) (count : ℕ)
  | release (t : T) (u : U) (count : ℕ)
  | releaseAll (t : T) (u : U)
  | removeUser (t : T) (u : U)
  | load (t : T)
  | compareExchange (t : T)
  | compareExchangeSpurious (t : T)
  | exchange (t : T)
  | fetchAdd (t : T)
  | fetchSub (t : T)
  | raxRemove (t : T)
  | unlock (t : T)
deriving DecidableEq, Repr

/-- `x + count` on `size_t`. -/
def sizeAdd (x count : ℕ) : ℕ := (x + count) % 2 ^ 64

/-- `x - count` on `size_t`. -/
def sizeSub (x count : ℕ) : ℕ := (x + (2 ^ 64 - count)) % 2 ^ 64

variable {T U : Type} [DecidableEq T] [DecidableEq U]

namespace LoopyConcurrencyPool

/-- The thread `t` moves to `pc`. -/
def move (s : LoopyConcurrencyPool T U) (t : T) (pc : Pc U) :
    LoopyConcurrencyPool T U :=
  { s with thread := update s.thread t pc }

/-- `globalActive := x + count`. -/
def setGlobal (s : LoopyConcurrencyPool T U) (x count : ℕ) :
    LoopyConcurrencyPool T U :=
  { s with globalActive := sizeAdd x count, wrapped := s.wrapped || decide (2 ^ 64 ≤ x + count) }

/-- `atomic_fetch_sub(&pool->globalActive, count)`. -/
def subGlobal (s : LoopyConcurrencyPool T U) (count : ℕ) :
    LoopyConcurrencyPool T U :=
  { s with
    globalActive := sizeSub s.globalActive count
    wrapped := s.wrapped || decide (s.globalActive < count) }

/-- `user->active := x + count`. -/
def addActive (s : LoopyConcurrencyPool T U) (u : U) (x count : ℕ) :
    LoopyConcurrencyPool T U :=
  { s with
    active := update s.active u (sizeAdd x count)
    wrapped := s.wrapped || decide (2 ^ 64 ≤ x + count) }

/-- `user->active := x - count`. -/
def subActive (s : LoopyConcurrencyPool T U) (u : U) (x count : ℕ) :
    LoopyConcurrencyPool T U :=
  { s with
    active := update s.active u (sizeSub x count)
    wrapped := s.wrapped || decide (x < count) }

end LoopyConcurrencyPool

/-- One action. -/
def step (s : LoopyConcurrencyPool T U) : Action T U → Option (LoopyConcurrencyPool T U)
  | .addUser u =>
    if u ∉ s.users ∧ s.lock = none then
      some { s with users := insert u s.users, active := update s.active u 0 }
    else none
  | .tryAcquire t u count =>
    if s.thread t = .idle then
      if count = 0 then some s
      else if s.globalLimit > 0 then some (s.move t (.loadGlobal u count))
      else some (s.move t (.loadUser u count))
    else none
  | .release t u count =>
    if s.thread t = .idle then
      if count = 0 then some s else some (s.move t (.loadRelease u count))
    else none
  | .releaseAll t u => if s.thread t = .idle then some (s.move t (.exchange u)) else none
  | .removeUser t u =>
    if s.thread t = .idle ∧ s.lock = none then
      if u ∈ s.users then some { s.move t (.removeLoad u) with lock := some t } else some s
    else none
  | .load t =>
    match s.thread t with
    | .loadGlobal u count =>
      if sizeAdd s.globalActive count > s.globalLimit then some (s.move t .idle)
      else some (s.move t (.casGlobal u count s.globalActive))
    | .loadUser u count =>
      if sizeAdd (s.active u) count > s.limit u then
        if s.globalLimit > 0 then some (s.move t (.rollback u count)) else some (s.move t .idle)
      else some (s.move t (.casUser u count (s.active u)))
    | .loadRelease u count =>
      let count := if count > s.active u then s.active u else count
      if count = 0 then some (s.move t .idle)
      else some (s.move t (.casRelease u count (s.active u)))
    | .removeLoad u => some (s.move t (.removeSub u (s.active u)))
    | _ => none
  | .compareExchange t =>
    match s.thread t with
    | .casGlobal u count globalActive =>
      if s.globalActive = globalActive then
        some ((s.move t (.loadUser u count)).setGlobal globalActive count)
      else some (s.move t (.loadGlobal u count))
    | .casUser u count active =>
      if s.active u = active then
        some ((s.move t (if s.globalLimit = 0 then .addGlobal u count else .idle)).addActive u
          active count)
      else some (s.move t (.loadUser u count))
    | .casRelease u count active =>
      if s.active u = active then
        some ((s.move t (.subGlobal u count)).subActive u active count)
      else some (s.move t (.loadRelease u count))
    | _ => none
  | .compareExchangeSpurious t =>
    match s.thread t with
    | .casGlobal u count _ => some (s.move t (.loadGlobal u count))
    | .casUser u count _ => some (s.move t (.loadUser u count))
    | .casRelease u count _ => some (s.move t (.loadRelease u count))
    | _ => none
  | .exchange t =>
    match s.thread t with
    | .exchange u =>
      let s' := { s with active := update s.active u 0 }
      if s.active u > 0 then some (s'.move t (.subGlobal u (s.active u)))
      else some (s'.move t .idle)
    | _ => none
  | .fetchAdd t =>
    match s.thread t with
    | .addGlobal _ count => some ((s.move t .idle).setGlobal s.globalActive count)
    | _ => none
  | .fetchSub t =>
    match s.thread t with
    | .rollback _ count | .subGlobal _ count => some ((s.move t .idle).subGlobal count)
    | .removeSub u active =>
      if active > 0 then some ((s.move t (.raxRemove u)).subGlobal active)
      else some (s.move t (.raxRemove u))
    | _ => none
  | .raxRemove t =>
    match s.thread t with
    | .raxRemove u => some { s.move t .removeUnlock with users := s.users.erase u }
    | _ => none
  | .unlock t =>
    if s.thread t = .removeUnlock then some { s.move t .idle with lock := none } else none

/-! ## The accounts -/

/-- The user whose slots a removal has given back already. -/
def LoopyConcurrencyPool.gone (s : LoopyConcurrencyPool T U) : Finset U :=
  match s.lock with
  | some t => (s.thread t).gone
  | none => ∅

/-- What the pool promises of a state. -/
structure PoolLaw (s : LoopyConcurrencyPool T U) : Prop where
  sum_le : ∑ u ∈ s.users \ s.gone, s.active u ≤ s.globalActive
  global_le : s.globalActive ≤ s.globalLimit
  user_le : ∀ u ∈ s.users, s.active u ≤ s.limit u
  no_wrap : s.wrapped = false
  settled : (∀ t, s.thread t = .idle) → s.globalActive = ∑ u ∈ s.users, s.active u

/-- The sum that a load is about to compute is below `2 ^ 64`. -/
def SumFits (s : LoopyConcurrencyPool T U) : Pc U → Prop
  | .loadGlobal _ count => s.globalActive + count < 2 ^ 64
  | .loadUser u count => s.active u + count < 2 ^ 64
  | _ => True

/-- How the pool is used: no sum with a `count` reaches `2 ^ 64`, calls are on registered users,
and a user is removed while no operation on it is in progress. -/
def Admitted (s : LoopyConcurrencyPool T U) : Action T U → Prop
  | .load t => SumFits s (s.thread t)
  | .tryAcquire _ u _ | .release _ u _ | .releaseAll _ u =>
    u ∈ s.users ∧ ∀ t, (s.thread t).removing ≠ some u
  | .removeUser _ u => ∀ t, (s.thread t).user ≠ some u
  | _ => True

instance (s : LoopyConcurrencyPool T U) : ∀ pc, Decidable (SumFits s pc)
  | .loadGlobal _ count => inferInstanceAs (Decidable (s.globalActive + count < 2 ^ 64))
  | .loadUser u count => inferInstanceAs (Decidable (s.active u + count < 2 ^ 64))
  | .idle | .casGlobal .. | .casUser .. | .rollback .. | .addGlobal .. | .loadRelease ..
  | .casRelease .. | .exchange _ | .subGlobal .. | .removeLoad _ | .removeSub .. | .raxRemove _
  | .removeUnlock => isTrue trivial

instance [Fintype T] (s : LoopyConcurrencyPool T U) : ∀ a, Decidable (Admitted s a)
  | .load t => inferInstanceAs (Decidable (SumFits s (s.thread t)))
  | .tryAcquire .. | .release .. | .releaseAll .. =>
    inferInstanceAs (Decidable (_ ∧ _))
  | .removeUser _ u => inferInstanceAs (Decidable (∀ t, (s.thread t).user ≠ some u))
  | .addUser _ | .compareExchange _ | .compareExchangeSpurious _ | .exchange _ | .fetchAdd _
  | .fetchSub _ | .raxRemove _ | .unlock _ => isTrue trivial

/-! ## What an action does -/

variable {x count : ℕ} {s s' : LoopyConcurrencyPool T U} {u : U} {t : T} {pc : Pc U}
  {thread : T → Pc U}

theorem sizeAdd_eq (h : x + count < 2 ^ 64) : sizeAdd x count = x + count :=
  Nat.mod_eq_of_lt h

theorem sizeSub_eq (hx : x < 2 ^ 64) (h : count ≤ x) : sizeSub x count = x - count := by
  unfold sizeSub
  omega

/-- Nothing is recorded of a counter that stays in its range. -/
theorem unrecorded {p : Prop} [Decidable p] (h : ¬ p) (b : Bool) : (b || decide p) = b := by
  rw [decide_eq_false h, Bool.or_false]

omit [DecidableEq T] [DecidableEq U] in
theorem LoopyConcurrencyPool.setGlobal_eq (h : x + count < 2 ^ 64) :
    s.setGlobal x count = { s with globalActive := x + count } := by
  rw [LoopyConcurrencyPool.setGlobal, sizeAdd_eq h, unrecorded (Nat.not_le.mpr h)]

omit [DecidableEq T] [DecidableEq U] in
theorem LoopyConcurrencyPool.subGlobal_eq (hs : s.globalActive < 2 ^ 64)
    (h : count ≤ s.globalActive) :
    s.subGlobal count = { s with globalActive := s.globalActive - count } := by
  rw [LoopyConcurrencyPool.subGlobal, sizeSub_eq hs h, unrecorded (Nat.not_lt.mpr h)]

omit [DecidableEq T] in
theorem LoopyConcurrencyPool.addActive_eq (h : x + count < 2 ^ 64) :
    s.addActive u x count = { s with active := update s.active u (x + count) } := by
  rw [LoopyConcurrencyPool.addActive, sizeAdd_eq h, unrecorded (Nat.not_le.mpr h)]

omit [DecidableEq T] in
theorem LoopyConcurrencyPool.subActive_eq (hx : x < 2 ^ 64) (h : count ≤ x) :
    s.subActive u x count = { s with active := update s.active u (x - count) } := by
  rw [LoopyConcurrencyPool.subActive, sizeSub_eq hx h, unrecorded (Nat.not_lt.mpr h)]

/-- What a thread knows at its place: there was room for what it is about to add, and what it
is about to take away is there. -/
def PcInv (s : LoopyConcurrencyPool T U) : Pc U → Prop
  | .casGlobal _ count globalActive =>
    globalActive + count ≤ s.globalLimit ∧ globalActive + count < 2 ^ 64
  | .casUser u count active => active + count ≤ s.limit u ∧ active + count < 2 ^ 64
  | .casRelease _ count active => count ≤ active
  | .removeSub u active => active = s.active u
  | .addGlobal .. => False
  | _ => True

/-- The user can be worked on. -/
def Usable (s : LoopyConcurrencyPool T U) (u : U) : Prop :=
  u ∈ s.users ∧ ∀ t, (s.thread t).removing ≠ some u

/-- The effect of an action on a pool with a global limit. -/
inductive Effect (s : LoopyConcurrencyPool T U) : LoopyConcurrencyPool T U → Prop
  | stays : Effect s s
  | registers (u : U) (hu : u ∉ s.users) (hlock : s.lock = none) :
      Effect s { s with users := insert u s.users, active := update s.active u 0 }
  | moves (t : T) (pc : Pc U) (hheld : pc.held = (s.thread t).held)
      (ht : (s.thread t).locked = false) (hpc : pc.locked = false)
      (huser : ∀ u, pc.user = some u → (s.thread t).user = some u ∨ Usable s u)
      (hinv : PcInv s pc) : Effect s (s.move t pc)
  | reserves (t : T) (u : U) (count : ℕ) (ht : s.thread t = .casGlobal u count s.globalActive) :
      Effect s { s.move t (.loadUser u count) with globalActive := s.globalActive + count }
  | takes (t : T) (u : U) (count : ℕ) (ht : s.thread t = .casUser u count (s.active u)) :
      Effect s { s.move t .idle with active := update s.active u (s.active u + count) }
  | gives (t : T) (u : U) (count : ℕ) (hheld : (s.thread t).held = 0)
      (ht : (s.thread t).locked = false) (huser : (s.thread t).user = some u)
      (hle : count ≤ s.active u) :
      Effect s { s.move t (.subGlobal u count) with
        active := update s.active u (s.active u - count) }
  | returns (t : T) (count : ℕ) (hheld : (s.thread t).held = count)
      (ht : (s.thread t).locked = false) :
      Effect s { s.move t .idle with globalActive := s.globalActive - count }
  | locks (t : T) (u : U) (ht : s.thread t = .idle) (hlock : s.lock = none) (hu : u ∈ s.users)
      (hfree : ∀ t, (s.thread t).user ≠ some u) :
      Effect s { s.move t (.removeLoad u) with lock := some t }
  | loads (t : T) (u : U) (ht : s.thread t = .removeLoad u) :
      Effect s (s.move t (.removeSub u (s.active u)))
  | subs (t : T) (u : U) (ht : s.thread t = .removeSub u (s.active u)) :
      Effect s { s.move t (.raxRemove u) with globalActive := s.globalActive - s.active u }
  | erases (t : T) (u : U) (ht : s.thread t = .raxRemove u) :
      Effect s { s.move t .removeUnlock with users := s.users.erase u }
  | unlocks (t : T) (ht : s.thread t = .removeUnlock) :
      Effect s { s.move t .idle with lock := none }

section moves

variable {s : LoopyConcurrencyPool T U} {t : T} {u : U} {old pc : Pc U}

/-- A thread begins a call. -/
theorem Effect.begins (ht : s.thread t = .idle) (hheld : pc.held = 0) (hpc : pc.locked = false)
    (huser : pc.user = some u) (hok : Usable s u) (hinv : PcInv s pc) :
    Effect s (s.move t pc) := by
  refine .moves t pc (by rw [hheld, ht]; rfl) (by rw [ht]; rfl) hpc (fun v hv => .inr ?_) hinv
  rw [huser] at hv
  cases hv
  exact hok

/-- A thread goes on with its user. -/
theorem Effect.goesOn (ht : s.thread t = old) (hheld : pc.held = old.held)
    (hold : old.locked = false) (hpc : pc.locked = false) (huser : pc.user = old.user)
    (hinv : PcInv s pc) : Effect s (s.move t pc) := by
  subst ht
  exact .moves t pc hheld hold hpc (fun u hu => .inl (by rwa [← huser])) hinv

/-- A thread that holds nothing ends its call. -/
theorem Effect.ends (ht : s.thread t = old) (hheld : old.held = 0) (hold : old.locked = false) :
    Effect s (s.move t .idle) := by
  subst ht
  exact .moves t .idle hheld.symm hold rfl nofun trivial

end moves

/-! ## The invariant -/

/-- Which user a thread works on and who has the lock. -/
structure Calls (users : Finset U) (lock : Option T) (thread : T → Pc U) : Prop where
  locked : ∀ t, (thread t).locked = true → lock = some t
  registered : ∀ t u, (thread t).user = some u → u ∈ users
  alone : ∀ t t' u, (thread t).removing = some u → (thread t').user = some u → t' = t

/-- The global counter is what the users have and what the threads hold. -/
structure PoolInv (s : LoopyConcurrencyPool T U) : Prop where
  limited : 0 < s.globalLimit
  global_le : s.globalActive ≤ s.globalLimit
  global_lt : s.globalActive < 2 ^ 64
  user_le : ∀ u ∈ s.users, s.active u ≤ s.limit u
  no_wrap : s.wrapped = false
  account : ∃ h, Total (fun t => (s.thread t).held) h ∧
    s.globalActive = ∑ u ∈ s.users \ s.gone, s.active u + h
  calls : Calls s.users s.lock s.thread
  pc : ∀ t, PcInv s (s.thread t)

omit [DecidableEq T] [DecidableEq U] in
/-- A removed user is in use by its remover only. -/
theorem Calls.usable (h : Calls s.users s.lock s.thread) (hu : (s.thread t).user = some u)
    (ht : (s.thread t).removing = none) : Usable s u := by
  refine ⟨h.registered t u hu, fun t' ht' => ?_⟩
  obtain rfl := h.alone t' t u ht' hu
  rw [ht] at ht'
  cases ht'

omit [DecidableEq T] [DecidableEq U] in
theorem Pc.removing_eq_none (h : pc.locked = false) : pc.removing = none := by
  cases pc <;> simp_all [Pc.locked, Pc.removing]

omit [DecidableEq T] [DecidableEq U] in
theorem Pc.gone_eq_empty (h : pc.locked = false) : pc.gone = ∅ := by
  cases pc <;> simp_all [Pc.locked, Pc.gone]

omit [DecidableEq T] in
/-- The user of a thread without the lock counts. -/
theorem PoolInv.mem_counted (h : PoolInv s) (hu : (s.thread t).user = some u)
    (ht : (s.thread t).locked = false) : u ∈ s.users \ s.gone := by
  have husable := h.calls.usable hu (Pc.removing_eq_none ht)
  rw [Finset.mem_sdiff]
  refine ⟨husable.1, fun hgone => ?_⟩
  unfold LoopyConcurrencyPool.gone at hgone
  split at hgone
  · next t' _ =>
    cases hpc : s.thread t' <;> simp only [hpc, Pc.gone, Finset.notMem_empty,
      Finset.mem_singleton] at hgone
    refine husable.2 t' ?_
    rw [hpc, hgone]
    rfl
  · simp at hgone

omit [DecidableEq T] in
/-- What a user has is part of what the global counter says. -/
theorem PoolInv.active_le (h : PoolInv s) (hu : u ∈ s.users \ s.gone) :
    s.active u ≤ s.globalActive := by
  obtain ⟨n, _, hglobal⟩ := h.account
  have hle := Finset.single_le_sum (f := s.active) (fun _ _ => Nat.zero_le _) hu
  omega

omit [DecidableEq T] in
/-- So is what a thread holds. -/
theorem PoolInv.held_le (h : PoolInv s) (t : T) : (s.thread t).held ≤ s.globalActive := by
  obtain ⟨n, htotal, hglobal⟩ := h.account
  have hle := htotal.le t
  omega

omit [DecidableEq T] in
/-- A user that is being removed counts until its slots are given back. -/
theorem PoolInv.mem_removed (h : PoolInv s) {active : ℕ} (ht : s.thread t = .removeSub u active) :
    u ∈ s.users \ s.gone := by
  have hlock : s.lock = some t := h.calls.locked t (by rw [ht]; rfl)
  have huser : (s.thread t).user = some u := by rw [ht]; rfl
  rw [LoopyConcurrencyPool.gone, hlock]
  simp [ht, Pc.gone, h.calls.registered t u huser]

/-- What is added to a load that left room does not wrap. -/
theorem load_effect (h : PoolInv s) (hok : Admitted s (.load t))
    (hstep : step s (.load t) = some s') : Effect s s' := by
  have hlim := h.limited
  rw [step] at hstep
  rw [Admitted] at hok
  split at hstep
  · next u count ht =>
    have hfits : s.globalActive + count < 2 ^ 64 := by rwa [ht] at hok
    rw [sizeAdd_eq hfits] at hstep
    split at hstep <;> cases hstep
    · exact .ends ht rfl rfl
    · next hroom => exact .goesOn ht rfl rfl rfl rfl ⟨Nat.not_lt.mp hroom, hfits⟩
  · next u count ht =>
    have hfits : s.active u + count < 2 ^ 64 := by rwa [ht] at hok
    rw [sizeAdd_eq hfits, if_pos hlim] at hstep
    split at hstep <;> cases hstep
    · exact .goesOn ht rfl rfl rfl rfl trivial
    · next hroom => exact .goesOn ht rfl rfl rfl rfl ⟨Nat.not_lt.mp hroom, hfits⟩
  · next u count ht =>
    -- a release gives back at most what the user has
    have hclamp : (if count > s.active u then s.active u else count) ≤ s.active u := by
      split <;> omega
    dsimp only at hstep
    generalize (if count > s.active u then s.active u else count) = given at hclamp hstep
    split at hstep <;> cases hstep
    · exact .ends ht rfl rfl
    · exact .goesOn ht rfl rfl rfl rfl hclamp
  · next u ht =>
    cases hstep
    exact .loads t u ht
  · cases hstep

/-- A compare-exchange takes effect on the value that was loaded. -/
theorem compareExchange_effect (h : PoolInv s) (hstep : step s (.compareExchange t) = some s') :
    Effect s s' := by
  have hlim := h.limited
  have hpc := h.pc t
  rw [step] at hstep
  split at hstep
  · next u count globalActive ht =>
    rw [ht] at hpc
    split at hstep <;> cases hstep
    · next heq =>
      subst heq
      -- the counter is the one that was tested
      rw [LoopyConcurrencyPool.setGlobal_eq hpc.2]
      exact .reserves t u count ht
    · exact .goesOn ht rfl rfl rfl rfl trivial
  · next u count active ht =>
    rw [ht] at hpc
    split at hstep <;> cases hstep
    · next heq =>
      subst heq
      rw [if_neg (Nat.pos_iff_ne_zero.mp hlim), LoopyConcurrencyPool.addActive_eq hpc.2]
      exact .takes t u count ht
    · exact .goesOn ht rfl rfl rfl rfl trivial
  · next u count active ht =>
    rw [ht] at hpc
    have hmem : u ∈ s.users \ s.gone := h.mem_counted (t := t) (by rw [ht]; rfl) (by rw [ht]; rfl)
    split at hstep <;> cases hstep
    · next heq =>
      subst heq
      rw [LoopyConcurrencyPool.subActive_eq ((h.active_le hmem).trans_lt h.global_lt) hpc]
      exact .gives t u count (by rw [ht]; rfl) (by rw [ht]; rfl) (by rw [ht]; rfl) hpc
    · exact .goesOn ht rfl rfl rfl rfl trivial
  · cases hstep

theorem exchange_effect (hstep : step s (.exchange t) = some s') : Effect s s' := by
  rw [step] at hstep
  split at hstep
  · next u ht =>
    have huser : (s.thread t).user = some u := by rw [ht]; rfl
    split at hstep <;> cases hstep
    · have hgives := Effect.gives t u (s.active u) (by rw [ht]; rfl) (by rw [ht]; rfl) huser le_rfl
      rw [Nat.sub_self] at hgives
      exact hgives
    · next hzero =>
      -- the user had none, and the exchange changed nothing
      have hsame : update s.active u 0 = s.active := by
        rw [← Nat.eq_zero_of_not_pos hzero, update_eq_self]
      rw [hsame]
      exact .ends ht rfl rfl
  · cases hstep

/-- A thread gives back what it holds. -/
theorem returns_effect {old : Pc U} (h : PoolInv s) (ht : s.thread t = old)
    (hheld : old.held = count) (hold : old.locked = false) :
    Effect s ((s.move t .idle).subGlobal count) := by
  subst ht
  have hle : count ≤ (s.move t .idle).globalActive := by
    rw [← hheld]
    exact h.held_le t
  rw [LoopyConcurrencyPool.subGlobal_eq (s := s.move t .idle) h.global_lt hle]
  exact .returns t count hheld hold

theorem fetchSub_effect (h : PoolInv s) (hstep : step s (.fetchSub t) = some s') : Effect s s' := by
  have hpc := h.pc t
  rw [step] at hstep
  split at hstep
  · next u count ht =>
    cases hstep
    exact returns_effect h ht rfl rfl
  · next u count ht =>
    cases hstep
    exact returns_effect h ht rfl rfl
  · next u active ht =>
    -- nobody has changed `active` since it was loaded: the remover is alone with the user
    rw [ht] at hpc
    subst hpc
    have heffect := Effect.subs t u ht
    split at hstep <;> cases hstep
    · rw [LoopyConcurrencyPool.subGlobal_eq (s := s.move t (.raxRemove u)) h.global_lt
        (h.active_le (h.mem_removed ht))]
      exact heffect
    · next hzero =>
      rw [Nat.eq_zero_of_not_pos hzero] at heffect
      exact heffect
  · cases hstep

theorem step_effect {a : Action T U} (h : PoolInv s) (hok : Admitted s a)
    (hstep : step s a = some s') : Effect s s' := by
  cases a with
  | addUser u =>
    obtain ⟨⟨hu, hlock⟩, rfl⟩ := of_guard hstep
    exact .registers u hu hlock
  | tryAcquire t u count =>
    obtain ⟨ht, hstep⟩ := Option.ite_none_right_eq_some.mp hstep
    rw [if_pos h.limited] at hstep
    split at hstep <;> cases hstep
    · exact .stays
    · exact .begins ht rfl rfl rfl hok trivial
  | release t u count =>
    obtain ⟨ht, hstep⟩ := Option.ite_none_right_eq_some.mp hstep
    split at hstep <;> cases hstep
    · exact .stays
    · exact .begins ht rfl rfl rfl hok trivial
  | releaseAll t u =>
    obtain ⟨ht, rfl⟩ := of_guard hstep
    exact .begins ht rfl rfl rfl hok trivial
  | removeUser t u =>
    obtain ⟨⟨ht, hlock⟩, hstep⟩ := Option.ite_none_right_eq_some.mp hstep
    split at hstep <;> cases hstep
    · next hu => exact .locks t u ht hlock hu hok
    · exact .stays
  | load t => exact load_effect h hok hstep
  | compareExchange t => exact compareExchange_effect h hstep
  | compareExchangeSpurious t =>
    rw [step] at hstep
    split at hstep
    · next ht =>
      cases hstep
      exact .goesOn ht rfl rfl rfl rfl trivial
    · next ht =>
      cases hstep
      exact .goesOn ht rfl rfl rfl rfl trivial
    · next ht =>
      cases hstep
      exact .goesOn ht rfl rfl rfl rfl trivial
    · cases hstep
  | exchange t => exact exchange_effect hstep
  | fetchAdd t =>
    have hpc := h.pc t
    rw [step] at hstep
    split at hstep
    · next u count ht =>
      rw [ht] at hpc
      -- `fetchAdd` is for pools without a global limit
      exact hpc.elim
    · cases hstep
  | fetchSub t => exact fetchSub_effect h hstep
  | raxRemove t =>
    rw [step] at hstep
    split at hstep
    · next u ht =>
      cases hstep
      exact .erases t u ht
    · cases hstep
  | unlock t =>
    obtain ⟨ht, rfl⟩ := of_guard hstep
    exact .unlocks t ht

/-! ## The invariant is kept -/

omit [DecidableEq U] in
/-- One thread moves; the lock and the users may change with it. -/
theorem Calls.update {users users' : Finset U} {lock lock' : Option T}
    (h : Calls users lock thread) (hlock : ∀ t' ≠ t, (thread t').locked = true → lock' = some t')
    (hpc : pc.locked = true → lock' = some t)
    (husers : ∀ t' ≠ t, ∀ u, (thread t').user = some u → u ∈ users')
    (huser : ∀ u, pc.user = some u → u ∈ users' ∧ ∀ t' ≠ t, (thread t').removing ≠ some u)
    (hfree : ∀ u, pc.removing = some u → ∀ t' ≠ t, (thread t').user ≠ some u) :
    Calls users' lock' (update thread t pc) := by
  refine ⟨?_, ?_, ?_⟩
  · rw [Function.forall_update_iff thread fun t' pc => pc.locked = true → lock' = some t']
    exact ⟨hpc, hlock⟩
  · rw [Function.forall_update_iff thread fun _ pc => ∀ u, pc.user = some u → u ∈ users']
    exact ⟨fun u hu => (huser u hu).1, husers⟩
  · intro t' t'' u ht' ht''
    by_cases heq : t' = t <;> by_cases heq' : t'' = t
    · rw [heq, heq']
    · subst heq
      rw [update_self] at ht'
      rw [update_of_ne heq'] at ht''
      exact absurd ht'' (hfree u ht' t'' heq')
    · subst heq'
      rw [update_of_ne heq] at ht'
      rw [update_self] at ht''
      exact absurd ht' ((huser u ht'').2 t' heq)
    · rw [update_of_ne heq] at ht'
      rw [update_of_ne heq'] at ht''
      exact h.alone t' t'' u ht' ht''

omit [DecidableEq U] in
/-- A thread without the lock goes on with its user, or takes one that nobody removes. -/
theorem Calls.move (h : Calls s.users s.lock s.thread) (ht : (s.thread t).locked = false)
    (hpc : pc.locked = false)
    (huser : ∀ u, pc.user = some u → (s.thread t).user = some u ∨ Usable s u) :
    Calls s.users s.lock (Function.update s.thread t pc) := by
  have husable : ∀ u, pc.user = some u → Usable s u := fun u hu =>
    (huser u hu).elim (fun hsame => h.usable hsame (Pc.removing_eq_none ht)) id
  refine h.update (fun t' _ => h.locked t') (fun hlocked => ?_) (fun t' _ => h.registered t')
    (fun u hu => ⟨(husable u hu).1, fun t' _ => (husable u hu).2 t'⟩) (fun u hu => ?_)
  · rw [hpc] at hlocked
    cases hlocked
  · rw [Pc.removing_eq_none hpc] at hu
    cases hu

omit [DecidableEq U] in
theorem LoopyConcurrencyPool.gone_move (ht : (s.thread t).locked = false)
    (hpc : pc.locked = false) : (s.move t pc).gone = s.gone := by
  unfold LoopyConcurrencyPool.gone LoopyConcurrencyPool.move
  cases s.lock with
  | none => rfl
  | some t' =>
    by_cases heq : t' = t
    · subst heq
      simp only [update_self, Pc.gone_eq_empty hpc, Pc.gone_eq_empty ht]
    · simp only [update_of_ne heq]

omit [DecidableEq U] in
/-- What the threads hold after a thread has moved. -/
theorem total_move {n : ℕ} (h : Total (fun t => (thread t).held) n) (t : T) (pc : Pc U) :
    Total (fun t' => (update thread t pc t').held) (n - (thread t).held + pc.held) := by
  have hcomp : (fun t' => (update thread t pc t').held) =
      update (fun t' => (thread t').held) t pc.held :=
    Function.comp_update Pc.held thread t pc
  rw [hcomp]
  exact h.update t pc.held

omit [DecidableEq U] in
theorem total_keep {n : ℕ} (h : Total (fun t => (thread t).held) n)
    (hpc : pc.held = (thread t).held) : Total (fun t' => (update thread t pc t').held) n := by
  have hle := h.le t
  have hmove := total_move h t pc
  rwa [hpc, Nat.sub_add_cancel hle] at hmove

omit [DecidableEq T] [DecidableEq U] in
/-- What a thread knows depends on the limits and on the user that it removes. -/
theorem PcInv.frame (h : PcInv s pc) (hglobal : s'.globalLimit = s.globalLimit)
    (hlimit : s'.limit = s.limit) (hactive : ∀ u, pc.removing = some u → s'.active u = s.active u) :
    PcInv s' pc := by
  cases pc with
  | casGlobal u count globalActive =>
    simp only [PcInv, hglobal] at h ⊢
    exact h
  | casUser u count active =>
    simp only [PcInv, hlimit] at h ⊢
    exact h
  | removeSub u active =>
    simp only [PcInv, hactive u rfl] at h ⊢
    exact h
  | casRelease | addGlobal => exact h
  | idle | loadGlobal | loadUser | rollback | loadRelease | exchange | subGlobal | removeLoad
  | raxRemove | removeUnlock => trivial

omit [DecidableEq T] [DecidableEq U] in
theorem Pc.user_of_removing (h : pc.removing = some u) : pc.user = some u := by
  cases pc <;> simp_all [Pc.removing, Pc.user]

/-- The other threads know what they knew when `t` has changed at most its own user. -/
theorem PoolInv.pc_move (h : PoolInv s) (hglobal : s'.globalLimit = s.globalLimit)
    (hlimit : s'.limit = s.limit) (hthread : s'.thread = update s.thread t pc)
    (hactive : ∀ u, (s.thread t).user ≠ some u → s'.active u = s.active u) (hpc : PcInv s' pc) :
    ∀ t', PcInv s' (s'.thread t') := by
  rw [hthread, Function.forall_update_iff s.thread fun _ pc => PcInv s' pc]
  refine ⟨hpc, fun t' hne => (h.pc t').frame hglobal hlimit fun u hu => hactive u fun hu' => ?_⟩
  exact hne (h.calls.alone t' t u hu hu').symm

/-- A thread without the lock moves, holds `held` afterwards, and `globalActive` and the slots of
its user change so that the account stays balanced. -/
theorem PoolInv.move (h : PoolInv s) (t : T) (pc : Pc U) (active : U → ℕ) (globalActive : ℕ)
    (ht : (s.thread t).locked = false) (hpc : pc.locked = false)
    (huser : ∀ u, pc.user = some u → (s.thread t).user = some u ∨ Usable s u)
    (hactive : ∀ u, (s.thread t).user ≠ some u → active u = s.active u)
    (hbalance : globalActive + (s.thread t).held + ∑ u ∈ s.users \ s.gone, s.active u =
      s.globalActive + pc.held + ∑ u ∈ s.users \ s.gone, active u)
    (hle : globalActive ≤ s.globalLimit) (hlt : globalActive < 2 ^ 64)
    (hlimit : ∀ u ∈ s.users, active u ≤ s.limit u)
    (hinv : PcInv { s.move t pc with active, globalActive } pc) :
    PoolInv { s.move t pc with active, globalActive } where
  limited := h.limited
  global_le := hle
  global_lt := hlt
  user_le := hlimit
  no_wrap := h.no_wrap
  account := by
    obtain ⟨n, htotal, hglobal⟩ := h.account
    have hheld := htotal.le t
    refine ⟨_, total_move htotal t pc, ?_⟩
    have hgone : LoopyConcurrencyPool.gone { s.move t pc with active, globalActive } = s.gone :=
      LoopyConcurrencyPool.gone_move ht hpc
    rw [hgone]
    show globalActive = ∑ u ∈ s.users \ s.gone, active u + (n - (s.thread t).held + pc.held)
    omega
  calls := h.calls.move ht hpc huser
  pc := h.pc_move rfl rfl rfl hactive hinv

omit [DecidableEq T] in
/-- The slots of a user of a thread without the lock change, and with them the sum. -/
theorem PoolInv.sum_active (h : PoolInv s) (hu : (s.thread t).user = some u)
    (ht : (s.thread t).locked = false) (x : ℕ) :
    ∑ v ∈ s.users \ s.gone, update s.active u x v + s.active u =
      ∑ v ∈ s.users \ s.gone, s.active v + x :=
  sum_update s.active (h.mem_counted hu ht) x

omit [DecidableEq T] in
/-- A change within the limit of the user. -/
theorem PoolInv.user_update (h : PoolInv s) (hx : x ≤ s.limit u) :
    ∀ v ∈ s.users, update s.active u x v ≤ s.limit v := by
  intro v hv
  by_cases heq : v = u
  · subst heq
    rwa [update_self]
  · rw [update_of_ne heq]
    exact h.user_le v hv

omit [DecidableEq T] in
/-- A new user has no slots. -/
theorem PoolInv.registers (h : PoolInv s) (hu : u ∉ s.users) (hlock : s.lock = none) :
    PoolInv { s with users := insert u s.users, active := update s.active u 0 } where
  limited := h.limited
  global_le := h.global_le
  global_lt := h.global_lt
  user_le := by
    intro v hv
    rcases Finset.mem_insert.mp hv with rfl | hv
    · show update s.active v 0 v ≤ s.limit v
      rw [update_self]
      exact Nat.zero_le _
    · exact h.user_update (Nat.zero_le _) v hv
  no_wrap := h.no_wrap
  account := by
    obtain ⟨n, htotal, hglobal⟩ := h.account
    refine ⟨n, htotal, ?_⟩
    simp only [LoopyConcurrencyPool.gone, hlock, Finset.sdiff_empty] at hglobal ⊢
    have hsame : ∑ v ∈ s.users, update s.active u 0 v = ∑ v ∈ s.users, s.active v :=
      Finset.sum_congr rfl fun v hv => update_of_ne (ne_of_mem_of_not_mem hv hu) _ _
    rw [Finset.sum_insert hu, update_self, hsame, Nat.zero_add]
    exact hglobal
  calls :=
    ⟨h.calls.locked, fun t v hv => Finset.mem_insert_of_mem (h.calls.registered t v hv),
      h.calls.alone⟩
  pc := by
    intro t
    refine (h.pc t).frame rfl rfl fun v hv => update_of_ne ?_ _ _
    rintro rfl
    exact hu (h.calls.registered t v (Pc.user_of_removing hv))

/-- A removal begins. -/
theorem PoolInv.locks (h : PoolInv s) (ht : s.thread t = .idle) (hlock : s.lock = none)
    (hu : u ∈ s.users) (hfree : ∀ t, (s.thread t).user ≠ some u) :
    PoolInv { s.move t (.removeLoad u) with lock := some t } where
  limited := h.limited
  global_le := h.global_le
  global_lt := h.global_lt
  user_le := h.user_le
  no_wrap := h.no_wrap
  account := by
    obtain ⟨n, htotal, hglobal⟩ := h.account
    refine ⟨n, total_keep htotal (by rw [ht]; rfl), ?_⟩
    simp only [LoopyConcurrencyPool.gone, hlock] at hglobal
    simpa only [LoopyConcurrencyPool.gone, LoopyConcurrencyPool.move, update_self, Pc.gone]
      using hglobal
  calls := by
    refine h.calls.update (fun t' _ ht' => ?_) (fun _ => rfl) (fun t' _ => h.calls.registered t')
      (fun v hv => ?_) (fun v hv t' _ => ?_)
    · rw [h.calls.locked t' ht'] at hlock
      cases hlock
    · cases hv
      exact ⟨hu, fun t' _ ht' => hfree t' (Pc.user_of_removing ht')⟩
    · cases hv
      exact hfree t'
  pc := h.pc_move rfl rfl rfl (fun _ _ => rfl) trivial

omit [DecidableEq T] [DecidableEq U] in
/-- Nobody but the remover has the lock. -/
theorem Calls.not_locked {users : Finset U} {lock : Option T} (h : Calls users lock thread)
    (ht : (thread t).locked = true) {t' : T} (hne : t' ≠ t) {p : Prop}
    (ht' : (thread t').locked = true) : p := by
  have hlock := h.locked t ht
  rw [h.locked t' ht'] at hlock
  exact absurd (Option.some.inj hlock) hne

/-- A removal goes on: the slots of the user count until `globalActive` is lowered by them. -/
theorem PoolInv.removes (h : PoolInv s) (pc : Pc U) (globalActive : ℕ)
    (hu : (s.thread t).removing = some u) (ht : (s.thread t).locked = true)
    (hheld : pc.held = (s.thread t).held) (huser : pc.user = some u)
    (hbalance : globalActive + ∑ v ∈ s.users \ (s.thread t).gone, s.active v =
      s.globalActive + ∑ v ∈ s.users \ pc.gone, s.active v)
    (hle : globalActive ≤ s.globalActive) (hinv : PcInv s pc) :
    PoolInv { s.move t pc with globalActive } where
  limited := h.limited
  global_le := hle.trans h.global_le
  global_lt := hle.trans_lt h.global_lt
  user_le := h.user_le
  no_wrap := h.no_wrap
  account := by
    have hlock := h.calls.locked t ht
    obtain ⟨n, htotal, hglobal⟩ := h.account
    refine ⟨n, total_keep htotal hheld, ?_⟩
    simp only [LoopyConcurrencyPool.gone, hlock] at hglobal
    simp only [LoopyConcurrencyPool.gone, LoopyConcurrencyPool.move, hlock, update_self]
    omega
  calls := by
    have hlock := h.calls.locked t ht
    refine h.calls.update (fun t' hne ht' => h.calls.not_locked ht hne ht') (fun _ => hlock)
      (fun t' _ => h.calls.registered t') (fun v hv => ?_) (fun v hv t' hne hu' => ?_)
    · rw [huser] at hv
      cases hv
      exact ⟨h.calls.registered t u (Pc.user_of_removing hu), fun t' hne ht' =>
        hne (h.calls.alone t t' u hu (Pc.user_of_removing ht'))⟩
    · rw [Pc.user_of_removing hv] at huser
      cases huser
      exact hne (h.calls.alone t t' u hu hu')
  pc := h.pc_move rfl rfl rfl (fun _ _ => rfl) (hinv.frame rfl rfl fun _ _ => rfl)

/-- The user is gone from the tree. -/
theorem PoolInv.erases (h : PoolInv s) (ht : s.thread t = .raxRemove u) :
    PoolInv { s.move t .removeUnlock with users := s.users.erase u } where
  limited := h.limited
  global_le := h.global_le
  global_lt := h.global_lt
  user_le := fun v hv => h.user_le v (Finset.mem_of_mem_erase hv)
  no_wrap := h.no_wrap
  account := by
    have hlock := h.calls.locked t (by rw [ht]; rfl)
    obtain ⟨n, htotal, hglobal⟩ := h.account
    refine ⟨n, total_keep htotal (by rw [ht]; rfl), ?_⟩
    simp only [LoopyConcurrencyPool.gone, hlock, ht, Pc.gone, Finset.sdiff_singleton_eq_erase]
      at hglobal
    simpa only [LoopyConcurrencyPool.gone, LoopyConcurrencyPool.move, hlock, update_self,
      Pc.gone, Finset.sdiff_empty] using hglobal
  calls := by
    have hlocked : (s.thread t).locked = true := by rw [ht]; rfl
    refine h.calls.update (fun t' hne ht' => h.calls.not_locked hlocked hne ht')
      (fun _ => h.calls.locked t hlocked) (fun t' hne v hv => ?_) nofun nofun
    refine Finset.mem_erase.mpr ⟨?_, h.calls.registered t' v hv⟩
    rintro rfl
    exact hne (h.calls.alone t t' v (by rw [ht]; rfl) hv)
  pc := h.pc_move rfl rfl rfl (fun _ _ => rfl) trivial

/-- A removal is over. -/
theorem PoolInv.unlocks (h : PoolInv s) (ht : s.thread t = .removeUnlock) :
    PoolInv { s.move t .idle with lock := none } where
  limited := h.limited
  global_le := h.global_le
  global_lt := h.global_lt
  user_le := h.user_le
  no_wrap := h.no_wrap
  account := by
    have hlock := h.calls.locked t (by rw [ht]; rfl)
    obtain ⟨n, htotal, hglobal⟩ := h.account
    refine ⟨n, total_keep htotal (by rw [ht]; rfl), ?_⟩
    rw [LoopyConcurrencyPool.gone, hlock] at hglobal
    simp only [ht, Pc.gone] at hglobal
    exact hglobal
  calls := by
    have hlocked : (s.thread t).locked = true := by rw [ht]; rfl
    exact h.calls.update (fun t' hne ht' => h.calls.not_locked hlocked hne ht') nofun
      (fun t' _ => h.calls.registered t') nofun nofun
  pc := h.pc_move rfl rfl rfl (fun _ _ => rfl) trivial

theorem PoolInv.effect (h : PoolInv s) (he : Effect s s') : PoolInv s' := by
  cases he with
  | stays => exact h
  | registers u hu hlock => exact h.registers hu hlock
  | moves t pc hheld ht hpc huser hinv =>
    exact h.move t pc s.active s.globalActive ht hpc huser (fun _ _ => rfl) (by rw [hheld])
      h.global_le h.global_lt h.user_le hinv
  | reserves t u count ht =>
    have hinv : s.globalActive + count ≤ s.globalLimit ∧ s.globalActive + count < 2 ^ 64 := by
      have := h.pc t
      rwa [ht] at this
    refine h.move t _ s.active _ (by rw [ht]; rfl) rfl (fun v hv => .inl ?_) (fun _ _ => rfl) ?_
      hinv.1 hinv.2 h.user_le trivial
    · rw [ht]
      exact hv
    · rw [ht]
      show s.globalActive + count + 0 + _ = s.globalActive + count + _
      omega
  | takes t u count ht =>
    have hinv : s.active u + count ≤ s.limit u ∧ s.active u + count < 2 ^ 64 := by
      have := h.pc t
      rwa [ht] at this
    have hu : (s.thread t).user = some u := by rw [ht]; rfl
    have hunlocked : (s.thread t).locked = false := by rw [ht]; rfl
    have hsum := h.sum_active hu hunlocked (s.active u + count)
    refine h.move t .idle _ s.globalActive hunlocked rfl nofun
      (fun v hv => update_of_ne ?_ _ _) ?_ h.global_le h.global_lt
      (h.user_update hinv.1) trivial
    · rintro rfl
      exact hv hu
    · rw [ht]
      show s.globalActive + count + _ = s.globalActive + 0 + _
      omega
  | gives t u count hheld ht hu hle =>
    have hsum := h.sum_active hu ht (s.active u - count)
    have hlimit := h.user_le u (h.calls.registered t u hu)
    refine h.move t _ _ s.globalActive ht rfl (fun v hv => .inl ?_)
      (fun v hv => update_of_ne ?_ _ _) ?_ h.global_le h.global_lt
      (h.user_update (by omega)) trivial
    · rw [hu]
      exact hv
    · rintro rfl
      exact hv hu
    · rw [hheld]
      show s.globalActive + 0 + _ = s.globalActive + count + _
      omega
  | returns t count hheld ht =>
    have hle := h.held_le t
    have hglobal := h.global_le
    have hlt := h.global_lt
    refine h.move t .idle s.active _ ht rfl nofun (fun _ _ => rfl) ?_ (by omega) (by omega)
      h.user_le trivial
    show s.globalActive - count + _ + _ = s.globalActive + 0 + _
    omega
  | locks t u ht hlock hu hfree => exact h.locks ht hlock hu hfree
  | loads t u ht =>
    exact h.removes _ s.globalActive (by rw [ht]; rfl) (by rw [ht]; rfl) (by rw [ht]; rfl) rfl
      (by rw [ht]; rfl) le_rfl rfl
  | subs t u ht =>
    have hmem := h.mem_removed ht
    have hle := h.active_le hmem
    have hsum := Finset.add_sum_erase s.users s.active (Finset.mem_sdiff.mp hmem).1
    refine h.removes (.raxRemove u) _ (by rw [ht]; rfl) (by rw [ht]; rfl) (by rw [ht]; rfl) rfl ?_
      (Nat.sub_le _ _) trivial
    rw [ht]
    simp only [Pc.gone, Finset.sdiff_empty, Finset.sdiff_singleton_eq_erase]
    omega
  | erases t u ht => exact h.erases ht
  | unlocks t ht => exact h.unlocks ht

omit [DecidableEq T] in
theorem PoolInv.fresh {globalLimit : ℕ} (hlim : 0 < globalLimit) (limit : U → ℕ) :
    PoolInv (.fresh T globalLimit limit) where
  limited := hlim
  global_le := Nat.zero_le _
  global_lt := Nat.two_pow_pos 64
  user_le := nofun
  no_wrap := rfl
  account := ⟨0, Total.zero, rfl⟩
  calls := ⟨nofun, nofun, nofun⟩
  pc := fun _ => trivial

omit [DecidableEq T] in
theorem PoolInv.law (h : PoolInv s) : PoolLaw s := by
  obtain ⟨n, htotal, hglobal⟩ := h.account
  refine ⟨by omega, h.global_le, h.user_le, h.no_wrap, fun hidle => ?_⟩
  have hnone : n = 0 := htotal.eq_zero fun t => by rw [hidle t]; rfl
  have hgone : s.gone = ∅ := by
    unfold LoopyConcurrencyPool.gone
    split
    · next t _ => rw [hidle t]; rfl
    · rfl
  rw [hglobal, hnone, hgone, Finset.sdiff_empty, Nat.add_zero]

/-- **The accounts balance.** Whatever the threads do, the users together have at most what
`globalActive` says, which is at most `globalLimit`; no user has more than its limit; no counter
wraps; and when no call is in progress `globalActive` is what the users have. -/
theorem slots_balance (globalLimit : ℕ) (hlim : 0 < globalLimit) (limit : U → ℕ)
    (as : List (Action T U)) (s : LoopyConcurrencyPool T U)
    (hrun : Run step Admitted (.fresh T globalLimit limit) as s) : PoolLaw s :=
  have hinv : PoolInv s :=
    hrun.invariant (fun _ _ _ h hok hstep => h.effect (step_effect h hok hstep)) (.fresh hlim limit)
  hinv.law

/-- Two users of limit 2 under a global limit of 3. Thread 0 takes two slots for user 0; thread 1
reserves a global slot for user 1 while thread 0 gives one back; then user 0 is removed with the
slot that it still has. -/
def slotsRun : List (Action (Fin 2) (Fin 2)) :=
  [.addUser 0, .addUser 1, .tryAcquire 0 0 2, .load 0, .compareExchange 0, .load 0,
    .compareExchange 0, .tryAcquire 1 1 1, .load 1, .compareExchange 1, .release 0 0 1, .load 0,
    .compareExchange 0, .load 1, .fetchSub 0, .compareExchangeSpurious 1, .load 1,
    .compareExchange 1, .removeUser 0 0, .load 0, .fetchSub 0, .raxRemove 0, .unlock 0]

theorem slots_balance_slotsRun :
    ∃ s, Run step Admitted (.fresh (Fin 2) 3 fun _ : Fin 2 => 2) slotsRun s ∧ PoolLaw s ∧
      s.users = {1} ∧ s.globalActive = 1 := by
  have hexec : (exec step Admitted (.fresh (Fin 2) 3 fun _ : Fin 2 => 2) slotsRun).map
      (fun s => (s.users, s.globalActive)) = some ({1}, 1) := by decide +kernel
  obtain ⟨s, hrun, hval⟩ := Run.of_exec_map hexec
  obtain ⟨husers, hglobal⟩ := Prod.mk.inj hval
  exact ⟨s, hrun, slots_balance 3 (by decide) _ slotsRun s hrun, husers, hglobal⟩

end Loopy.ConcurrencyPool
