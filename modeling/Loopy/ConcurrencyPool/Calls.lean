import Mathlib.Data.UInt
import Loopy.Lib.Run

/-!
# `loopyConcurrencyPool.c`: one call at a time

The functions of a pool that only one thread uses, with everything they read and write. A
compare-exchange of one thread always succeeds, so the loops around them are gone. `K` has the
user ids; a user handle is the id of its user, and `NULL` an id that nobody has. `Memory` says
which of the allocations of `loopyConcurrencyPoolAddUser` succeed.

All counters and limits are `size_t`s, and `active + count` wraps: `tryAcquire_limits` says when
an acquisition keeps the limits. `loopyConcurrencyCanAcquire` makes the tests of an acquisition
again, but not those of the creation of a user.
-/

namespace Loopy.Concurrency

open Loopy.Lib
open Function (update update_of_ne update_self)

/-! ## Data -/

inductive LoopyConcurrencyResult
  | OK
  | INVALID
  | NOT_FOUND
  | LIMIT
  | GLOBAL_LIMIT
deriving DecidableEq, Repr

structure LoopyConcurrencyPoolConfig where
  globalLimit : UInt64
  defaultUserLimit : UInt64
  maxUsers : UInt64
  fairScheduling : Bool
  autoCreateUsers : Bool
  trackStats : Bool
deriving DecidableEq, Repr

structure LoopyConcurrencyUserConfig where
  limit : UInt64
  reserved : UInt64
  priority : UInt32
  userData : ℕ
deriving DecidableEq, Repr

/-- `loopyConcurrencyUser`; its id is its key in `users`. -/
structure LoopyConcurrencyUser where
  limit : UInt64
  reserved : UInt64
  priority : UInt32
  userData : ℕ
  active : UInt64 := 0
  peak : UInt64 := 0
  acquires : UInt64 := 0
  releases : UInt64 := 0
  denied : UInt64 := 0
  waits : UInt64 := 0
deriving DecidableEq, Repr

/-- `loopyConcurrencyPool`. -/
structure LoopyConcurrencyPool (K : Type) where
  users : K → Option LoopyConcurrencyUser
  config : LoopyConcurrencyPoolConfig
  globalActive : UInt64 := 0
  globalPeak : UInt64 := 0
  userCount : UInt64 := 0
  totalAcquires : UInt64 := 0
  totalReleases : UInt64 := 0
  totalDenied : UInt64 := 0
  totalWaits : UInt64 := 0

/-- `loopyConcurrencyPoolConfigInit`. -/
def loopyConcurrencyPoolConfigInit : LoopyConcurrencyPoolConfig :=
  { globalLimit := 0
    defaultUserLimit := 10
    maxUsers := 0
    fairScheduling := false
    autoCreateUsers := true
    trackStats := true }

/-- `loopyConcurrencyPoolNew`, where `none` is a `NULL` configuration. -/
def loopyConcurrencyPoolNew (K : Type) (config : Option LoopyConcurrencyPoolConfig) :
    LoopyConcurrencyPool K :=
  { users := fun _ => none
    config := config.getD loopyConcurrencyPoolConfigInit }

/-- The allocations of `loopyConcurrencyPoolAddUser`: of the user and its id, and of the tree's
nodes. -/
structure Memory where
  user : Bool
  tree : Bool
deriving DecidableEq, Repr

variable {K : Type} [DecidableEq K]

/-- The user is written back. -/
def LoopyConcurrencyPool.setUser (pool : LoopyConcurrencyPool K) (userId : K)
    (user : LoopyConcurrencyUser) : LoopyConcurrencyPool K :=
  { pool with users := update pool.users userId (some user) }

/-- `globalActive := n`. -/
def LoopyConcurrencyPool.setGlobal (pool : LoopyConcurrencyPool K) (n : UInt64) :
    LoopyConcurrencyPool K :=
  { pool with globalActive := n }

def updatePeak (peak current : UInt64) : UInt64 := if peak < current then current else peak

/-- A statistic goes up if the pool keeps them. -/
def LoopyConcurrencyPool.count (pool : LoopyConcurrencyPool K) (n : UInt64) : UInt64 :=
  if pool.config.trackStats then n + 1 else n

/-! ## Users -/

/-- `loopyConcurrencyPoolAddUser`. -/
def loopyConcurrencyPoolAddUser (pool : LoopyConcurrencyPool K) (userId : K)
    (config : Option LoopyConcurrencyUserConfig) (memory : Memory) :
    Option K × LoopyConcurrencyPool K :=
  if 0 < pool.config.maxUsers ∧ pool.config.maxUsers ≤ pool.userCount then (none, pool)
  else if !memory.user then (none, pool)
  else
    let user : LoopyConcurrencyUser :=
      match config with
      | some config =>
        { limit := config.limit
          reserved := config.reserved
          priority := config.priority
          userData := config.userData }
      | none => { limit := pool.config.defaultUserLimit, reserved := 0, priority := 0, userData := 0 }
    match pool.users userId with
    | some _ => (some userId, pool)
    | none =>
      if memory.tree then
        (some userId, { pool.setUser userId user with userCount := pool.userCount + 1 })
      else (none, pool)

/-- `loopyConcurrencyPoolRemoveUser`. -/
def loopyConcurrencyPoolRemoveUser (pool : LoopyConcurrencyPool K) (userId : K) :
    Bool × LoopyConcurrencyPool K :=
  match pool.users userId with
  | none => (false, pool)
  | some user =>
    (true, { pool with
      globalActive := if 0 < user.active then pool.globalActive - user.active else pool.globalActive
      users := update pool.users userId none
      userCount := pool.userCount - 1 })

/-- `loopyConcurrencyPoolGetUser`. -/
def loopyConcurrencyPoolGetUser (pool : LoopyConcurrencyPool K) (userId : K) : Option K :=
  if (pool.users userId).isSome then some userId else none

/-- `loopyConcurrencyUserUpdate`. -/
def loopyConcurrencyUserUpdate (pool : LoopyConcurrencyPool K) (userId : K)
    (config : LoopyConcurrencyUserConfig) : Bool × LoopyConcurrencyPool K :=
  match pool.users userId with
  | none => (false, pool)
  | some user =>
    (true, pool.setUser userId { user with
      limit := config.limit
      reserved := config.reserved
      priority := config.priority
      userData := config.userData })

/-! ## Slots -/

/-- A denied acquisition is counted. -/
def LoopyConcurrencyPool.deny (pool : LoopyConcurrencyPool K) (userId : K)
    (user : LoopyConcurrencyUser) : LoopyConcurrencyPool K :=
  { pool.setUser userId { user with denied := pool.count user.denied } with
    totalDenied := pool.count pool.totalDenied }

/-- `loopyConcurrencyUserTryAcquire`. -/
def loopyConcurrencyUserTryAcquire (pool : LoopyConcurrencyPool K) (userId : K) (count : UInt64) :
    LoopyConcurrencyResult × LoopyConcurrencyPool K :=
  match pool.users userId with
  | none => (.INVALID, pool)
  | some user =>
    if count = 0 then (.INVALID, pool)
    else if 0 < pool.config.globalLimit ∧ pool.config.globalLimit < pool.globalActive + count then
      (.GLOBAL_LIMIT, pool.deny userId user)
    else
      -- the global slots are reserved first, and given back if the user has no room
      let reserved : LoopyConcurrencyPool K :=
        if 0 < pool.config.globalLimit then pool.setGlobal (pool.globalActive + count) else pool
      if user.limit < user.active + count then
        let rolledBack : LoopyConcurrencyPool K :=
          if 0 < pool.config.globalLimit then reserved.setGlobal (reserved.globalActive - count)
          else reserved
        (.LIMIT, rolledBack.deny userId user)
      else
        let counted : LoopyConcurrencyPool K :=
          if pool.config.globalLimit = 0 then reserved.setGlobal (reserved.globalActive + count)
          else reserved
        (.OK, { counted.setUser userId { user with
            active := user.active + count
            peak := updatePeak user.peak (user.active + count)
            acquires := pool.count user.acquires } with
          globalPeak := updatePeak pool.globalPeak counted.globalActive
          totalAcquires := pool.count pool.totalAcquires })

/-- `loopyConcurrencyPoolTryAcquire`. -/
def loopyConcurrencyPoolTryAcquire (pool : LoopyConcurrencyPool K) (userId : K) (count : UInt64)
    (memory : Memory) : LoopyConcurrencyResult × LoopyConcurrencyPool K :=
  if count = 0 then (.INVALID, pool)
  else
    let found : Option K × LoopyConcurrencyPool K :=
      match loopyConcurrencyPoolGetUser pool userId with
      | some user => (some user, pool)
      | none =>
        if pool.config.autoCreateUsers then loopyConcurrencyPoolAddUser pool userId none memory
        else (none, pool)
    match found.1 with
    | none => (.NOT_FOUND, found.2)
    | some user => loopyConcurrencyUserTryAcquire found.2 user count

/-- Slots of a user are given back. -/
def LoopyConcurrencyPool.giveBack (pool : LoopyConcurrencyPool K) (userId : K)
    (user : LoopyConcurrencyUser) (count : UInt64) : LoopyConcurrencyPool K :=
  { pool.setUser userId { user with
      active := user.active - count
      releases := pool.count user.releases } with
    globalActive := pool.globalActive - count
    totalReleases := pool.count pool.totalReleases }

/-- `loopyConcurrencyUserRelease`. -/
def loopyConcurrencyUserRelease (pool : LoopyConcurrencyPool K) (userId : K) (count : UInt64) :
    Bool × LoopyConcurrencyPool K :=
  match pool.users userId with
  | none => (false, pool)
  | some user =>
    if count = 0 then (false, pool)
    else
      let held := if user.active < count then user.active else count
      if held = 0 then (true, pool) else (true, pool.giveBack userId user held)

/-- `loopyConcurrencyUserReleaseAll`. -/
def loopyConcurrencyUserReleaseAll (pool : LoopyConcurrencyPool K) (userId : K) :
    UInt64 × LoopyConcurrencyPool K :=
  match pool.users userId with
  | none => (0, pool)
  | some user =>
    if 0 < user.active then (user.active, pool.giveBack userId user user.active) else (0, pool)

/-! ## Queries -/

/-- `loopyConcurrencyCanAcquire`. -/
def loopyConcurrencyCanAcquire (pool : LoopyConcurrencyPool K) (userId : K) (count : UInt64) :
    Bool :=
  if count = 0 then false
  else
    match pool.users userId with
    | none =>
      if pool.config.autoCreateUsers then
        if 0 < pool.config.globalLimit then
          decide (pool.globalActive + count ≤ pool.config.globalLimit)
        else true
      else false
    | some user =>
      if user.limit < user.active + count then false
      else if 0 < pool.config.globalLimit ∧ pool.config.globalLimit < pool.globalActive + count then
        false
      else true

/-! ## Sequences of calls -/

inductive Op (K : Type)
  | addUser (userId : K) (config : Option LoopyConcurrencyUserConfig) (memory : Memory)
  | removeUser (userId : K)
  | userUpdate (userId : K) (config : LoopyConcurrencyUserConfig)
  | userTryAcquire (userId : K) (count : UInt64)
  | poolTryAcquire (userId : K) (count : UInt64) (memory : Memory)
  | userRelease (userId : K) (count : UInt64)
  | userReleaseAll (userId : K)

/-- One call. -/
def step (pool : LoopyConcurrencyPool K) : Op K → Option (LoopyConcurrencyPool K)
  | .addUser userId config memory => some (loopyConcurrencyPoolAddUser pool userId config memory).2
  | .removeUser userId => some (loopyConcurrencyPoolRemoveUser pool userId).2
  | .userUpdate userId config => some (loopyConcurrencyUserUpdate pool userId config).2
  | .userTryAcquire userId count => some (loopyConcurrencyUserTryAcquire pool userId count).2
  | .poolTryAcquire userId count memory =>
    some (loopyConcurrencyPoolTryAcquire pool userId count memory).2
  | .userRelease userId count => some (loopyConcurrencyUserRelease pool userId count).2
  | .userReleaseAll userId => some (loopyConcurrencyUserReleaseAll pool userId).2

/-! ## What an acquisition does -/

/-- The global limit refuses `count` more slots. -/
abbrev OverGlobal (pool : LoopyConcurrencyPool K) (count : UInt64) : Prop :=
  0 < pool.config.globalLimit ∧ pool.config.globalLimit < pool.globalActive + count

/-- The user's limit refuses `count` more slots. -/
abbrev OverUser (user : LoopyConcurrencyUser) (count : UInt64) : Prop :=
  user.limit < user.active + count

variable {pool : LoopyConcurrencyPool K} {userId : K} {user : LoopyConcurrencyUser} {count : UInt64}

theorem deny_active {pool pool' : LoopyConcurrencyPool K} (huser : pool.users userId = some user)
    (hpool' : pool'.users = pool.users) (k : K) :
    ((pool'.deny userId user).users k).map (·.active) = (pool.users k).map (·.active) := by
  show (update pool'.users userId _ k).map _ = _
  by_cases hk : k = userId
  · rw [hk, update_self, huser]
    rfl
  · rw [update_of_ne hk, hpool']

/-- A refused acquisition changes no active counter. -/
theorem tryAcquire_refused (huser : pool.users userId = some user) (hcount : count ≠ 0)
    (h : OverGlobal pool count ∨ OverUser user count) :
    let r := loopyConcurrencyUserTryAcquire pool userId count
    r.1 ≠ .OK ∧ r.2.globalActive = pool.globalActive ∧
      ∀ k, (r.2.users k).map (·.active) = (pool.users k).map (·.active) := by
  unfold loopyConcurrencyUserTryAcquire
  dsimp only
  rw [huser]
  dsimp only
  rw [if_neg hcount]
  by_cases hglobal : OverGlobal pool count
  · rw [if_pos hglobal]
    exact ⟨LoopyConcurrencyResult.noConfusion, rfl, deny_active huser rfl⟩
  · rw [if_neg hglobal, if_pos (h.resolve_left hglobal)]
    by_cases hpos : 0 < pool.config.globalLimit
    · -- what was reserved is given back
      rw [if_pos hpos, if_pos hpos]
      exact ⟨LoopyConcurrencyResult.noConfusion, UInt64.add_sub_cancel _ _, deny_active huser rfl⟩
    · rw [if_neg hpos, if_neg hpos]
      exact ⟨LoopyConcurrencyResult.noConfusion, rfl, deny_active huser rfl⟩

/-- Any other acquisition adds `count` to both counters. -/
theorem tryAcquire_acquired (huser : pool.users userId = some user) (hcount : count ≠ 0)
    (hglobal : ¬ OverGlobal pool count) (hlimit : ¬ OverUser user count) :
    let r := loopyConcurrencyUserTryAcquire pool userId count
    r.1 = .OK ∧ r.2.globalActive = pool.globalActive + count ∧
      ∃ user', r.2.users userId = some user' ∧ user'.active = user.active + count := by
  unfold loopyConcurrencyUserTryAcquire
  dsimp only
  rw [huser]
  dsimp only
  rw [if_neg hcount, if_neg hglobal, if_neg hlimit]
  by_cases hzero : pool.config.globalLimit = 0
  · rw [if_pos hzero, if_neg (by rw [hzero]; exact UInt64.lt_irrefl 0)]
    exact ⟨rfl, rfl, _, update_self _ _ _, rfl⟩
  · rw [if_neg hzero, if_pos (UInt64.pos_iff_ne_zero.mpr hzero)]
    exact ⟨rfl, rfl, _, update_self _ _ _, rfl⟩

theorem tryAcquire_ok_iff (huser : pool.users userId = some user) (hcount : count ≠ 0) :
    (loopyConcurrencyUserTryAcquire pool userId count).1 = .OK ↔
      ¬ OverGlobal pool count ∧ ¬ OverUser user count := by
  constructor
  · intro hok
    refine ⟨fun h => ?_, fun h => ?_⟩
    · exact (tryAcquire_refused huser hcount (Or.inl h)).1 hok
    · exact (tryAcquire_refused huser hcount (Or.inr h)).1 hok
  · intro ⟨hglobal, hlimit⟩
    exact (tryAcquire_acquired huser hcount hglobal hlimit).1

/-! ## The limits -/

/-- An acquisition that succeeds keeps both limits and adds `count` to both counters, and one that
is refused changes no active counter. -/
structure AcquireLaw (pool : LoopyConcurrencyPool K) (userId : K) (user : LoopyConcurrencyUser)
    (count : UInt64) (r : LoopyConcurrencyResult × LoopyConcurrencyPool K) : Prop where
  user_limit : r.1 = .OK → user.active.toNat + count.toNat ≤ user.limit.toNat
  global_limit : r.1 = .OK → 0 < pool.config.globalLimit →
    pool.globalActive.toNat + count.toNat ≤ pool.config.globalLimit.toNat
  user_grows : r.1 = .OK → ∃ user', r.2.users userId = some user' ∧
    user'.active.toNat = user.active.toNat + count.toNat
  global_grows : r.1 = .OK → r.2.globalActive.toNat = pool.globalActive.toNat + count.toNat
  unchanged : r.1 = .LIMIT ∨ r.1 = .GLOBAL_LIMIT → r.2.globalActive = pool.globalActive ∧
    ∀ k, (r.2.users k).map (·.active) = (pool.users k).map (·.active)

/-- Neither sum wraps, or what is left of it is still above its limit. -/
def Fits (pool : LoopyConcurrencyPool K) (user : LoopyConcurrencyUser) (count : UInt64) : Prop :=
  (user.active.toNat + count.toNat < 2 ^ 64 ∧ pool.globalActive.toNat + count.toNat < 2 ^ 64) ∨
    OverGlobal pool count ∨ OverUser user count

/-- **The limits hold exactly if the sums fit.** In every pool and for every user and every
`count`, what `loopyConcurrencyUserTryAcquire` returns and leaves keeps `AcquireLaw` if and only if
`active + count` and `globalActive + count` do not wrap, or the call is refused all the same. -/
theorem tryAcquire_limits (pool : LoopyConcurrencyPool K) (userId : K)
    (user : LoopyConcurrencyUser) (huser : pool.users userId = some user) (count : UInt64)
    (hcount : 1 ≤ count) :
    AcquireLaw pool userId user count (loopyConcurrencyUserTryAcquire pool userId count) ↔
      Fits pool user count := by
  have hne : count ≠ 0 := by
    intro hzero
    rw [hzero] at hcount
    exact absurd hcount (by decide)
  by_cases hover : OverGlobal pool count ∨ OverUser user count
  · obtain ⟨hnot, hsame⟩ := tryAcquire_refused huser hne hover
    refine ⟨fun _ => Or.inr hover, fun _ => ⟨?_, ?_, ?_, ?_, fun _ => hsame⟩⟩
    all_goals exact fun hok => absurd hok hnot
  · have hglobal : ¬ OverGlobal pool count := fun h => hover (Or.inl h)
    have hlimit : ¬ OverUser user count := fun h => hover (Or.inr h)
    obtain ⟨hok, hglobal', user', huser', hactive⟩ :=
      tryAcquire_acquired huser hne hglobal hlimit
    have hactiveNat : user'.active.toNat = (user.active.toNat + count.toNat) % 2 ^ 64 := by
      rw [hactive, UInt64.toNat_add]
    constructor
    · intro hlaw
      left
      obtain ⟨user'', huser'', hgrown⟩ := hlaw.user_grows hok
      have hglobalGrown := hlaw.global_grows hok
      have hlt := user''.active.toNat_lt
      have hlt' := (loopyConcurrencyUserTryAcquire pool userId count).2.globalActive.toNat_lt
      omega
    · intro hfits
      obtain ⟨huserFits, hglobalFits⟩ := hfits.resolve_right hover
      have hgrown : user'.active.toNat = user.active.toNat + count.toNat := by omega
      have hsum : (pool.globalActive + count).toNat = pool.globalActive.toNat + count.toNat := by
        rw [UInt64.toNat_add]
        omega
      refine ⟨fun _ => ?_, fun _ hpos => ?_, fun _ => ⟨user', huser', hgrown⟩, fun _ => ?_,
        fun hrefused => ?_⟩
      · have := UInt64.not_lt.mp hlimit
        rw [UInt64.le_iff_toNat_le, ← hactive] at this
        omega
      · have := UInt64.not_lt.mp fun h => hglobal ⟨hpos, h⟩
        rw [UInt64.le_iff_toNat_le] at this
        omega
      · rw [hglobal', hsum]
      · rw [hok] at hrefused
        rcases hrefused with h | h <;> cases h

/-- All allocations succeed. -/
def enough : Memory := ⟨true, true⟩

/-- A new pool of default configuration, and an acquisition of 5 slots. -/
def fiveHeld : List (Op ℕ) := [.poolTryAcquire 0 5 enough]

theorem fiveHeld_run : ∃ pool user,
    Run step (fun _ _ => True) (loopyConcurrencyPoolNew ℕ none) fiveHeld pool ∧
      pool.users 0 = some user ∧ user.active = 5 ∧ user.limit = 10 ∧ pool.globalActive = 5 ∧
      pool.config.globalLimit = 0 := by
  have hexec : (exec step (fun _ _ => True) (loopyConcurrencyPoolNew ℕ none) fiveHeld).map
      (fun pool => ((pool.users 0).map fun user => (user.active, user.limit), pool.globalActive,
        pool.config.globalLimit)) = some (some (5, 10), 5, 0) := by
    decide +kernel
  obtain ⟨pool, hrun, hval⟩ := Run.of_exec_map hexec
  obtain ⟨huser, hglobal⟩ := Prod.mk.inj hval
  obtain ⟨user, huser, hfields⟩ := Option.map_eq_some_iff.mp huser
  obtain ⟨hactive, hlimit⟩ := Prod.mk.inj hfields
  obtain ⟨hglobal, hglobalLimit⟩ := Prod.mk.inj hglobal
  exact ⟨pool, user, hrun, huser, hactive, hlimit, hglobal, hglobalLimit⟩

theorem tryAcquire_limits_five : ∃ pool user,
    Run step (fun _ _ => True) (loopyConcurrencyPoolNew ℕ none) fiveHeld pool ∧
      pool.users 0 = some user ∧
      AcquireLaw pool 0 user 5 (loopyConcurrencyUserTryAcquire pool 0 5) := by
  obtain ⟨pool, user, hrun, huser, hactive, -, hglobal, -⟩ := fiveHeld_run
  refine ⟨pool, user, hrun, huser, (tryAcquire_limits pool 0 user huser 5 (by decide)).mpr ?_⟩
  left
  rw [hactive, hglobal]
  decide

/-- With 5 slots of 10 held, `2 ^ 64 - 1` more are granted. -/
theorem tryAcquire_over_limit : ∃ pool user,
    Run step (fun _ _ => True) (loopyConcurrencyPoolNew ℕ none) fiveHeld pool ∧
      pool.users 0 = some user ∧
      ¬ AcquireLaw pool 0 user (-1) (loopyConcurrencyUserTryAcquire pool 0 (-1)) := by
  obtain ⟨pool, user, hrun, huser, hactive, hlimit, hglobal, hglobalLimit⟩ := fiveHeld_run
  refine ⟨pool, user, hrun, huser, fun hlaw => ?_⟩
  have hok : (loopyConcurrencyUserTryAcquire pool 0 (-1)).1 = .OK := by
    refine (tryAcquire_ok_iff huser (by decide)).mpr ⟨fun h => ?_, ?_⟩
    · rw [OverGlobal, hglobalLimit] at h
      exact absurd h.1 (by decide)
    · rw [OverUser, hactive, hlimit]
      decide
  have hle := hlaw.user_limit hok
  rw [hactive, hlimit] at hle
  exact absurd hle (by decide)

/-! ## The query -/

omit [DecidableEq K] in
theorem not_overGlobal_iff : ¬ OverGlobal pool count ↔
    (0 < pool.config.globalLimit → pool.globalActive + count ≤ pool.config.globalLimit) := by
  rw [OverGlobal, not_and]
  exact forall_congr' fun _ => UInt64.not_lt

omit [DecidableEq K] in
/-- For a user there is, the query makes the tests of the acquisition. -/
theorem canAcquire_user (huser : pool.users userId = some user) (hcount : count ≠ 0) :
    loopyConcurrencyCanAcquire pool userId count = true ↔
      ¬ OverGlobal pool count ∧ ¬ OverUser user count := by
  unfold loopyConcurrencyCanAcquire
  rw [if_neg hcount, huser]
  dsimp only
  by_cases hlimit : OverUser user count
  · rw [if_pos hlimit]
    exact ⟨fun h => absurd h Bool.false_ne_true, fun h => absurd hlimit h.2⟩
  · rw [if_neg hlimit]
    by_cases hglobal : OverGlobal pool count
    · rw [if_pos hglobal]
      exact ⟨fun h => absurd h Bool.false_ne_true, fun h => absurd hglobal h.1⟩
    · rw [if_neg hglobal]
      exact ⟨fun _ => ⟨hglobal, hlimit⟩, fun _ => rfl⟩

omit [DecidableEq K] in
/-- For a user there is not, it makes the global test alone. -/
theorem canAcquire_absent (huser : pool.users userId = none) (hcount : count ≠ 0) :
    loopyConcurrencyCanAcquire pool userId count = true ↔
      pool.config.autoCreateUsers = true ∧ ¬ OverGlobal pool count := by
  unfold loopyConcurrencyCanAcquire
  rw [if_neg hcount, huser]
  dsimp only
  rw [not_overGlobal_iff]
  by_cases hauto : pool.config.autoCreateUsers = true
  · rw [if_pos hauto]
    by_cases hpos : 0 < pool.config.globalLimit
    · rw [if_pos hpos, decide_eq_true_eq]
      exact ⟨fun h => ⟨hauto, fun _ => h⟩, fun h => h.2 hpos⟩
    · rw [if_neg hpos]
      exact ⟨fun _ => ⟨hauto, fun h => absurd h hpos⟩, fun _ => rfl⟩
  · rw [if_neg hauto]
    exact ⟨fun h => absurd h Bool.false_ne_true, fun h => absurd h.1 hauto⟩

/-- A new user is allowed and can be allocated. -/
def Creatable (pool : LoopyConcurrencyPool K) (memory : Memory) : Prop :=
  (pool.config.maxUsers = 0 ∨ pool.userCount < pool.config.maxUsers) ∧
    memory.user = true ∧ memory.tree = true

theorem addUser_absent (huser : pool.users userId = none) (memory : Memory) :
    (¬ Creatable pool memory ∧ loopyConcurrencyPoolAddUser pool userId none memory = (none, pool)) ∨
    (Creatable pool memory ∧ ∃ user, user.limit = pool.config.defaultUserLimit ∧ user.active = 0 ∧
      loopyConcurrencyPoolAddUser pool userId none memory =
        (some userId, { pool.setUser userId user with userCount := pool.userCount + 1 })) := by
  unfold loopyConcurrencyPoolAddUser Creatable
  by_cases hmax : 0 < pool.config.maxUsers ∧ pool.config.maxUsers ≤ pool.userCount
  · left
    rw [if_pos hmax]
    refine ⟨fun h => ?_, rfl⟩
    rcases h.1 with hzero | hlt
    · rw [hzero] at hmax
      exact UInt64.lt_irrefl 0 hmax.1
    · exact UInt64.not_le.mpr hlt hmax.2
  · rw [if_neg hmax]
    have hroom : pool.config.maxUsers = 0 ∨ pool.userCount < pool.config.maxUsers := by
      by_cases hzero : pool.config.maxUsers = 0
      · exact Or.inl hzero
      · right
        exact UInt64.not_le.mp fun h => hmax ⟨UInt64.pos_iff_ne_zero.mpr hzero, h⟩
    obtain ⟨hasUser, hasTree⟩ := memory
    cases hasUser with
    | false => exact Or.inl ⟨fun h => Bool.false_ne_true h.2.1, rfl⟩
    | true =>
      rw [huser]
      cases hasTree with
      | false => exact Or.inl ⟨fun h => Bool.false_ne_true h.2.2, rfl⟩
      | true => exact Or.inr ⟨⟨hroom, rfl, rfl⟩, _, rfl, rfl, rfl⟩

/-- An acquisition for a user there is not creates it, with the default limit. -/
theorem poolTryAcquire_absent (huser : pool.users userId = none) (hcount : count ≠ 0)
    {memory : Memory} : (loopyConcurrencyPoolTryAcquire pool userId count memory).1 = .OK ↔
      pool.config.autoCreateUsers = true ∧ Creatable pool memory ∧ ¬ OverGlobal pool count ∧
        count ≤ pool.config.defaultUserLimit := by
  have hget : loopyConcurrencyPoolGetUser pool userId = none := by
    unfold loopyConcurrencyPoolGetUser
    rw [huser]
    rfl
  unfold loopyConcurrencyPoolTryAcquire
  rw [if_neg hcount, hget]
  dsimp only
  by_cases hauto : pool.config.autoCreateUsers = true
  · rw [if_pos hauto]
    rcases addUser_absent huser memory with ⟨hnot, hadd⟩ | ⟨hcan, user, hl, ha, hadd⟩
    · rw [hadd]
      exact ⟨fun h => LoopyConcurrencyResult.noConfusion h, fun h => absurd h.2.1 hnot⟩
    · rw [hadd]
      have hover : ¬ OverUser user count ↔ count ≤ pool.config.defaultUserLimit := by
        rw [OverUser, hl, ha, UInt64.zero_add]
        exact UInt64.not_lt
      have hself : ({ pool.setUser userId user with
          userCount := pool.userCount + 1 } : LoopyConcurrencyPool K).users userId = some user :=
        update_self _ _ _
      refine (tryAcquire_ok_iff hself hcount).trans
        ⟨fun ⟨hglobal, hlimit⟩ => ?_, fun ⟨_, _, hglobal, hlimit⟩ => ?_⟩
      · exact ⟨hauto, hcan, hglobal, hover.mp hlimit⟩
      · exact ⟨hglobal, hover.mpr hlimit⟩
  · rw [if_neg hauto]
    exact ⟨fun h => LoopyConcurrencyResult.noConfusion h, fun h => absurd h.1 hauto⟩

theorem poolTryAcquire_user (huser : pool.users userId = some user) (hcount : count ≠ 0)
    {memory : Memory} : (loopyConcurrencyPoolTryAcquire pool userId count memory).1 = .OK ↔
      ¬ OverGlobal pool count ∧ ¬ OverUser user count := by
  have hget : loopyConcurrencyPoolGetUser pool userId = some userId := by
    unfold loopyConcurrencyPoolGetUser
    rw [huser]
    rfl
  unfold loopyConcurrencyPoolTryAcquire
  rw [if_neg hcount, hget]
  exact tryAcquire_ok_iff huser hcount

/-- **The query agrees with the operation exactly if a new user would fit.** In every pool, for
every id and every `count`: `loopyConcurrencyCanAcquire` is true if and only if
`loopyConcurrencyPoolTryAcquire` called next returns `OK`, unless there is no such user,
`autoCreateUsers` is set, the global limit has room, and the user cannot be created or has a
default limit below `count`. -/
theorem canAcquire_agrees (pool : LoopyConcurrencyPool K) (userId : K) (count : UInt64)
    (hcount : 1 ≤ count) (memory : Memory) :
    (loopyConcurrencyCanAcquire pool userId count = true ↔
      (loopyConcurrencyPoolTryAcquire pool userId count memory).1 = .OK) ↔
    (pool.users userId = none → pool.config.autoCreateUsers = true → ¬ OverGlobal pool count →
      Creatable pool memory ∧ count ≤ pool.config.defaultUserLimit) := by
  have hne : count ≠ 0 := by
    intro hzero
    rw [hzero] at hcount
    exact absurd hcount (by decide)
  cases huser : pool.users userId with
  | none =>
    rw [canAcquire_absent huser hne, poolTryAcquire_absent huser hne]
    constructor
    · intro hiff _ hauto hglobal
      obtain ⟨-, hcan, -, hlimit⟩ := hiff.mp ⟨hauto, hglobal⟩
      exact ⟨hcan, hlimit⟩
    · intro h
      refine ⟨fun ⟨hauto, hglobal⟩ => ?_, fun ⟨hauto, _, hglobal, _⟩ => ⟨hauto, hglobal⟩⟩
      obtain ⟨hcan, hlimit⟩ := h rfl hauto hglobal
      exact ⟨hauto, hcan, hglobal, hlimit⟩
  | some user =>
    rw [canAcquire_user huser hne, poolTryAcquire_user huser hne]
    exact ⟨fun _ h => absurd h (Option.some_ne_none user), fun _ => Iff.rfl⟩

theorem canAcquire_agrees_ten : loopyConcurrencyCanAcquire (loopyConcurrencyPoolNew ℕ none) 0 10 =
    true ↔ (loopyConcurrencyPoolTryAcquire (loopyConcurrencyPoolNew ℕ none) 0 10 enough).1 = .OK :=
  (canAcquire_agrees _ 0 10 (by decide) enough).mpr fun _ _ _ =>
    ⟨⟨Or.inl rfl, rfl, rfl⟩, by decide⟩

/-- The default configuration with room for one user. -/
def singleUser : LoopyConcurrencyPoolConfig := { loopyConcurrencyPoolConfigInit with maxUsers := 1 }

/-- A new user asks for 11 slots, above the default limit of 10; and one asks for a slot in a pool
that has all its users. -/
theorem canAcquire_disagrees :
    ¬ (loopyConcurrencyCanAcquire (loopyConcurrencyPoolNew ℕ none) 0 11 = true ↔
      (loopyConcurrencyPoolTryAcquire (loopyConcurrencyPoolNew ℕ none) 0 11 enough).1 = .OK) ∧
    ∃ pool, Run step (fun _ _ => True) (loopyConcurrencyPoolNew ℕ (some singleUser))
        [.addUser 0 none enough] pool ∧
      ¬ (loopyConcurrencyCanAcquire pool 1 1 = true ↔
        (loopyConcurrencyPoolTryAcquire pool 1 1 enough).1 = .OK) := by
  refine ⟨by decide +kernel, ?_⟩
  have hexec : (exec step (fun _ _ => True) (loopyConcurrencyPoolNew ℕ (some singleUser))
      [.addUser 0 none enough]).map (fun pool => decide
        (loopyConcurrencyCanAcquire pool 1 1 = true ↔
          (loopyConcurrencyPoolTryAcquire pool 1 1 enough).1 = .OK)) = some false := by
    decide +kernel
  obtain ⟨pool, hrun, hval⟩ := Run.of_exec_map hexec
  exact ⟨pool, hrun, of_decide_eq_false hval⟩

end Loopy.Concurrency
