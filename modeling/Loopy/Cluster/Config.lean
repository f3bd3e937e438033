import Loopy.Cluster.Basic
import Loopy.Lib.Transducer

/-!
# `loopyClusterRegistry.c`: the configuration as a map with expiry

A `Store` is what the configuration is for: the settings of the keys, each with the time at which
it was made and its lifetime; a setting lives until `setAt + ttlMs`, a sum of natural numbers. The
functions of the registry are compared with it call by call.

`loopyClusterConfigVersion` and `loopyClusterConfigDelete` do not ask whether an entry has
expired, the deadline is a 64-bit sum, and `loopyClusterConfigIterate` cuts long keys.
`config_right` is the law where none of this shows.
-/

namespace Loopy.Cluster

open Loopy.Lib
open Function (update update_eq_self update_of_ne update_self)

/-! ## The store -/

/-- What was set. -/
structure Setting where
  value : List UInt8
  version : UInt64
  setAt : UInt64
  ttlMs : UInt64
deriving DecidableEq, Repr

/-- A setting lives for ever, or until `setAt + ttlMs`. -/
def Setting.Live (setting : Setting) (now : UInt64) : Prop :=
  setting.ttlMs = 0 ∨ now.toNat < setting.setAt.toNat + setting.ttlMs.toNat

instance (setting : Setting) (now : UInt64) : Decidable (setting.Live now) :=
  inferInstanceAs (Decidable (_ ∨ _))

/-- The last settings, and the last version that a call has returned. -/
structure Store where
  settings : CString → Option Setting
  lastVersion : UInt64

/-- Nothing is set. -/
def Store.empty : Store := { settings := fun _ => none, lastVersion := 0 }

/-- The setting of a key that is live. -/
def Store.get (s : Store) (key : CString) (now : UInt64) : Option Setting :=
  (s.settings key).filter fun setting => decide (setting.Live now)

/-! ## The machine -/

/-- The calls. -/
inductive ConfigCall
  | set (key : CString) (value : List UInt8) (ttlMs : UInt64) (luck : SetLuck)
  | get (key : CString)
  | delete (key : CString)
  | exists (key : CString)
  | version (key : CString)
  | iterate
  | process (noMemory : List CString)
deriving DecidableEq, Repr

/-- A call at a time. -/
structure TimedCall where
  now : UInt64
  call : ConfigCall
deriving DecidableEq, Repr

/-- What a call returns. -/
inductive ConfigAnswer
  | version (version : UInt64)
  | value (value : Option (List UInt8))
  | bool (b : Bool)
  | values (values : List LoopyConfigValue)
  | processed
deriving DecidableEq, Repr

/-- One call. -/
def LoopyClusterRegistry.configCall (r : LoopyClusterRegistry) (c : TimedCall) :
    ConfigAnswer × LoopyClusterRegistry :=
  match c.call with
  | .set key value ttlMs luck =>
    let (version, _, r) := r.configSet key value ttlMs luck c.now
    (.version version, r)
  | .get key => (.value (r.configGet key c.now), r)
  | .delete key =>
    let (b, _, r) := r.configDelete key
    (.bool b, r)
  | .exists key => (.bool (r.configExists key c.now), r)
  | .version key => (.version (r.configVersionOf key), r)
  | .iterate => (.values (r.configIterate c.now), r)
  | .process noMemory => (.processed, (r.process c.now noMemory).2)

/-- What a call and its answer mean for the store. -/
def Store.observe (s : Store) (c : TimedCall) : ConfigAnswer → Store
  | .version version =>
    match c.call with
    | .set key value ttlMs _ =>
      if version = 0 then s
      else
        { settings :=
            update s.settings key (some { value, version, setAt := c.now, ttlMs })
          lastVersion := version }
    | _ => s
  | .bool _ =>
    match c.call with
    | .delete key => { s with settings := update s.settings key none }
    | _ => s
  | .value _ | .values _ | .processed => s

/-- A registry, the time of the last call, and the store as the callers see it. -/
structure Configured where
  registry : LoopyClusterRegistry
  clock : UInt64
  store : Store

/-- One call at a time. -/
def Configured.step (s : Configured) (c : TimedCall) : ConfigAnswer × Configured :=
  let (answer, registry) := s.registry.configCall c
  (answer, { registry, clock := c.now, store := s.store.observe c answer })

/-- A new registry. -/
def Configured.new (localNodeId : CString) (localAddress : Option CString)
    (localRoles failureTimeoutMs : UInt32) (luck : RegisterLuck) (now : UInt64) : Configured :=
  { registry :=
      (LoopyClusterRegistry.new localNodeId localAddress localRoles failureTimeoutMs luck now).2
    clock := now
    store := .empty }

/-! ## The law -/

/-- The answer to a call is the one of the store. -/
def Store.Answers (s : Store) (c : TimedCall) : ConfigAnswer → Prop
  | .version version =>
    match c.call with
    | .set _ value _ luck =>
      (value ≠ [] → luck = .all → version ≠ 0) ∧
        (version ≠ 0 → s.lastVersion.toNat < version.toNat)
    | .version key =>
      (version ≠ 0 ↔ (s.get key c.now).isSome = true) ∧
        ∀ setting ∈ s.get key c.now, version = setting.version
    | _ => False
  | .value value =>
    match c.call with
    | .get key => value = (s.get key c.now).map Setting.value
    | _ => False
  | .bool b =>
    match c.call with
    | .delete key | .exists key => b = (s.get key c.now).isSome
    | _ => False
  | .values values =>
    match c.call with
    | .iterate =>
      (values.map LoopyConfigValue.key).Pairwise (· < ·) ∧
        ∀ key value, (key, value) ∈ values.map (fun v => (v.key, v.value)) ↔
          (s.get key c.now).map Setting.value = some value
    | _ => False
  | .processed => True

/-- The call is answered as by the store. -/
def Right (s : Configured) (c : TimedCall) : Prop := s.store.Answers c (s.step c).1

/-- The clock does not go back. -/
def Ordered (s : Configured) (c : TimedCall) : Prop := s.clock ≤ c.now

/-- Where the functions do what they are for: sums fit in 64 bits, an expired entry has been removed
before its key is deleted or asked for its version, and live keys fit in the buffer. -/
def Admitted (s : Configured) (c : TimedCall) : Prop :=
  match c.call with
  | .set _ _ ttlMs _ =>
    (ttlMs = 0 ∨ c.now.toNat + ttlMs.toNat < 2 ^ 64) ∧
      s.registry.configVersion.toNat + 1 < 2 ^ 64
  | .delete key | .version key =>
    ∀ entry ∈ s.registry.configData.find key, entry.expired c.now = false
  | .iterate =>
    ∀ key ∈ s.registry.configData.keys, ∀ entry ∈ s.registry.configData.find key,
      entry.expired c.now = false → key.length ≤ 255
  | .get _ | .exists _ | .process _ => True

instance (s : Configured) (c : TimedCall) : Decidable (Ordered s c) :=
  inferInstanceAs (Decidable (s.clock ≤ c.now))

instance (s : Configured) (now : UInt64) :
    ∀ call, Decidable (Admitted s { now, call })
  | .set .. =>
    inferInstanceAs (Decidable (_ ∧ _))
  | .delete key | .version key =>
    inferInstanceAs
      (Decidable (∀ entry ∈ s.registry.configData.find key, entry.expired now = false))
  | .iterate =>
    inferInstanceAs (Decidable (∀ key ∈ s.registry.configData.keys,
      ∀ entry ∈ s.registry.configData.find key, entry.expired now = false → key.length ≤ 255))
  | .get _ | .exists _ | .process _ => isTrue trivial

instance (s : Configured) : ∀ c, Decidable (Admitted s c)
  | { now, call } => inferInstanceAs (Decidable (Admitted s { now, call }))

/-! ## Entries and settings -/

variable {r : LoopyClusterRegistry} {store : Store} {clock now : UInt64} {key : CString}
  {entry : ConfigEntry} {setting : Setting}

/-- An entry holds a setting. -/
structure Holds (entry : ConfigEntry) (setting : Setting) : Prop where
  value : entry.value = setting.value
  version : entry.version = setting.version
  version_ne : setting.version ≠ 0
  expired : ∀ now, entry.expired now = true ↔ ¬ setting.Live now

/-- A deadline that does not wrap is the end of the lifetime. -/
theorem expired_deadline {value : List UInt8} {version ttlMs setAt : UInt64}
    (hfits : ttlMs = 0 ∨ setAt.toNat + ttlMs.toNat < 2 ^ 64) :
    ({ value, version, expireAt := deadline ttlMs setAt } : ConfigEntry).expired now = true ↔
      ¬ ({ value, version, setAt, ttlMs } : Setting).Live now := by
  unfold ConfigEntry.expired deadline Setting.Live
  by_cases httl : ttlMs = 0
  · subst httl
    simp
  · have hpos : ttlMs > 0 := UInt64.pos_iff_ne_zero.mpr httl
    have hnat : 0 < ttlMs.toNat := UInt64.lt_iff_toNat_lt.mp hpos
    have hsum : (setAt + ttlMs).toNat = setAt.toNat + ttlMs.toNat := by
      rw [UInt64.toNat_add]
      exact Nat.mod_eq_of_lt (hfits.resolve_left httl)
    have hsumpos : setAt + ttlMs > 0 := by
      rw [gt_iff_lt, UInt64.lt_iff_toNat_lt, hsum]
      exact Nat.add_pos_right _ hnat
    rw [if_pos hpos]
    simp only [hsumpos, decide_true, Bool.true_and, decide_eq_true_iff, httl, false_or, not_lt,
      ge_iff_le, UInt64.le_iff_toNat_le, hsum]

/-- `loopyClusterConfigExists` asks the same question the other way around. -/
theorem exists_eq_not_expired (entry : ConfigEntry) (now : UInt64) :
    (decide (entry.expireAt = 0) || decide (now < entry.expireAt)) = !entry.expired now := by
  unfold ConfigEntry.expired
  rw [Bool.not_and, ← decide_not, ← decide_not]
  congr 1
  · exact decide_eq_decide.mpr ⟨fun h => by simp [h], fun h => by simpa using h⟩
  · exact decide_eq_decide.mpr UInt64.not_le.symm

/-! ## The registry holds the store -/

/-- An entry is the setting of its key; what has no entry is not live any more. -/
def Matches (clock : UInt64) : Option ConfigEntry → Option Setting → Prop
  | some entry, some setting => Holds entry setting
  | some _, none => False
  | none, setting => ∀ dead ∈ setting, ∀ now, clock ≤ now → ¬ dead.Live now

/-- The entries are the settings. -/
structure Kept (r : LoopyClusterRegistry) (clock : UInt64) (store : Store) : Prop where
  version_le : store.lastVersion.toNat ≤ r.configVersion.toNat
  matched : ∀ key, Matches clock (r.configData.find key) (store.settings key)

namespace Kept

theorem held (h : Kept r clock store) (hfind : r.configData.find key = some entry) :
    ∃ setting, store.settings key = some setting ∧ Holds entry setting := by
  have hmatch := h.matched key
  rw [hfind] at hmatch
  cases hset : store.settings key with
  | none =>
    rw [hset] at hmatch
    exact hmatch.elim
  | some setting =>
    rw [hset] at hmatch
    exact ⟨setting, rfl, hmatch⟩

theorem gone (h : Kept r clock store) (hfind : r.configData.find key = none)
    (hset : store.settings key = some setting) (hnow : clock ≤ now) : ¬ setting.Live now := by
  have hmatch := h.matched key
  rw [hfind] at hmatch
  exact hmatch setting hset now hnow

theorem new (localNodeId : CString) (localAddress : Option CString)
    (localRoles failureTimeoutMs : UInt32) (luck : RegisterLuck) (now : UInt64) :
    Kept (LoopyClusterRegistry.new localNodeId localAddress localRoles failureTimeoutMs luck now).2
      now .empty := by
  have hempty : (LoopyClusterRegistry.new localNodeId localAddress localRoles failureTimeoutMs luck
      now).2.configData = .empty CString ConfigEntry := by
    unfold LoopyClusterRegistry.new LoopyClusterRegistry.registerNode
    split
    · rfl
    · split
      · rfl
      · split
        · rfl
        · split <;> rfl
  refine ⟨Nat.zero_le _, fun key => ?_⟩
  rw [hempty]
  exact fun _ hnone => nomatch hnone

/-- Time passes. -/
theorem later (h : Kept r clock store) (hnow : clock ≤ now) : Kept r now store := by
  refine ⟨h.version_le, fun key => ?_⟩
  cases hfind : r.configData.find key with
  | none =>
    intro dead hdead t ht
    exact h.gone hfind hdead (UInt64.le_trans hnow ht)
  | some entry =>
    obtain ⟨setting, hset, hholds⟩ := h.held hfind
    rw [hset]
    exact hholds

/-- One key changes, in the registry and in the store. -/
theorem update (h : Kept r clock store) {r' : LoopyClusterRegistry} {store' : Store}
    {e : Option ConfigEntry} {o : Option Setting}
    (hversion : store'.lastVersion.toNat ≤ r'.configVersion.toNat)
    (hfind : r'.configData.find = update r.configData.find key e)
    (hset : store'.settings = update store.settings key o) (hmatch : Matches clock e o) :
    Kept r' clock store' := by
  refine ⟨hversion, fun k => ?_⟩
  rw [hfind, hset]
  by_cases hk : k = key
  · subst hk
    rw [update_self, update_self]
    exact hmatch
  · rw [update_of_ne hk, update_of_ne hk]
    exact h.matched k

theorem get_none (h : Kept r now store) (hfind : r.configData.find key = none) :
    store.get key now = none := by
  unfold Store.get
  cases hset : store.settings key with
  | none => rfl
  | some setting =>
    have hdead := h.gone hfind hset UInt64.le_rfl
    rw [Option.filter_some, if_neg]
    simpa using hdead

theorem get_expired (h : Kept r now store) (hfind : r.configData.find key = some entry)
    (hexpired : entry.expired now = true) : store.get key now = none := by
  obtain ⟨setting, hset, hholds⟩ := h.held hfind
  have hdead := (hholds.expired now).mp hexpired
  rw [Store.get, hset, Option.filter_some, if_neg]
  simpa using hdead

theorem get_live (h : Kept r now store) (hfind : r.configData.find key = some entry)
    (hlive : entry.expired now = false) :
    ∃ setting, store.get key now = some setting ∧ Holds entry setting := by
  obtain ⟨setting, hset, hholds⟩ := h.held hfind
  refine ⟨setting, ?_, hholds⟩
  have hnot : ¬ ¬ setting.Live now := by
    rw [← hholds.expired now, hlive]
    exact Bool.false_ne_true
  rw [Store.get, hset, Option.filter_some, if_pos]
  simpa using hnot

/-! ## The queries -/

theorem configGet (h : Kept r now store) :
    r.configGet key now = (store.get key now).map Setting.value := by
  unfold LoopyClusterRegistry.configGet
  split
  · next hfind => rw [h.get_none hfind, Option.map_none]
  · next entry hfind =>
    split
    · next hexpired => rw [h.get_expired hfind hexpired, Option.map_none]
    · next hlive =>
      obtain ⟨setting, hget, hholds⟩ := h.get_live hfind (Bool.not_eq_true _ ▸ hlive)
      rw [hget, Option.map_some, hholds.value]

theorem configExists (h : Kept r now store) :
    r.configExists key now = (store.get key now).isSome := by
  unfold LoopyClusterRegistry.configExists
  split
  · next hfind => rw [h.get_none hfind, Option.isSome_none]
  · next entry hfind =>
    rw [exists_eq_not_expired]
    cases hexpired : entry.expired now with
    | true => rw [h.get_expired hfind hexpired, Option.isSome_none, Bool.not_true]
    | false =>
      obtain ⟨setting, hget, -⟩ := h.get_live hfind hexpired
      rw [hget, Option.isSome_some, Bool.not_false]

/-- The version of a key, if no expired entry is left of it. -/
theorem configVersionOf (h : Kept r now store)
    (hswept : ∀ entry ∈ r.configData.find key, entry.expired now = false) :
    (r.configVersionOf key ≠ 0 ↔ (store.get key now).isSome = true) ∧
      ∀ setting ∈ store.get key now, r.configVersionOf key = setting.version := by
  unfold LoopyClusterRegistry.configVersionOf
  split
  · next hfind =>
    rw [h.get_none hfind]
    exact ⟨by simp, nofun⟩
  · next entry hfind =>
    obtain ⟨setting, hget, hholds⟩ := h.get_live hfind (hswept entry hfind)
    rw [hget, hholds.version]
    refine ⟨iff_of_true hholds.version_ne rfl, fun other hother => ?_⟩
    rw [Option.some.inj hother]

/-- A key is deleted; the answer is right if no expired entry is left of it. -/
theorem configDelete (h : Kept r now store)
    (hswept : ∀ entry ∈ r.configData.find key, entry.expired now = false) :
    (r.configDelete key).1 = (store.get key now).isSome := by
  unfold LoopyClusterRegistry.configDelete
  split
  · next hfind =>
    rw [h.get_none hfind]
    rfl
  · next entry hfind =>
    obtain ⟨setting, hget, -⟩ := h.get_live hfind (hswept entry hfind)
    rw [hget]
    rfl

end Kept

theorem configDelete_same (r : LoopyClusterRegistry) (key : CString) :
    (r.configDelete key).2.2.configVersion = r.configVersion ∧
      (r.configDelete key).2.2.configData.find =
        update r.configData.find key none := by
  unfold LoopyClusterRegistry.configDelete
  split
  · next hfind =>
    refine ⟨rfl, ?_⟩
    rw [← hfind]
    exact (update_eq_self _ _).symm
  · exact ⟨rfl, OrderedMap.find_erase _ _⟩

/-- The keys and values that `loopyClusterConfigIterate` tells, if they fit in its buffer. -/
theorem configIterate_eq
    (hshort : ∀ key ∈ r.configData.keys, ∀ entry ∈ r.configData.find key,
      entry.expired now = false → key.length ≤ 255) :
    r.configIterate now = r.configData.keys.filterMap fun key =>
      ((r.configData.find key).filter fun entry => !entry.expired now).map
        fun entry => entry.toValue key := by
  unfold LoopyClusterRegistry.configIterate
  refine List.filterMap_congr fun key hkey => ?_
  cases hfind : r.configData.find key with
  | none => rfl
  | some entry =>
    rw [Option.filter_some]
    cases hexpired : entry.expired now with
    | true => simp [hexpired]
    | false =>
      have hlen := hshort key hkey entry hfind hexpired
      simp [hexpired, List.take_of_length_le hlen]

theorem Kept.configIterate (h : Kept r now store)
    (hshort : ∀ key ∈ r.configData.keys, ∀ entry ∈ r.configData.find key,
      entry.expired now = false → key.length ≤ 255) :
    ((r.configIterate now).map LoopyConfigValue.key).Pairwise (· < ·) ∧
      ∀ key value, (key, value) ∈ (r.configIterate now).map (fun v => (v.key, v.value)) ↔
        (store.get key now).map Setting.value = some value := by
  rw [configIterate_eq hshort]
  constructor
  · -- the keys are those of the map, in its order
    rw [List.map_filterMap]
    refine r.configData.sorted.filterMap _ fun a b hab x hx y hy => ?_
    simp only [Option.map_map, Option.map_eq_some_iff, Function.comp_apply] at hx hy
    obtain ⟨_, -, rfl⟩ := hx
    obtain ⟨_, -, rfl⟩ := hy
    exact hab
  · intro key value
    rw [← h.configGet]
    constructor
    · intro hmem
      obtain ⟨v, hv, hpair⟩ := List.mem_map.mp hmem
      obtain ⟨k, -, hk⟩ := List.mem_filterMap.mp hv
      obtain ⟨entry, hentry, rfl⟩ := Option.map_eq_some_iff.mp hk
      obtain ⟨hfind, hlive⟩ := Option.filter_eq_some_iff.mp hentry
      obtain ⟨rfl, rfl⟩ := Prod.mk.inj hpair
      unfold LoopyClusterRegistry.configGet
      rw [show (entry.toValue k).key = k from rfl, hfind]
      dsimp only
      rw [if_neg (by simpa using hlive)]
      rfl
    · intro hget
      unfold LoopyClusterRegistry.configGet at hget
      split at hget
      · cases hget
      · next entry hfind =>
        split at hget
        · cases hget
        · next hlive =>
          refine List.mem_map.mpr ⟨entry.toValue key, ?_, ?_⟩
          · refine List.mem_filterMap.mpr ⟨key, OrderedMap.mem_keys_of_find hfind, ?_⟩
            rw [hfind, Option.filter_some, if_pos (by simpa using hlive), Option.map_some]
          · rw [← Option.some.inj hget]
            rfl

/-! ## The changes -/

/-- A set either fails, or stores the value under a new version. -/
theorem configSet_spec (r : LoopyClusterRegistry) (key : CString) (value : List UInt8)
    (ttlMs : UInt64) (luck : SetLuck) (now : UInt64) :
    ((r.configSet key value ttlMs luck now).1 = 0 ∧ ¬ (value ≠ [] ∧ luck = .all) ∧
        (r.configSet key value ttlMs luck now).2.2.configData = r.configData ∧
        ((r.configSet key value ttlMs luck now).2.2.configVersion = r.configVersion ∨
          (r.configSet key value ttlMs luck now).2.2.configVersion = r.configVersion + 1)) ∨
      ((r.configSet key value ttlMs luck now).1 = r.configVersion + 1 ∧
        (r.configSet key value ttlMs luck now).2.2.configVersion = r.configVersion + 1 ∧
        (r.configSet key value ttlMs luck now).2.2.configData = r.configData.insert key
          { value, version := r.configVersion + 1, expireAt := deadline ttlMs now }) := by
  unfold LoopyClusterRegistry.configSet
  dsimp only
  split
  · next hvalue => exact .inl ⟨rfl, fun hand => hand.1 hvalue, rfl, .inl rfl⟩
  · split
    · split
      · next hmem =>
        refine .inl ⟨rfl, ?_, rfl, .inl rfl⟩
        rintro ⟨-, rfl⟩
        cases hmem
      · exact .inr ⟨rfl, rfl, rfl⟩
    · split
      · next hmem =>
        refine .inl ⟨rfl, ?_, rfl, .inl rfl⟩
        rintro ⟨-, rfl⟩
        cases hmem
      · split
        · next hmem =>
          refine .inl ⟨rfl, ?_, rfl, .inl rfl⟩
          rintro ⟨-, rfl⟩
          cases hmem
        · split
          · next hmem =>
            refine .inl ⟨rfl, ?_, rfl, .inr rfl⟩
            rintro ⟨-, rfl⟩
            cases hmem
          · exact .inr ⟨rfl, rfl, rfl⟩

theorem toNat_succ {version : UInt64} (h : version.toNat + 1 < 2 ^ 64) :
    (version + 1).toNat = version.toNat + 1 := by
  rw [UInt64.toNat_add]
  exact Nat.mod_eq_of_lt h

/-- A loop over expired keys removes them. -/
theorem foldl_expireKey (keys : List CString) (x : List ClusterEvent × LoopyClusterRegistry) :
    (keys.foldl expireKey x).2.configVersion = x.2.configVersion ∧
      ∀ key, (keys.foldl expireKey x).2.configData.find key =
        if key ∈ keys then none else x.2.configData.find key := by
  induction keys generalizing x with
  | nil => exact ⟨rfl, fun _ => rfl⟩
  | cons k keys ih =>
    obtain ⟨hversion, hfind⟩ := ih (expireKey x k)
    have hone : (expireKey x k).2.configVersion = x.2.configVersion ∧
        (expireKey x k).2.configData.find = update x.2.configData.find k none := by
      unfold expireKey
      split
      · next hnone =>
        refine ⟨rfl, ?_⟩
        rw [← hnone]
        exact (update_eq_self _ _).symm
      · exact ⟨rfl, OrderedMap.find_erase _ _⟩
    refine ⟨hversion.trans hone.1, fun key => ?_⟩
    rw [List.foldl_cons, hfind, hone.2]
    by_cases hk : key = k
    · subst hk
      rw [update_self, if_pos List.mem_cons_self, ite_self]
    · rw [update_of_ne hk]
      simp only [List.mem_cons, hk, false_or]

/-- Marking nodes leaves the configuration. -/
theorem foldl_markFailed (ids : List CString) (x : List ClusterEvent × LoopyClusterRegistry) :
    (ids.foldl markFailed x).2.configVersion = x.2.configVersion ∧
      (ids.foldl markFailed x).2.configData = x.2.configData := by
  induction ids generalizing x with
  | nil => exact ⟨rfl, rfl⟩
  | cons id ids ih =>
    obtain ⟨hversion, hdata⟩ := ih (markFailed x id)
    rw [List.foldl_cons, hversion, hdata]
    unfold markFailed
    split <;> exact ⟨rfl, rfl⟩

/-- `loopyClusterProcess` removes nothing that is live. -/
theorem Kept.process (h : Kept r now store) (noMemory : List CString) :
    Kept (r.process now noMemory).2 now store := by
  have hmark := foldl_markFailed
    (((r.expiredKeys now noMemory).foldl expireKey ([], r)).2.failedNodeIds now noMemory)
    ((r.expiredKeys now noMemory).foldl expireKey ([], r))
  have hexpire := foldl_expireKey (r.expiredKeys now noMemory) ([], r)
  refine ⟨?_, fun key => ?_⟩
  · rw [LoopyClusterRegistry.process, hmark.1, hexpire.1]
    exact h.version_le
  · rw [LoopyClusterRegistry.process, hmark.2, hexpire.2]
    split
    · next hkey =>
      have hmem := (List.mem_filter.mp (List.mem_of_mem_take hkey)).2
      split at hmem
      · cases hmem
      · next entry hfind =>
        obtain ⟨setting, hset, hholds⟩ := h.held hfind
        have hexpired : entry.expired now = true := (Bool.and_eq_true_iff.mp hmem).1
        rw [hset]
        intro dead hdead t ht hlive
        rw [← Option.some.inj hdead] at hlive
        refine (hholds.expired now).mp hexpired (hlive.imp_right fun hlt => ?_)
        exact lt_of_le_of_lt (UInt64.le_iff_toNat_le.mp ht) hlt
    · exact h.matched key

/-! ## Every call -/

/-- An admitted call is answered as by the store, and the registry goes on holding it. -/
theorem call_right {s : Configured} {c : TimedCall} (h : Kept s.registry s.clock s.store)
    (hordered : Ordered s c) (hok : Admitted s c) :
    Right s c ∧ Kept (s.step c).2.registry (s.step c).2.clock (s.step c).2.store := by
  have hnow : Kept s.registry c.now s.store := h.later hordered
  obtain ⟨now, call⟩ := c
  cases call with
  | set key value ttlMs luck =>
    obtain ⟨hfits, hroom⟩ := hok
    have hsucc := toNat_succ hroom
    have hne : s.registry.configVersion + 1 ≠ 0 := by
      intro hzero
      rw [hzero] at hsucc
      cases hsucc
    obtain ⟨hzero, hfail, hdata, hversion⟩ | ⟨hanswer, hversion, hdata⟩ :=
      configSet_spec s.registry key value ttlMs luck now
    · refine ⟨⟨fun hv hl => absurd ⟨hv, hl⟩ hfail, fun hv => absurd hzero hv⟩, ?_⟩
      show Kept (s.registry.configSet key value ttlMs luck now).2.2 now
        (if (s.registry.configSet key value ttlMs luck now).1 = 0 then s.store else _)
      rw [if_pos hzero]
      refine ⟨?_, fun k => ?_⟩
      · have hle := hnow.version_le
        obtain hsame | hnext := hversion
        · rwa [hsame]
        · rw [hnext, hsucc]
          exact Nat.le_succ_of_le hle
      · rw [hdata]
        exact hnow.matched k
    · constructor
      · show (_ → _ → (s.registry.configSet key value ttlMs luck now).1 ≠ 0) ∧
          ((s.registry.configSet key value ttlMs luck now).1 ≠ 0 → s.store.lastVersion.toNat <
            (s.registry.configSet key value ttlMs luck now).1.toNat)
        rw [hanswer, hsucc]
        exact ⟨fun _ _ => hne, fun _ => Nat.lt_succ_of_le hnow.version_le⟩
      · show Kept (s.registry.configSet key value ttlMs luck now).2.2 now
          (if (s.registry.configSet key value ttlMs luck now).1 = 0 then s.store else
            { settings := update s.store.settings key
                (some { value, version := (s.registry.configSet key value ttlMs luck now).1,
                        setAt := now, ttlMs })
              lastVersion := (s.registry.configSet key value ttlMs luck now).1 })
        rw [hanswer, if_neg hne]
        have hholds : Holds
            { value, version := s.registry.configVersion + 1, expireAt := deadline ttlMs now }
            { value, version := s.registry.configVersion + 1, setAt := now, ttlMs } :=
          ⟨rfl, rfl, hne, fun t => expired_deadline hfits⟩
        refine hnow.update (e := some _) (le_of_eq (congrArg UInt64.toNat hversion.symm)) ?_ rfl
          hholds
        rw [hdata]
        exact OrderedMap.find_insert _ _ _
  | get key => exact ⟨hnow.configGet, hnow⟩
  | delete key =>
    obtain ⟨hversion, hfind⟩ := configDelete_same s.registry key
    refine ⟨hnow.configDelete hok, hnow.update ?_ hfind rfl (fun _ hnone => nomatch hnone)⟩
    show s.store.lastVersion.toNat ≤ (s.registry.configDelete key).2.2.configVersion.toNat
    rw [hversion]
    exact hnow.version_le
  | «exists» key => exact ⟨hnow.configExists, hnow⟩
  | version key => exact ⟨hnow.configVersionOf hok, hnow⟩
  | iterate => exact ⟨hnow.configIterate hok, hnow⟩
  | process noMemory => exact ⟨trivial, hnow.process noMemory⟩

/-- **The configuration is a map with expiry.** In every sequence of calls at times that do not go
back, in which the sums fit, expired entries are removed before their keys are deleted or asked for
their versions, and live keys are short enough to be iterated, every call is answered as by the
store. -/
theorem config_right (localNodeId : CString) (localAddress : Option CString)
    (localRoles failureTimeoutMs : UInt32) (luck : RegisterLuck) (now : UInt64)
    (calls : List TimedCall)
    (hordered : Along Configured.step Ordered
      (.new localNodeId localAddress localRoles failureTimeoutMs luck now) calls)
    (hok : Along Configured.step Admitted
      (.new localNodeId localAddress localRoles failureTimeoutMs luck now) calls) :
    Along Configured.step Right
      (.new localNodeId localAddress localRoles failureTimeoutMs luck now) calls :=
  law_along (P := fun s => Kept s.registry s.clock s.store)
    (fun _ _ h hand => call_right h hand.1 hand.2) calls
    (Kept.new localNodeId localAddress localRoles failureTimeoutMs luck now)
    (hordered.and hok)

/-- A key that expires and is removed, and one that stays. -/
def configCalls : List TimedCall :=
  [{ now := 1, call := .set [97] [1] 10 .all }, { now := 2, call := .set [98] [2] 0 .all },
    { now := 11, call := .get [97] }, { now := 11, call := .iterate },
    { now := 12, call := .process [] }, { now := 12, call := .version [97] },
    { now := 13, call := .delete [97] }, { now := 13, call := .delete [98] }]

theorem config_right_configCalls :
    Along Configured.step Right (.new [97] none 0 5000 .all 0) configCalls :=
  config_right [97] none 0 5000 .all 0 configCalls
    (by decide +kernel) (by decide +kernel)

/-- An expired key still has a version. -/
theorem expired_version :
    ¬ ∀ calls : List TimedCall,
      Along Configured.step Ordered (.new [97] none 0 5000 .all 0) calls →
      Along Configured.step Right (.new [97] none 0 5000 .all 0) calls := by
  intro hall
  have hright := hall
    [{ now := 1, call := .set [97] [1] 10 .all }, { now := 11, call := .version [97] }]
    (by decide +kernel)
  -- the second call answers 1, and nothing is live
  have hversion := hright.2.1.1.mp (by decide +kernel)
  revert hversion
  decide +kernel

end Loopy.Cluster
