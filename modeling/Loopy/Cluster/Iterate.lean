import Loopy.Cluster.Basic
import Loopy.Lib.Bytes

/-!
# `loopyClusterRegistry.c`: iterating the configuration

`loopyClusterConfigIteratePrefix`, with a callback that may stop it. A key is copied to a buffer of
256 bytes before the callback sees it: `iterate_exact_iff` says when nothing of it is lost.
-/

namespace Loopy.Cluster

open Loopy.Lib

/-! ## The function -/

/-- `iter.keyLen < prefixLen || memcmp(iter.key, prefix, prefixLen) != 0`. -/
def leaves (key keyPrefix : CString) : Bool :=
  decide (key.length < keyPrefix.length) || decide (key.take keyPrefix.length ≠ keyPrefix)

/-- The calls of the callback in the loop, from the keys that the iterator has still to visit; `fn`
says whether the callback stops it. -/
def LoopyClusterRegistry.prefixLoop (r : LoopyClusterRegistry) (keyPrefix : CString)
    (fn : LoopyConfigValue → Bool) (now : UInt64) : List CString → List LoopyConfigValue
  | [] => []
  | key :: rest =>
    if leaves key keyPrefix then []
    else
      match r.configData.find key with
      | none => r.prefixLoop keyPrefix fn now rest
      | some entry =>
        if entry.expired now then r.prefixLoop keyPrefix fn now rest
        else
          let cv := entry.toValue (key.take 255)
          cv :: if fn cv then [] else r.prefixLoop keyPrefix fn now rest

/-- `loopyClusterConfigIteratePrefix`: the number that it returns, and its calls of the callback. -/
def LoopyClusterRegistry.configIteratePrefix (r : LoopyClusterRegistry) (keyPrefix : CString)
    (fn : LoopyConfigValue → Bool) (now : UInt64) : ℕ × List LoopyConfigValue :=
  -- `raxSeek` with `>=`
  let calls := r.prefixLoop keyPrefix fn now (r.configData.keys.dropWhile (· < keyPrefix))
  (calls.length, calls)

/-- A callback that never stops. -/
def never (_ : LoopyConfigValue) : Bool := false

/-! ## The promise -/

/-- The callback sees every live key that begins with the prefix, once and in order, with its entry. -/
structure ExactCalls (r : LoopyClusterRegistry) (keyPrefix : CString) (now : UInt64)
    (result : ℕ × List LoopyConfigValue) : Prop where
  count : result.1 = result.2.length
  ordered : (result.2.map LoopyConfigValue.key).Pairwise (· < ·)
  calls : ∀ cv, cv ∈ result.2 ↔ keyPrefix <+: cv.key ∧
    ∃ entry, r.configData.find cv.key = some entry ∧ entry.expired now = false ∧
      cv = entry.toValue cv.key

/-- The live keys that begin with the prefix fit in the buffer. -/
def KeysFit (r : LoopyClusterRegistry) (keyPrefix : CString) (now : UInt64) : Prop :=
  ∀ key entry, keyPrefix <+: key → r.configData.find key = some entry →
    entry.expired now = false → key.length ≤ 255

/-! ## The loop -/

section loop

variable {r : LoopyClusterRegistry} {keyPrefix key : CString} {now : UInt64} {keys : List CString}
  {entry : ConfigEntry} {cv : LoopyConfigValue}

theorem leaves_eq_false_iff : leaves key keyPrefix = false ↔ keyPrefix <+: key := by
  rw [leaves, Bool.or_eq_false_iff, decide_eq_false_iff_not, decide_eq_false_iff_not, not_not,
    List.prefix_iff_eq_take, eq_comm]
  constructor
  · exact And.right
  · intro htake
    have hlength := congrArg List.length htake
    rw [List.length_take] at hlength
    exact ⟨by omega, htake⟩

/-- What the callback sees of a key. -/
def LoopyClusterRegistry.told (r : LoopyClusterRegistry) (now : UInt64) (key : CString) :
    Option LoopyConfigValue :=
  match r.configData.find key with
  | none => none
  | some entry => if entry.expired now then none else some (entry.toValue (key.take 255))

theorem prefixLoop_cons (hkey : keyPrefix <+: key) :
    r.prefixLoop keyPrefix never now (key :: keys) =
      (r.told now key).toList ++ r.prefixLoop keyPrefix never now keys := by
  rw [LoopyClusterRegistry.prefixLoop, leaves_eq_false_iff.mpr hkey, if_neg Bool.false_ne_true,
    LoopyClusterRegistry.told]
  cases r.configData.find key with
  | none => rfl
  | some entry => cases h : entry.expired now <;> simp [h, never]

/-- The loop stops at the first key that does not begin with the prefix; no later one does. -/
theorem prefixLoop_eq (hsorted : keys.Pairwise (· < ·)) (hfrom : ∀ key ∈ keys, keyPrefix ≤ key) :
    r.prefixLoop keyPrefix never now keys =
      (keys.filter (keyPrefix <+: ·)).filterMap (r.told now) := by
  induction keys with
  | nil => rfl
  | cons key keys ih =>
    rw [List.pairwise_cons] at hsorted
    have hrest := ih hsorted.2 fun k hk => hfrom k (List.mem_cons_of_mem key hk)
    by_cases hkey : keyPrefix <+: key
    · rw [prefixLoop_cons hkey, hrest, List.filter_cons, if_pos (decide_eq_true hkey),
        List.filterMap_cons]
      cases r.told now key <;> rfl
    · have hnone : keys.filter (keyPrefix <+: ·) = [] := by
        refine List.filter_eq_nil_iff.mpr fun k hk h => hkey ?_
        have hle : key ≤ k := le_of_lt (hsorted.1 k hk)
        exact prefix_of_between (hfrom key List.mem_cons_self) hle (of_decide_eq_true h)
      have hleaves : leaves key keyPrefix = true :=
        Bool.eq_true_of_not_eq_false fun h => hkey (leaves_eq_false_iff.mp h)
      rw [LoopyClusterRegistry.prefixLoop, hleaves, if_pos rfl,
        List.filter_cons, if_neg (fun h => hkey (of_decide_eq_true h)), hnone, List.filterMap_nil]

theorem told_eq_some_iff : r.told now key = some cv ↔
    ∃ entry, r.configData.find key = some entry ∧ entry.expired now = false ∧
      cv = entry.toValue (key.take 255) := by
  unfold LoopyClusterRegistry.told
  cases r.configData.find key with
  | none => exact iff_of_false nofun fun ⟨entry, hentry, _⟩ => nomatch hentry
  | some entry =>
    constructor
    · intro htold
      dsimp only at htold
      split at htold
      · cases htold
      · next hlive => exact ⟨entry, rfl, Bool.eq_false_iff.mpr hlive, (Option.some.inj htold).symm⟩
    · rintro ⟨e, he, hlive, rfl⟩
      obtain rfl := Option.some.inj he
      dsimp only
      rw [hlive, if_neg Bool.false_ne_true]

/-- The calls are those for the keys that begin with the prefix. -/
theorem calls_eq : (r.configIteratePrefix keyPrefix never now).2 =
    ((r.configData.keys.dropWhile (· < keyPrefix)).filter (keyPrefix <+: ·)).filterMap
      (r.told now) := by
  have hsorted := r.configData.sorted.sublist (List.dropWhile_sublist (· < keyPrefix))
  exact prefixLoop_eq hsorted fun key hkey => le_of_mem_dropWhile r.configData.sorted hkey

/-- What the callback is told of. -/
theorem mem_calls_iff : cv ∈ (r.configIteratePrefix keyPrefix never now).2 ↔
    ∃ key, keyPrefix <+: key ∧ ∃ entry, r.configData.find key = some entry ∧
      entry.expired now = false ∧ cv = entry.toValue (key.take 255) := by
  rw [calls_eq, List.mem_filterMap]
  constructor
  · rintro ⟨key, hkey, htold⟩
    exact ⟨key, of_decide_eq_true (List.mem_filter.mp hkey).2, told_eq_some_iff.mp htold⟩
  · rintro ⟨key, hkey, hentry⟩
    have htold : r.told now key = some cv := told_eq_some_iff.mpr hentry
    obtain ⟨entry, hfind, -⟩ := hentry
    have hmem := mem_dropWhile_of_begins (r.configData.mem_keys_of_find hfind) hkey
    exact ⟨key, List.mem_filter.mpr ⟨hmem, decide_eq_true hkey⟩, htold⟩

/-- The callback sees no more than the buffer holds. -/
theorem length_le_of_mem_calls (h : cv ∈ (r.configIteratePrefix keyPrefix never now).2) :
    cv.key.length ≤ 255 := by
  obtain ⟨key, -, entry, -, -, rfl⟩ := mem_calls_iff.mp h
  exact List.length_take_le 255 key

theorem exact_iff : ExactCalls r keyPrefix now (r.configIteratePrefix keyPrefix never now) ↔
    KeysFit r keyPrefix now := by
  constructor
  · intro hexact key entry hkey hfind hlive
    have hmem := (hexact.calls (entry.toValue key)).mpr ⟨hkey, entry, hfind, hlive, rfl⟩
    exact length_le_of_mem_calls hmem
  · intro hfit
    have hwhole {key : CString} {entry : ConfigEntry} (hkey : keyPrefix <+: key)
        (hfind : r.configData.find key = some entry) (hlive : entry.expired now = false) :
        key.take 255 = key := List.take_of_length_le (hfit key entry hkey hfind hlive)
    refine ⟨rfl, ?_, fun cv => ?_⟩
    · rw [calls_eq, List.pairwise_map, List.pairwise_filterMap]
      refine (r.configData.sorted.sublist (List.filter_sublist.trans
        (List.dropWhile_sublist _))).imp_of_mem fun {k k'} hk hk' hlt cv hcv cv' hcv' => ?_
      obtain ⟨entry, hfind, hlive, rfl⟩ := told_eq_some_iff.mp hcv
      obtain ⟨entry', hfind', hlive', rfl⟩ := told_eq_some_iff.mp hcv'
      have hprefix := of_decide_eq_true (List.mem_filter.mp hk).2
      have hprefix' := of_decide_eq_true (List.mem_filter.mp hk').2
      rw [hwhole hprefix hfind hlive, hwhole hprefix' hfind' hlive']
      exact hlt
    · rw [mem_calls_iff]
      constructor
      · rintro ⟨key, hkey, entry, hfind, hlive, rfl⟩
        rw [hwhole hkey hfind hlive]
        exact ⟨hkey, entry, hfind, hlive, rfl⟩
      · rintro ⟨hkey, entry, hfind, hlive, heq⟩
        refine ⟨cv.key, hkey, entry, hfind, hlive, ?_⟩
        rw [hwhole hkey hfind hlive]
        exact heq

/-- No key is below the empty prefix, and all of them begin with it. -/
theorem configIterate_eq_prefix (r : LoopyClusterRegistry) (now : UInt64) :
    r.configIteratePrefix [] never now = ((r.configIterate now).length, r.configIterate now) := by
  have hkeys : (r.configData.keys.dropWhile (· < [])).filter ([] <+: ·) = r.configData.keys := by
    refine (List.filter_eq_self.mpr fun key _ => decide_eq_true List.nil_prefix).trans ?_
    cases r.configData.keys with
    | nil => rfl
    | cons key keys =>
      rw [List.dropWhile_cons, if_neg fun h => not_le_of_gt (of_decide_eq_true h)
        (le_of_begins List.nil_prefix)]
  have hcalls : (r.configIteratePrefix [] never now).2 = r.configIterate now := by
    rw [calls_eq, hkeys]
    rfl
  exact Prod.ext (congrArg List.length hcalls) hcalls

end loop

/-- **The iteration is exact** if and only if the live keys that begin with the prefix fit in the
buffer; without a prefix it is `loopyClusterConfigIterate`. -/
theorem iterate_exact_iff (r : LoopyClusterRegistry) (keyPrefix : CString) (now : UInt64) :
    (ExactCalls r keyPrefix now (r.configIteratePrefix keyPrefix never now) ↔
      KeysFit r keyPrefix now) ∧
    r.configIteratePrefix [] never now = ((r.configIterate now).length, r.configIterate now) :=
  ⟨exact_iff, configIterate_eq_prefix r now⟩

/-- A key of 256 bytes is set, and the callback does not see it. -/
theorem iterate_not_exact :
    ∃ key : CString, key.length = 256 ∧ ¬ ExactCalls
      ((LoopyClusterRegistry.empty [98] 0).configSet key [1] 0 .all 0).2.2 [97] 0
      (((LoopyClusterRegistry.empty [98] 0).configSet key [1] 0 .all 0).2.2.configIteratePrefix [97]
        never 0) := by
  have hlength : (97 :: List.replicate 255 97 : CString).length = 256 := by
    rw [List.length_cons, List.length_replicate]
  refine ⟨97 :: List.replicate 255 97, hlength, fun hexact => ?_⟩
  have hbegins : [97] <+: (97 :: List.replicate 255 97 : CString) := ⟨_, rfl⟩
  generalize (97 :: List.replicate 255 97 : CString) = key at hlength hbegins hexact
  have hmem := (hexact.calls ⟨key, [1], 1, 0⟩).mpr
    ⟨hbegins, ⟨[1], 1, 0⟩, OrderedMap.find_insert_self, by decide, rfl⟩
  have hle : key.length ≤ 255 := length_le_of_mem_calls hmem
  omega

end Loopy.Cluster
