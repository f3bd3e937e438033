import Mathlib.Data.Fintype.Basic
import Loopy.Cluster.Basic
import Loopy.Lib.Memory
import Loopy.Lib.Run

/-!
# `loopyClusterRegistry.c`: threads that set and delete

Threads that run `loopyClusterConfigSet` and `loopyClusterConfigDelete`. A locked section is one
step; after the unlock a call reads the shared entry for its event, field by field, and an update
reads the version once more for its answer. Entries and values are objects of two heaps.

Another call may update or free the entry in the meantime. `updates_own_versions` is the law where
none does.
-/

namespace Loopy.Cluster.Updates

open Loopy.Lib
open Function (update update_of_ne update_self)

/-! ## The machine -/

/-- A `configEntry` in memory: `value` is the address of a buffer. -/
structure Entry where
  value : ℕ
  valueLen : ℕ
  version : UInt64
  expireAt : UInt64
deriving DecidableEq, Repr

/-- Which path a call takes. -/
inductive Kind
  | update
  | create
  | delete
deriving DecidableEq, Repr

/-- What a call has stored, or removed, under the lock. -/
structure Stored where
  kind : Kind
  key : CString
  value : List UInt8
  version : UInt64
deriving DecidableEq, Repr

/-- What a call does next with its entry, and what it has read. -/
inductive Stage
  | value
  | valueLen (value : ℕ)
  | version (value valueLen : ℕ)
  | expireAt (value valueLen : ℕ) (version : UInt64)
  /-- `emitEvent`: the callback reads the buffer. -/
  | emit (value valueLen : ℕ) (version expireAt : UInt64)
  /-- About to return; a delete frees its entry first. -/
  | finish
deriving DecidableEq, Repr

/-- Where a thread is. -/
inductive Pc
  | idle
  | after (own : Stored) (entry : ℕ) (stage : Stage)
deriving DecidableEq, Repr

/-- The entry that the thread will still read. -/
def Pc.uses : Pc → Option ℕ
  | .idle => none
  | .after own entry .finish => if own.kind = .create then none else some entry
  | .after _ entry _ => some entry

/-- What a callback sees; `none` is a buffer that is not there. -/
structure Event where
  own : Stored
  value : Option (List UInt8)
  version : UInt64
  expireAt : UInt64
deriving DecidableEq, Repr

/-- The configuration of a registry, with its threads. -/
structure Configs (T : Type) where
  entries : Heap Entry
  buffers : Heap (List UInt8)
  configData : CString → Option ℕ
  configVersion : UInt64
  thread : T → Pc
  /-- The successful sets, with what they have returned. -/
  returned : List (Stored × UInt64)
  events : List Event
  readFreed : Bool

/-- Nothing is set. -/
def Configs.fresh (T : Type) : Configs T :=
  { entries := .empty Entry, buffers := .empty (List UInt8), configData := fun _ => none,
    configVersion := 0, thread := fun _ => .idle, returned := [], events := [],
    readFreed := false }

/-- The actions: a locked section, or a step after it. -/
inductive Action (T : Type)
  | set (t : T) (key : CString) (value : List UInt8) (ttlMs : UInt64) (luck : SetLuck)
    (now : UInt64)
  | delete (t : T) (key : CString)
  | run (t : T)
deriving DecidableEq, Repr

variable {T : Type} [DecidableEq T]

/-- The thread `t` moves to `pc`. -/
def Configs.move (s : Configs T) (t : T) (pc : Pc) : Configs T :=
  { s with thread := update s.thread t pc }

/-- The entry of a key is overwritten, and its old value is freed. -/
def Configs.overwrite (s : Configs T) (entry old : ℕ) (value : List UInt8) (expireAt : UInt64) :
    Configs T :=
  { s with
    entries := s.entries.write entry
      { value := s.buffers.next, valueLen := value.length, version := s.configVersion + 1,
        expireAt }
    buffers := (s.buffers.alloc value).free old
    configVersion := s.configVersion + 1 }

/-- A new entry is inserted. -/
def Configs.insert (s : Configs T) (key : CString) (value : List UInt8) (expireAt : UInt64) :
    Configs T :=
  { s with
    entries := s.entries.alloc
      { value := s.buffers.next, valueLen := value.length, version := s.configVersion + 1,
        expireAt }
    buffers := s.buffers.alloc value
    configData := update s.configData key (some s.entries.next)
    configVersion := s.configVersion + 1 }

/-- The locked section of `loopyClusterConfigSet`; a call that fails returns 0. -/
def Configs.set (s : Configs T) (t : T) (key : CString) (value : List UInt8) (ttlMs : UInt64)
    (luck : SetLuck) (now : UInt64) : Configs T :=
  if value = [] then s
  else
    match s.configData key with
    | some entry =>
      if luck.zmalloc = false then s
      else
        match s.entries.cell entry with
        | none => { s with readFreed := true }
        | some existing =>
          (s.overwrite entry existing.value value (deadline ttlMs now)).move t
            (.after { kind := .update, key, value, version := s.configVersion + 1 } entry .value)
    | none =>
      if luck.zcalloc = false then s
      else if luck.zmalloc = false then s
      else if luck.raxInsert = false then { s with configVersion := s.configVersion + 1 }
      else
        (s.insert key value (deadline ttlMs now)).move t
          (.after { kind := .create, key, value, version := s.configVersion + 1 }
            s.entries.next .value)

/-- The locked section of `loopyClusterConfigDelete`; for a key that is not there it returns
`false`. -/
def Configs.delete (s : Configs T) (t : T) (key : CString) : Configs T :=
  match s.configData key with
  | none => s
  | some entry =>
    match s.entries.cell entry with
    | none => { s with readFreed := true }
    | some old =>
      { s.move t (.after { kind := .delete, key, value := (s.buffers.cell old.value).getD []
                           version := old.version } entry .value) with
        configData := update s.configData key none }

/-- A field of the entry is read. -/
def Configs.read (s : Configs T) (t : T) (entry : ℕ) (k : Entry → Configs T) : Configs T :=
  match s.entries.cell entry with
  | none => { s.move t .idle with readFreed := true }
  | some x => k x

/-- The bytes that a callback reads. -/
def Configs.bytes (s : Configs T) (value valueLen : ℕ) : Option (List UInt8) :=
  (s.buffers.cell value).bind fun bytes =>
    if valueLen ≤ bytes.length then some (bytes.take valueLen) else none

/-- The end of a call: an update reads its version again, a delete frees its entry. -/
def Configs.finish (s : Configs T) (t : T) (own : Stored) (entry : ℕ) : Configs T :=
  match own.kind with
  | .create => { s.move t .idle with returned := s.returned ++ [(own, own.version)] }
  | .update => s.read t entry fun x =>
    { s.move t .idle with returned := s.returned ++ [(own, x.version)] }
  | .delete => s.read t entry fun x =>
    { s.move t .idle with
      entries := s.entries.free entry
      buffers := s.buffers.free x.value }

/-- A step after the unlock. -/
def Configs.run (s : Configs T) (t : T) : Option (Configs T) :=
  match s.thread t with
  | .idle => none
  | .after own entry stage =>
    some (match stage with
      | .value => s.read t entry fun x => s.move t (.after own entry (.valueLen x.value))
      | .valueLen value =>
        s.read t entry fun x => s.move t (.after own entry (.version value x.valueLen))
      | .version value valueLen =>
        s.read t entry fun x => s.move t (.after own entry
          (if own.kind = .delete then .emit value valueLen x.version 0
          else .expireAt value valueLen x.version))
      | .expireAt value valueLen version =>
        s.read t entry fun x => s.move t (.after own entry
          (.emit value valueLen version x.expireAt))
      | .emit value valueLen version expireAt =>
        { s.move t (.after own entry .finish) with
          events := s.events ++ [{ own, value := s.bytes value valueLen, version, expireAt }] }
      | .finish => s.finish t own entry)

/-- One action. -/
def step (s : Configs T) : Action T → Option (Configs T)
  | .set t key value ttlMs luck now =>
    if s.thread t = .idle then some (s.set t key value ttlMs luck now) else none
  | .delete t key => if s.thread t = .idle then some (s.delete t key) else none
  | .run t => s.run t

/-! ## The law -/

/-- Every set has its own version, and tells it; nothing freed is read. -/
structure UpdateLaw (s : Configs T) : Prop where
  distinct : (s.returned.map Prod.snd).Nodup
  own : ∀ p ∈ s.returned, p.2 = p.1.version
  event : ∀ e ∈ s.events, e.value = some e.own.value ∧ e.version = e.own.version
  no_freed : s.readFreed = false

/-- No other thread will still read the entry. -/
def Configs.UnusedBut (s : Configs T) (t : T) (entry : ℕ) : Prop :=
  ∀ u ≠ t, (s.thread u).uses ≠ some entry

/-- A delete frees only what nobody else reads. -/
def Configs.MayRun (s : Configs T) (t : T) : Pc → Prop
  | .after own entry .finish => own.kind = .delete → s.UnusedBut t entry
  | _ => True

/-- An entry is not updated or freed while another call reads it, and versions do not run out. -/
def Undisturbed (s : Configs T) : Action T → Prop
  | .set t key _ _ _ _ =>
    s.configVersion.toNat + 1 < 2 ^ 64 ∧ ∀ entry ∈ s.configData key, s.UnusedBut t entry
  | .delete .. => True
  | .run t => s.MayRun t (s.thread t)

instance [Fintype T] (s : Configs T) (t : T) (entry : ℕ) : Decidable (s.UnusedBut t entry) :=
  inferInstanceAs (Decidable (∀ u ≠ t, (s.thread u).uses ≠ some entry))

instance [Fintype T] (s : Configs T) (t : T) : ∀ pc, Decidable (s.MayRun t pc)
  | .after _ _ .finish =>
    inferInstanceAs (Decidable (_ → _))
  | .idle | .after _ _ .value | .after _ _ (.valueLen _) | .after _ _ (.version ..)
  | .after _ _ (.expireAt ..) | .after _ _ (.emit ..) => isTrue trivial

instance [Fintype T] (s : Configs T) : ∀ a, Decidable (Undisturbed s a)
  | .set .. =>
    inferInstanceAs (Decidable (_ ∧ _))
  | .delete .. => isTrue trivial
  | .run t => inferInstanceAs (Decidable (s.MayRun t (s.thread t)))

/-! ## The invariant -/

/-- What a call has read so far is what the entry holds. -/
def Stage.Read (x : Entry) : Stage → Prop
  | .value | .finish => True
  | .valueLen v => v = x.value
  | .version v len => v = x.value ∧ len = x.valueLen
  | .expireAt v len ver | .emit v len ver _ => v = x.value ∧ len = x.valueLen ∧ ver = x.version

/-- The entry of a call still holds what the call has stored. -/
def Configs.Mine (s : Configs T) (own : Stored) (entry : ℕ) (stage : Stage) : Prop :=
  ∃ x, s.entries.cell entry = some x ∧ x.version = own.version ∧
    s.buffers.cell x.value = some own.value ∧ x.valueLen = own.value.length ∧ stage.Read x

/-- The version that a running set has taken. -/
def Pc.issued : Pc → Option UInt64
  | .idle => none
  | .after own _ _ => if own.kind = .delete then none else some own.version

/-- The heap: no two keys share an entry and no two entries a buffer, and the calls find their
entries as they have left them. -/
structure HeapInv (s : Configs T) : Prop where
  mapped : ∀ key entry, s.configData key = some entry → ∃ x bytes,
    s.entries.cell entry = some x ∧ s.buffers.cell x.value = some bytes ∧
      x.valueLen = bytes.length
  key_inj : ∀ key key' entry, s.configData key = some entry → s.configData key' = some entry →
    key = key'
  buffer_inj : ∀ entry entry' x x', s.entries.cell entry = some x →
    s.entries.cell entry' = some x' → x.value = x'.value → entry = entry'
  buffer_lt : ∀ entry x, s.entries.cell entry = some x → x.value < s.buffers.next
  held : ∀ t own entry stage, s.thread t = .after own entry stage →
    (s.thread t).uses = some entry → s.Mine own entry stage
  unmapped : ∀ t own entry stage, s.thread t = .after own entry stage → own.kind = .delete →
    ∀ key, s.configData key ≠ some entry

/-- The versions: every one is taken once. -/
structure VersionInv (s : Configs T) : Prop where
  issued_le : ∀ t v, (s.thread t).issued = some v → v.toNat ≤ s.configVersion.toNat
  issued_inj : ∀ t u v, (s.thread t).issued = some v → (s.thread u).issued = some v → t = u
  issued_new : ∀ t v, (s.thread t).issued = some v → v ∉ s.returned.map fun p => p.1.version
  returned_le : ∀ p ∈ s.returned, p.1.version.toNat ≤ s.configVersion.toNat
  nodup : (s.returned.map fun p => p.1.version).Nodup

/-- The answers and the events. -/
structure ToldInv (s : Configs T) : Prop where
  own : ∀ p ∈ s.returned, p.2 = p.1.version
  event : ∀ e ∈ s.events, e.value = some e.own.value ∧ e.version = e.own.version
  no_freed : s.readFreed = false

variable {s s' : Configs T} {t u : T} {own : Stored} {entry : ℕ} {stage stage' : Stage} {pc q : Pc}

omit [DecidableEq T] in
theorem ToldInv.law (h : ToldInv s) (hv : VersionInv s) : UpdateLaw s := by
  have hmap : s.returned.map Prod.snd = s.returned.map fun p => p.1.version :=
    List.map_congr_left h.own
  refine ⟨?_, h.own, h.event, h.no_freed⟩
  rw [hmap]
  exact hv.nodup

theorem move_thread_self (s : Configs T) (t : T) (pc : Pc) : (s.move t pc).thread t = pc :=
  update_self ..

theorem move_thread_of_ne (hu : u ≠ t) : (s.move t pc).thread u = s.thread u :=
  update_of_ne hu ..

theorem move_thread (hu : (s.move t pc).thread u = q) :
    u = t ∧ pc = q ∨ u ≠ t ∧ s.thread u = q := by
  by_cases hut : u = t
  · subst hut
    rw [move_thread_self] at hu
    exact .inl ⟨rfl, hu⟩
  · rw [move_thread_of_ne hut] at hu
    exact .inr ⟨hut, hu⟩

/-! ## Versions -/

omit [DecidableEq T] in
theorem VersionInv.congr (h : VersionInv s) (hthread : s'.thread = s.thread)
    (hversion : s'.configVersion = s.configVersion) (hreturned : s'.returned = s.returned) :
    VersionInv s' := by
  refine ⟨?_, ?_, ?_, ?_, ?_⟩
  · rw [hthread, hversion]
    exact h.issued_le
  · rw [hthread]
    exact h.issued_inj
  · rw [hthread, hreturned]
    exact h.issued_new
  · rw [hreturned, hversion]
    exact h.returned_le
  · rw [hreturned]
    exact h.nodup

/-- A thread keeps its version, or has none before and after. -/
theorem VersionInv.move (h : VersionInv s) (hpc : pc.issued = (s.thread t).issued) :
    VersionInv (s.move t pc) := by
  have hissued (u : T) : ((s.move t pc).thread u).issued = (s.thread u).issued := by
    by_cases hu : u = t
    · subst hu
      rw [move_thread_self, hpc]
    · rw [move_thread_of_ne hu]
  refine ⟨?_, ?_, ?_, h.returned_le, h.nodup⟩
  · intro u v hv
    rw [hissued] at hv
    exact h.issued_le u v hv
  · intro u w v hv hw
    rw [hissued] at hv hw
    exact h.issued_inj u w v hv hw
  · intro u v hv
    rw [hissued] at hv
    exact h.issued_new u v hv

/-- A thread takes the next version. -/
theorem VersionInv.take (h : VersionInv s) (hroom : s.configVersion.toNat + 1 < 2 ^ 64) (t : T)
    (pc : Pc) (hpc : pc.issued = some (s.configVersion + 1)) :
    VersionInv { s.move t pc with configVersion := s.configVersion + 1 } := by
  have hsucc : (s.configVersion + 1).toNat = s.configVersion.toNat + 1 := by
    rw [UInt64.toNat_add]
    exact Nat.mod_eq_of_lt hroom
  -- a version that was issued before is not the next one
  have hold (v : UInt64) (hle : v.toNat ≤ s.configVersion.toNat) : v ≠ s.configVersion + 1 := by
    rintro rfl
    omega
  have hissued {u : T} {v : UInt64} (hv : ((s.move t pc).thread u).issued = some v) :
      u = t ∧ v = s.configVersion + 1 ∨ u ≠ t ∧ (s.thread u).issued = some v := by
    by_cases hu : u = t
    · subst hu
      rw [move_thread_self, hpc] at hv
      exact .inl ⟨rfl, (Option.some.inj hv).symm⟩
    · rw [move_thread_of_ne hu] at hv
      exact .inr ⟨hu, hv⟩
  refine ⟨?_, ?_, ?_, ?_, h.nodup⟩
  · intro u v hv
    show v.toNat ≤ (s.configVersion + 1).toNat
    rw [hsucc]
    obtain ⟨-, rfl⟩ | ⟨-, hu⟩ := hissued hv
    · exact hsucc.le
    · exact Nat.le_succ_of_le (h.issued_le u v hu)
  · intro u w v hv hw
    obtain ⟨rfl, rfl⟩ | ⟨-, hu⟩ := hissued hv
    · obtain ⟨rfl, -⟩ | ⟨-, hw⟩ := hissued hw
      · rfl
      · exact absurd rfl (hold _ (h.issued_le w _ hw))
    · obtain ⟨-, rfl⟩ | ⟨-, hw⟩ := hissued hw
      · exact absurd rfl (hold _ (h.issued_le u _ hu))
      · exact h.issued_inj u w v hu hw
  · intro u v hv hmem
    obtain ⟨p, hp, rfl⟩ := List.mem_map.mp hmem
    obtain ⟨-, hnext⟩ | ⟨-, hu⟩ := hissued hv
    · exact hold _ (h.returned_le p hp) hnext
    · exact h.issued_new u _ hu hmem
  · intro p hp
    show p.1.version.toNat ≤ (s.configVersion + 1).toNat
    rw [hsucc]
    exact Nat.le_succ_of_le (h.returned_le p hp)

omit [DecidableEq T] in
/-- A set that fails may use up a version. -/
theorem VersionInv.skip (h : VersionInv s) (hroom : s.configVersion.toNat + 1 < 2 ^ 64) :
    VersionInv { s with configVersion := s.configVersion + 1 } := by
  have hsucc : (s.configVersion + 1).toNat = s.configVersion.toNat + 1 := by
    rw [UInt64.toNat_add]
    exact Nat.mod_eq_of_lt hroom
  refine ⟨?_, h.issued_inj, h.issued_new, ?_, h.nodup⟩
  · intro u v hv
    exact (h.issued_le u v hv).trans (by rw [hsucc]; exact Nat.le_succ _)
  · intro p hp
    exact (h.returned_le p hp).trans (by rw [hsucc]; exact Nat.le_succ _)

/-- A set returns. -/
theorem VersionInv.return (h : VersionInv s) (hown : (s.thread t).issued = some own.version)
    (v : UInt64) :
    VersionInv { s.move t .idle with returned := s.returned ++ [(own, v)] } := by
  have hothers {u : T} {w : UInt64} (hw : ((s.move t .idle).thread u).issued = some w) :
      u ≠ t ∧ (s.thread u).issued = some w := by
    by_cases hu : u = t
    · subst hu
      rw [move_thread_self] at hw
      cases hw
    · rw [move_thread_of_ne hu] at hw
      exact ⟨hu, hw⟩
  have hmap : (s.returned ++ [(own, v)]).map (fun p => p.1.version) =
      s.returned.map (fun p => p.1.version) ++ [own.version] := List.map_append ..
  refine ⟨?_, ?_, ?_, ?_, ?_⟩
  · intro u w hw
    exact h.issued_le u w (hothers hw).2
  · intro u x w hw hx
    exact h.issued_inj u x w (hothers hw).2 (hothers hx).2
  · intro u w hw hmem
    obtain ⟨hut, hu⟩ := hothers hw
    rw [hmap] at hmem
    obtain hold | hnew := List.mem_append.mp hmem
    · exact h.issued_new u w hu hold
    · rw [List.mem_singleton.mp hnew] at hu
      exact hut (h.issued_inj u t _ hu hown)
  · intro p hp
    obtain hold | hnew := List.mem_append.mp hp
    · exact h.returned_le p hold
    · rw [List.mem_singleton.mp hnew]
      exact h.issued_le t own.version hown
  · rw [hmap]
    exact List.nodup_append'.mpr ⟨h.nodup, List.nodup_singleton _,
      List.disjoint_singleton.mpr (h.issued_new t own.version hown)⟩

/-! ## The heap -/

omit [DecidableEq T] in
/-- A call does not notice what happens to other entries and buffers. -/
theorem Configs.Mine.frame (h : s.Mine own entry stage)
    (hentry : ∀ x, s.entries.cell entry = some x → s'.entries.cell entry = some x)
    (hbuffer : ∀ x bytes, s.entries.cell entry = some x → s.buffers.cell x.value = some bytes →
      s'.buffers.cell x.value = some bytes) : s'.Mine own entry stage := by
  obtain ⟨x, hx, hversion, hbytes, hlen, hread⟩ := h
  exact ⟨x, hentry x hx, hversion, hbuffer x _ hx hbytes, hlen, hread⟩

omit [DecidableEq T] in
theorem HeapInv.congr (h : HeapInv s) (hentries : s'.entries = s.entries)
    (hbuffers : s'.buffers = s.buffers) (hdata : s'.configData = s.configData)
    (hthread : s'.thread = s.thread) : HeapInv s' := by
  have hmine (own : Stored) (entry : ℕ) (stage : Stage) (hold : s.Mine own entry stage) :
      s'.Mine own entry stage := by
    unfold Configs.Mine
    rw [hentries, hbuffers]
    exact hold
  refine ⟨?_, ?_, ?_, ?_, ?_, ?_⟩
  · rw [hentries, hbuffers, hdata]
    exact h.mapped
  · rw [hdata]
    exact h.key_inj
  · rw [hentries]
    exact h.buffer_inj
  · rw [hentries, hbuffers]
    exact h.buffer_lt
  · rw [hthread]
    exact fun t own entry stage ht huses =>
      hmine own entry stage (h.held t own entry stage ht huses)
  · rw [hthread, hdata]
    exact h.unmapped

theorem Pc.uses_delete (h : own.kind = .delete) :
    (Pc.after own entry stage).uses = some entry := by
  cases stage with
  | finish => rw [Pc.uses, h, if_neg nofun]
  | value | valueLen | version | expireAt | emit => rfl

/-- A thread goes on to a stage for which it has read the right things. -/
theorem HeapInv.advance (h : HeapInv s) (ht : s.thread t = .after own entry stage)
    (hmine : (Pc.after own entry stage').uses = some entry → s.Mine own entry stage') :
    HeapInv (s.move t (.after own entry stage')) := by
  refine ⟨h.mapped, h.key_inj, h.buffer_inj, h.buffer_lt, ?_, ?_⟩
  · intro u own' e st hu huses
    obtain ⟨rfl, hpc⟩ | ⟨hne, hold⟩ := move_thread hu
    · obtain ⟨rfl, rfl, rfl⟩ := Pc.after.inj hpc
      rw [move_thread_self] at huses
      exact hmine huses
    · rw [move_thread_of_ne hne] at huses
      exact h.held u own' e st hold huses
  · intro u own' e st hu hkind key
    obtain ⟨rfl, hpc⟩ | ⟨-, hold⟩ := move_thread hu
    · obtain ⟨rfl, rfl, rfl⟩ := Pc.after.inj hpc
      exact h.unmapped u own entry stage ht hkind key
    · exact h.unmapped u own' e st hold hkind key

/-- A call is over. -/
theorem HeapInv.idle (h : HeapInv s) (t : T) : HeapInv (s.move t .idle) := by
  refine ⟨h.mapped, h.key_inj, h.buffer_inj, h.buffer_lt, ?_, ?_⟩
  · intro u own' e st hu huses
    obtain ⟨-, hpc⟩ | ⟨hne, hold⟩ := move_thread hu
    · cases hpc
    · rw [move_thread_of_ne hne] at huses
      exact h.held u own' e st hold huses
  · intro u own' e st hu
    obtain ⟨-, hpc⟩ | ⟨-, hold⟩ := move_thread hu
    · cases hpc
    · exact h.unmapped u own' e st hold

omit [DecidableEq T] in
/-- One entry gets the next buffer: the buffers are still different. -/
theorem HeapInv.freshBuffer (h : HeapInv s) {cell : ℕ → Option Entry} {new : Entry}
    (hself : cell entry = some new) (hnew : new.value = s.buffers.next)
    (hothers : ∀ e ≠ entry, cell e = s.entries.cell e) :
    (∀ e e' x x', cell e = some x → cell e' = some x' → x.value = x'.value → e = e') ∧
      ∀ e x, cell e = some x → x.value < s.buffers.next + 1 := by
  have hcases (e : ℕ) (x : Entry) (hx : cell e = some x) :
      e = entry ∧ x.value = s.buffers.next ∨
        s.entries.cell e = some x ∧ x.value < s.buffers.next := by
    by_cases he : e = entry
    · subst he
      rw [hself] at hx
      rw [← Option.some.inj hx]
      exact .inl ⟨rfl, hnew⟩
    · rw [hothers e he] at hx
      exact .inr ⟨hx, h.buffer_lt e x hx⟩
  constructor
  · intro e e' x x' hx hx' heq
    obtain ⟨he, hv⟩ | ⟨hx, hlt⟩ := hcases e x hx
    · obtain ⟨he', -⟩ | ⟨-, hlt'⟩ := hcases e' x' hx'
      · exact he.trans he'.symm
      · omega
    · obtain ⟨-, hv'⟩ | ⟨hx', -⟩ := hcases e' x' hx'
      · omega
      · exact h.buffer_inj e e' x x' hx hx' heq
  · intro e x hx
    obtain ⟨-, hv⟩ | ⟨-, hlt⟩ := hcases e x hx
    · omega
    · omega

/-- The entry that nobody else reads is overwritten. -/
theorem HeapInv.overwrite (h : HeapInv s) {key : CString} {old : Entry}
    (hkey : s.configData key = some entry) (hold : s.entries.cell entry = some old)
    (hunused : s.UnusedBut t entry) (value : List UInt8) (expireAt : UInt64) :
    HeapInv ((s.overwrite entry old.value value expireAt).move t
      (.after { kind := .update, key, value, version := s.configVersion + 1 } entry .value)) := by
  -- the entry now has the new buffer
  have hself : (s.overwrite entry old.value value expireAt).entries.cell entry = some
      { value := s.buffers.next, valueLen := value.length, version := s.configVersion + 1,
        expireAt } := Heap.cell_write_self hold
  have hnew : (s.overwrite entry old.value value expireAt).buffers.cell s.buffers.next =
      some value := by
    have hne : s.buffers.next ≠ old.value := Nat.ne_of_gt (h.buffer_lt entry old hold)
    rw [Configs.overwrite, Heap.cell_free_of_ne hne, Heap.cell_alloc_self]
  -- the other entries, and their buffers, are as before
  have hentry {e : ℕ} (he : e ≠ entry) :
      (s.overwrite entry old.value value expireAt).entries.cell e = s.entries.cell e :=
    Heap.cell_write_of_ne he
  have hbuffer {e : ℕ} {x : Entry} {bytes : List UInt8} (he : e ≠ entry)
      (hx : s.entries.cell e = some x) (hb : s.buffers.cell x.value = some bytes) :
      (s.overwrite entry old.value value expireAt).buffers.cell x.value = some bytes := by
    have hne : x.value ≠ old.value := fun heq => he (h.buffer_inj e entry x old hx hold heq)
    rw [Configs.overwrite, Heap.cell_free_of_ne hne, Heap.cell_alloc_of_some hb]
  obtain ⟨hinj, hlt⟩ := h.freshBuffer hself rfl fun e he => hentry he
  refine ⟨?_, h.key_inj, hinj, hlt, ?_, ?_⟩
  · intro k e hk
    by_cases he : e = entry
    · subst he
      exact ⟨_, value, hself, hnew, rfl⟩
    · obtain ⟨x, bytes, hx, hb, hlen⟩ := h.mapped k e hk
      exact ⟨x, bytes, (hentry he).trans hx, hbuffer he hx hb, hlen⟩
  · intro u own' e st hu huses
    obtain ⟨rfl, hpc⟩ | ⟨hne, hthread⟩ := move_thread hu
    · obtain ⟨rfl, rfl, rfl⟩ := Pc.after.inj hpc
      exact ⟨_, hself, rfl, hnew, rfl, trivial⟩
    · rw [move_thread_of_ne hne] at huses
      have he : e ≠ entry := fun heq => hunused u hne (heq ▸ huses)
      have hmine : s.Mine own' e st := h.held u own' e st hthread huses
      exact hmine.frame (fun x hx => (hentry he).trans hx) fun x bytes hx hb => hbuffer he hx hb
  · intro u own' e st hu hkind
    obtain ⟨-, hpc⟩ | ⟨-, hthread⟩ := move_thread hu
    · obtain ⟨rfl, -, -⟩ := Pc.after.inj hpc
      cases hkind
    · exact h.unmapped u own' e st hthread hkind

/-- An entry is made for a key that has none. -/
theorem HeapInv.insert (h : HeapInv s) {key : CString} (value : List UInt8) (expireAt : UInt64) :
    HeapInv ((s.insert key value expireAt).move t
      (.after { kind := .create, key, value, version := s.configVersion + 1 } s.entries.next
        .value)) := by
  have hself : (s.insert key value expireAt).entries.cell s.entries.next = some
      { value := s.buffers.next, valueLen := value.length, version := s.configVersion + 1,
        expireAt } := Heap.cell_alloc_self
  have hnew : (s.insert key value expireAt).buffers.cell s.buffers.next = some value :=
    Heap.cell_alloc_self
  have hentry {e : ℕ} (he : e ≠ s.entries.next) :
      (s.insert key value expireAt).entries.cell e = s.entries.cell e := Heap.cell_alloc_of_ne he
  have hbuffer {b : ℕ} {bytes : List UInt8} (hb : s.buffers.cell b = some bytes) :
      (s.insert key value expireAt).buffers.cell b = some bytes := Heap.cell_alloc_of_some hb
  have hkeys {k : CString} {e : ℕ}
      (hk : update s.configData key (some s.entries.next) k = some e) :
      k = key ∧ e = s.entries.next ∨ k ≠ key ∧ s.configData k = some e := by
    by_cases hkk : k = key
    · subst hkk
      rw [update_self] at hk
      exact .inl ⟨rfl, (Option.some.inj hk).symm⟩
    · rw [update_of_ne hkk] at hk
      exact .inr ⟨hkk, hk⟩
  have hmapped {k : CString} {e : ℕ} (hk : s.configData k = some e) : e ≠ s.entries.next := by
    obtain ⟨x, -, hx, -⟩ := h.mapped k e hk
    exact Heap.ne_next hx
  obtain ⟨hinj, hlt⟩ := h.freshBuffer hself rfl fun e he => hentry he
  refine ⟨?_, ?_, hinj, hlt, ?_, ?_⟩
  · intro k e hk
    obtain ⟨-, rfl⟩ | ⟨-, hk⟩ := hkeys hk
    · exact ⟨_, value, hself, hnew, rfl⟩
    · obtain ⟨x, bytes, hx, hb, hlen⟩ := h.mapped k e hk
      exact ⟨x, bytes, (hentry (hmapped hk)).trans hx, hbuffer hb, hlen⟩
  · intro k k' e hk hk'
    obtain ⟨rfl, rfl⟩ | ⟨-, hk⟩ := hkeys hk
    · obtain ⟨rfl, -⟩ | ⟨-, hk'⟩ := hkeys hk'
      · rfl
      · exact absurd rfl (hmapped hk')
    · obtain ⟨-, rfl⟩ | ⟨-, hk'⟩ := hkeys hk'
      · exact absurd rfl (hmapped hk)
      · exact h.key_inj k k' e hk hk'
  · intro u own' e st hu huses
    obtain ⟨rfl, hpc⟩ | ⟨hne, hthread⟩ := move_thread hu
    · obtain ⟨rfl, rfl, rfl⟩ := Pc.after.inj hpc
      exact ⟨_, hself, rfl, hnew, rfl, trivial⟩
    · rw [move_thread_of_ne hne] at huses
      have hmine : s.Mine own' e st := h.held u own' e st hthread huses
      exact hmine.frame (fun x hx => (hentry (Heap.ne_next hx)).trans hx)
        fun x bytes _ hb => hbuffer hb
  · intro u own' e st hu hkind k hk
    obtain ⟨-, hpc⟩ | ⟨-, hthread⟩ := move_thread hu
    · obtain ⟨rfl, -, -⟩ := Pc.after.inj hpc
      cases hkind
    · obtain ⟨-, rfl⟩ | ⟨-, hk⟩ := hkeys hk
      · -- an entry that is being deleted is in the heap
        have hthread : s.thread u = .after own' s.entries.next st := hthread
        have huses : (s.thread u).uses = some s.entries.next := by
          rw [hthread]
          exact Pc.uses_delete hkind
        obtain ⟨x, hx, -⟩ := h.held u own' _ st hthread huses
        exact absurd rfl (Heap.ne_next hx)
      · exact h.unmapped u own' e st hthread hkind k hk

/-- A key is removed; its entry stays until the call frees it. -/
theorem HeapInv.delete (h : HeapInv s) {key : CString} {old : Entry}
    (hkey : s.configData key = some entry) (hold : s.entries.cell entry = some old) :
    HeapInv { s.move t (.after { kind := .delete, key
                                 value := (s.buffers.cell old.value).getD []
                                 version := old.version } entry .value) with
      configData := update s.configData key none } := by
  have hkeys {k : CString} {e : ℕ} (hk : update s.configData key none k = some e) :
      k ≠ key ∧ s.configData k = some e := by
    by_cases hkk : k = key
    · subst hkk
      rw [update_self] at hk
      cases hk
    · rw [update_of_ne hkk] at hk
      exact ⟨hkk, hk⟩
  refine ⟨?_, ?_, h.buffer_inj, h.buffer_lt, ?_, ?_⟩
  · intro k e hk
    exact h.mapped k e (hkeys hk).2
  · intro k k' e hk hk'
    exact h.key_inj k k' e (hkeys hk).2 (hkeys hk').2
  · intro u own' e st hu huses
    obtain ⟨rfl, hpc⟩ | ⟨hne, hthread⟩ := move_thread hu
    · obtain ⟨rfl, rfl, rfl⟩ := Pc.after.inj hpc
      obtain ⟨x, bytes, hx, hb, hlen⟩ := h.mapped key entry hkey
      rw [hold] at hx
      obtain rfl := Option.some.inj hx
      refine ⟨old, hold, rfl, ?_, ?_, trivial⟩
      · show s.buffers.cell old.value = some ((s.buffers.cell old.value).getD [])
        rw [hb]
        rfl
      · show old.valueLen = ((s.buffers.cell old.value).getD []).length
        rw [hb]
        exact hlen
    · have huses : ((s.move t _).thread u).uses = some e := huses
      rw [move_thread_of_ne hne] at huses
      exact h.held u own' e st hthread huses
  · intro u own' e st hu hkind k hk
    obtain ⟨hne, hold'⟩ := hkeys hk
    obtain ⟨rfl, hpc⟩ | ⟨-, hthread⟩ := move_thread hu
    · obtain ⟨rfl, rfl, rfl⟩ := Pc.after.inj hpc
      exact hne (h.key_inj k key entry hold' hkey)
    · exact h.unmapped u own' e st hthread hkind k hold'

/-- A delete frees the entry that nobody else reads. -/
theorem HeapInv.free (h : HeapInv s) {x : Entry} (ht : s.thread t = .after own entry stage)
    (hkind : own.kind = .delete) (hx : s.entries.cell entry = some x)
    (hunused : s.UnusedBut t entry) :
    HeapInv { s.move t .idle with
      entries := s.entries.free entry, buffers := s.buffers.free x.value } := by
  have hcell {e : ℕ} {y : Entry} (hy : (s.entries.free entry).cell e = some y) :
      e ≠ entry ∧ s.entries.cell e = some y := by
    by_cases he : e = entry
    · subst he
      rw [Heap.cell_free_self] at hy
      cases hy
    · rw [Heap.cell_free_of_ne he] at hy
      exact ⟨he, hy⟩
  have hbuffer {e : ℕ} {y : Entry} {bytes : List UInt8} (he : e ≠ entry)
      (hy : s.entries.cell e = some y) (hb : s.buffers.cell y.value = some bytes) :
      (s.buffers.free x.value).cell y.value = some bytes := by
    have hne : y.value ≠ x.value := fun heq => he (h.buffer_inj e entry y x hy hx heq)
    rw [Heap.cell_free_of_ne hne, hb]
  refine ⟨?_, h.key_inj, ?_, ?_, ?_, ?_⟩
  · intro k e hk
    have he : e ≠ entry := fun heq => h.unmapped t own entry stage ht hkind k (heq ▸ hk)
    obtain ⟨y, bytes, hy, hb, hlen⟩ := h.mapped k e hk
    exact ⟨y, bytes, (Heap.cell_free_of_ne he).trans hy, hbuffer he hy hb, hlen⟩
  · intro e e' y y' hy hy' heq
    exact h.buffer_inj e e' y y' (hcell hy).2 (hcell hy').2 heq
  · intro e y hy
    exact h.buffer_lt e y (hcell hy).2
  · intro u own' e st hu huses
    obtain ⟨-, hpc⟩ | ⟨hne, hthread⟩ := move_thread hu
    · cases hpc
    · have huses : ((s.move t .idle).thread u).uses = some e := huses
      rw [move_thread_of_ne hne] at huses
      have he : e ≠ entry := fun heq => hunused u hne (heq ▸ huses)
      have hmine : s.Mine own' e st := h.held u own' e st hthread huses
      exact hmine.frame (fun y hy => (Heap.cell_free_of_ne he).trans hy)
        fun y bytes hy hb => hbuffer he hy hb
  · intro u own' e st hu
    obtain ⟨-, hpc⟩ | ⟨-, hthread⟩ := move_thread hu
    · cases hpc
    · exact h.unmapped u own' e st hthread

/-! ## Every action -/

/-- The invariant. -/
structure UpdateInv (s : Configs T) : Prop where
  heap : HeapInv s
  version : VersionInv s
  told : ToldInv s

omit [DecidableEq T] in
theorem UpdateInv.fresh : UpdateInv (.fresh T) :=
  ⟨⟨nofun, nofun, nofun, nofun, nofun, nofun⟩, ⟨nofun, nofun, nofun, nofun, .nil⟩,
    ⟨nofun, nofun, rfl⟩⟩

/-- The locked section of a set. -/
theorem UpdateInv.set (h : UpdateInv s) {key : CString}
    {value : List UInt8} {ttlMs now : UInt64} {luck : SetLuck}
    (hok : Undisturbed s (.set t key value ttlMs luck now)) :
    UpdateInv (s.set t key value ttlMs luck now) := by
  obtain ⟨hroom, hunused⟩ := hok
  unfold Configs.set
  split
  · exact h
  · split
    · next entry hkey =>
      split
      · exact h
      · split
        · next hnone =>
          obtain ⟨x, -, hx, -⟩ := h.heap.mapped key entry hkey
          rw [hnone] at hx
          cases hx
        · next existing hold =>
          have hversion := h.version.take hroom t
            (.after { kind := .update, key, value, version := s.configVersion + 1 } entry .value)
            rfl
          exact ⟨h.heap.overwrite hkey hold (hunused entry hkey) value _,
            hversion.congr rfl rfl rfl, h.told.own, h.told.event, h.told.no_freed⟩
    · split
      · exact h
      · split
        · exact h
        · split
          · exact ⟨h.heap.congr rfl rfl rfl rfl, h.version.skip hroom, h.told.own, h.told.event,
              h.told.no_freed⟩
          · have hversion := h.version.take hroom t
              (.after { kind := .create, key, value, version := s.configVersion + 1 }
                s.entries.next .value) rfl
            exact ⟨h.heap.insert value _, hversion.congr rfl rfl rfl, h.told.own, h.told.event,
              h.told.no_freed⟩

/-- The locked section of a delete. -/
theorem UpdateInv.delete (h : UpdateInv s) (ht : s.thread t = .idle) (key : CString) :
    UpdateInv (s.delete t key) := by
  unfold Configs.delete
  split
  · exact h
  · next entry hkey =>
    split
    · next hnone =>
      obtain ⟨x, -, hx, -⟩ := h.heap.mapped key entry hkey
      rw [hnone] at hx
      cases hx
    · next old hold =>
      have hversion := h.version.move
        (show (Pc.after { kind := .delete, key, value := (s.buffers.cell old.value).getD [],
                          version := old.version } entry .value).issued = (s.thread t).issued by
          rw [ht]
          rfl)
      exact ⟨h.heap.delete hkey hold, hversion.congr rfl rfl rfl, h.told.own, h.told.event,
        h.told.no_freed⟩

/-- A thread goes on to a stage for which it has read the right things. -/
theorem UpdateInv.advance (h : UpdateInv s) (ht : s.thread t = .after own entry stage)
    (hmine : (Pc.after own entry stage').uses = some entry → s.Mine own entry stage') :
    UpdateInv (s.move t (.after own entry stage')) :=
  ⟨h.heap.advance ht hmine, h.version.move (by rw [ht]; rfl), h.told.own, h.told.event,
    h.told.no_freed⟩

/-- A field is read of an entry that is still there. -/
theorem read_eq {x : Entry} (hx : s.entries.cell entry = some x) (k : Entry → Configs T) :
    s.read t entry k = k x := by
  rw [Configs.read, hx]

/-- The end of a call. -/
theorem UpdateInv.finish (h : UpdateInv s) (ht : s.thread t = .after own entry .finish)
    (hok : own.kind = .delete → s.UnusedBut t entry) : UpdateInv (s.finish t own entry) := by
  have hissued (hkind : own.kind ≠ .delete) : (s.thread t).issued = some own.version := by
    rw [ht, Pc.issued, if_neg hkind]
  have hreturn (hkind : own.kind ≠ .delete) :
      UpdateInv { s.move t .idle with returned := s.returned ++ [(own, own.version)] } := by
    refine ⟨(h.heap.idle t).congr rfl rfl rfl rfl, h.version.return (hissued hkind) _, ?_,
      h.told.event, h.told.no_freed⟩
    intro p hp
    obtain hold | hnew := List.mem_append.mp hp
    · exact h.told.own p hold
    · rw [List.mem_singleton.mp hnew]
  unfold Configs.finish
  split
  · next hkind => exact hreturn (by rw [hkind]; exact Kind.noConfusion)
  · next hkind =>
    have huses : (s.thread t).uses = some entry := by
      rw [ht, Pc.uses, hkind]
      rfl
    obtain ⟨x, hx, hversion, -⟩ := h.heap.held t own entry .finish ht huses
    rw [read_eq hx, hversion]
    exact hreturn (by rw [hkind]; exact Kind.noConfusion)
  · next hkind =>
    have huses : (s.thread t).uses = some entry := by
      rw [ht]
      exact Pc.uses_delete hkind
    obtain ⟨x, hx, -⟩ := h.heap.held t own entry .finish ht huses
    rw [read_eq hx]
    have hversion : VersionInv (s.move t .idle) :=
      h.version.move (by rw [ht]; exact (if_pos hkind).symm)
    exact ⟨h.heap.free ht hkind hx (hok hkind), hversion.congr rfl rfl rfl, h.told.own,
      h.told.event, h.told.no_freed⟩

omit [DecidableEq T] in
/-- What the callback reads. -/
theorem bytes_eq {value : ℕ} {bytes : List UInt8} (hb : s.buffers.cell value = some bytes) :
    s.bytes value bytes.length = some bytes := by
  rw [Configs.bytes, hb, Option.bind_some, if_pos (Nat.le_refl _), List.take_length]

theorem UpdateInv.run (h : UpdateInv s) (hok : s.MayRun t (s.thread t))
    (hrun : s.run t = some s') : UpdateInv s' := by
  unfold Configs.run at hrun
  split at hrun
  · cases hrun
  · next own entry stage ht =>
    rw [← Option.some.inj hrun]
    have hheld := h.heap.held t own entry stage ht
    rw [ht] at hheld hok
    cases stage with
    | value =>
      obtain ⟨x, hx, hversion, hbytes, hlen, -⟩ := hheld rfl
      dsimp only
      rw [read_eq hx]
      exact h.advance ht fun _ => ⟨x, hx, hversion, hbytes, hlen, rfl⟩
    | valueLen v =>
      obtain ⟨x, hx, hversion, hbytes, hlen, hread⟩ := hheld rfl
      dsimp only
      rw [read_eq hx]
      exact h.advance ht fun _ => ⟨x, hx, hversion, hbytes, hlen, ⟨hread, rfl⟩⟩
    | version v len =>
      obtain ⟨x, hx, hversion, hbytes, hlen, hv, hl⟩ := hheld rfl
      dsimp only
      rw [read_eq hx]
      refine h.advance ht fun _ => ⟨x, hx, hversion, hbytes, hlen, ?_⟩
      split <;> exact ⟨hv, hl, rfl⟩
    | expireAt v len ver =>
      obtain ⟨x, hx, hversion, hbytes, hlen, hread⟩ := hheld rfl
      dsimp only
      rw [read_eq hx]
      exact h.advance ht fun _ => ⟨x, hx, hversion, hbytes, hlen, hread⟩
    | emit v len ver exp =>
      obtain ⟨x, hx, hversion, hbytes, hlen, rfl, rfl, rfl⟩ := hheld rfl
      have hnext : UpdateInv (s.move t (.after own entry .finish)) :=
        h.advance ht fun _ => ⟨x, hx, hversion, hbytes, hlen, trivial⟩
      refine ⟨hnext.heap.congr rfl rfl rfl rfl, hnext.version.congr rfl rfl rfl, h.told.own, ?_,
        h.told.no_freed⟩
      intro e he
      obtain hold | hnew := List.mem_append.mp he
      · exact h.told.event e hold
      · rw [List.mem_singleton.mp hnew]
        refine ⟨?_, hversion⟩
        show s.bytes x.value x.valueLen = some own.value
        rw [hlen]
        exact bytes_eq hbytes
    | finish => exact h.finish ht hok

theorem UpdateInv.step (h : UpdateInv s) {a : Action T} (hok : Undisturbed s a)
    (hstep : step s a = some s') : UpdateInv s' := by
  cases a with
  | set t key value ttlMs luck now =>
    obtain ⟨-, rfl⟩ := of_guard hstep
    exact h.set hok
  | delete t key =>
    obtain ⟨ht, rfl⟩ := of_guard hstep
    exact h.delete ht key
  | run t => exact h.run hok hstep

/-- **Updates get their own versions.** In every run in which no entry is updated or freed while
another call reads it after its unlock, every set returns the version under which it has stored its
value, no two return the same, the events carry the values and versions of their calls, and nothing
freed is read. -/
theorem updates_own_versions (as : List (Action T)) (s : Configs T)
    (hrun : Run Updates.step Undisturbed (.fresh T) as s) : UpdateLaw s :=
  have hinv : UpdateInv s := hrun.invariant (fun _ _ _ h hok hstep => h.step hok hstep) .fresh
  hinv.told.law hinv.version

/-- Thread 0 makes an entry and updates it, while thread 1 makes another one; then thread 1 deletes
the first one. -/
def updateRun : List (Action (Fin 2)) :=
  [.set 0 [97] [1] 0 .all 5] ++ List.replicate 6 (.run 0) ++
    [.set 0 [97] [2] 9 .all 6, .set 1 [98] [3] 0 .all 6] ++
    (List.replicate 6 [.run 0, .run 1]).flatten ++ [.delete 1 [97]] ++ List.replicate 5 (.run 1)

theorem updates_own_versions_updateRun :
    ∃ s, Run Updates.step Undisturbed (.fresh (Fin 2)) updateRun s ∧ UpdateLaw s ∧
      s.returned.map Prod.snd = [1, 2, 3] ∧ s.events.length = 4 := by
  have hexec : (exec Updates.step Undisturbed (.fresh (Fin 2)) updateRun).map
      (fun s => (s.returned.map Prod.snd, s.events.length)) = some ([1, 2, 3], 4) := by
    decide +kernel
  obtain ⟨s, hrun, hval⟩ := Run.of_exec_map hexec
  obtain ⟨hreturned, hevents⟩ := Prod.mk.inj hval
  exact ⟨s, hrun, updates_own_versions updateRun s hrun, hreturned, hevents⟩

/-- Threads 0 and 1 update one entry; both return the version of the second one. -/
theorem version_twice :
    ¬ ∀ as (s : Configs (Fin 2)), Run Updates.step (fun _ _ => True) (.fresh (Fin 2)) as s →
      UpdateLaw s := by
  intro hall
  have hexec : (exec Updates.step (fun _ _ => True) (.fresh (Fin 2))
      ([.set 0 [97] [1] 0 .all 5] ++ List.replicate 6 (.run 0) ++
        [.set 0 [97] [2] 0 .all 6, .set 1 [97] [3] 0 .all 6] ++
        (List.replicate 6 [.run 0, .run 1]).flatten)).map (fun s => s.returned.map Prod.snd) =
          some [1, 3, 3] := by
    decide +kernel
  obtain ⟨s, hs, hval⟩ := Run.of_exec_map hexec
  have hnodup := (hall _ s hs).distinct
  rw [hval] at hnodup
  revert hnodup
  decide

end Loopy.Cluster.Updates
