import Loopy.IoUring.LinkChain

/-!
# Linked submission, all or nothing

A chain is published whole if the ring has an entry and the slot array a slot for each operation. It
is not published at all only if the first operation already fails; a later one leaves the operations
before it in the ring, linked to whatever is submitted next.
-/

namespace Loopy.IoUring

open Loopy.Lib FileState

/-! ## The law -/

/-- An active slot with the callback of the operation has that id. -/
def FileState.Tracks (fs : FileState) (id : ℕ) (op : LinkOp) : Prop :=
  ∃ i, fs.Active i ∧ markFile (fs.op i).id = id ∧ (fs.op i).cb = op.cb ∧
    (fs.op i).userData = op.userData

/-- The published entry of the operation of index `k` in a chain of `n`; all but the last carry the
link flag. -/
def LinkOp.entry (op : LinkOp) (linkFlag n k id tag : ℕ) : Sqe :=
  { op.sqe id (if k + 1 < n then linkFlag else 0) with tag := tag }

/-- The ring has received the entries of the chain in order, under distinct tracked ids. -/
structure Received (chain : LinkChain) (u u' : IoUringState) : Prop where
  tail : u'.sq.tail = u.sq.tail + BitVec.ofNat 32 chain.ops.length
  entries : ∃ ids : ℕ → ℕ,
    (∀ j < chain.ops.length, ∀ k < chain.ops.length, ids j = ids k → j = k) ∧
    ∀ k op, chain.ops[k]? = some op → u'.fileState.Tracks (ids k) op ∧
      u'.sq.entry (u.sq.tail + BitVec.ofNat 32 k) =
        op.entry chain.mode.linkFlag chain.ops.length k (ids k) (u.nextTag + k)

/-- No entry was published, and no slot is active that was not. -/
structure Untouched (u u' : IoUringState) : Prop where
  tail : u'.sq.tail = u.sq.tail
  slots : ∀ i, u'.fileState.Active i → u.fileState.Active i

/-- Linked submission is atomic. -/
structure LinkLaw (chain : LinkChain) (u : IoUringState) (r : LinkExit × IoUringState) : Prop where
  received : r.1.result = true → Received chain u r.2
  untouched : r.1 = .full ∨ r.1 = .untracked → Untouched u r.2

/-! ## When it holds -/

/-- The entries that can be taken from the ring. -/
def freeEntries (u : IoUringState) : ℕ := 2 ^ u.sq.bits - u.sq.count

instance (fs : FileState) (i : ℕ) : Decidable (fs.Active i) :=
  inferInstanceAs (Decidable (_ ∧ _))

/-- The slots that are not in use. -/
def FileState.freeSlots (fs : FileState) : Finset ℕ :=
  (Finset.range fs.opsSize).filter fun i => ¬ fs.Active i

/-- Every operation has a callback and a slot, where `zrealloc` doubles the slots each time they run
out; `free` of `size` slots are there for the operation of index `i`. -/
def canTrack (addrs : ℕ → ℕ) : List LinkOp → (i free size : ℕ) → Bool
  | [], _, _, _ => true
  | op :: ops, i, 0, size => op.cb ≠ 0 && addrs i ≠ 0 && canTrack addrs ops (i + 1) (size - 1)
    (size * 2)
  | op :: ops, i, free + 1, size => op.cb ≠ 0 && canTrack addrs ops (i + 1) free size

/-- The operations can be tracked in the state's slots. -/
def IoUringState.canTrack (u : IoUringState) (addrs : ℕ → ℕ) (ops : List LinkOp) : Bool :=
  IoUring.canTrack addrs ops 0 u.fileState.freeSlots.card u.fileState.opsSize

/-- The ring is full, or the first operation cannot be tracked, or there is an entry for every
operation and every operation can be tracked. -/
def AllOrNone (u : IoUringState) (chain : LinkChain) (addrs : ℕ → ℕ) : Prop :=
  freeEntries u = 0 ∨ u.canTrack addrs (chain.ops.take 1) = false ∨
    chain.ops.length ≤ freeEntries u ∧ u.canTrack addrs chain.ops = true

/-- A ring and a slot array as `ioUringInit` and every operation leave them. -/
structure RingOk (u : IoUringState) : Prop where
  ring : u.sq.Wf
  size : 0 < u.fileState.opsSize
  nextId : u.fileState.nextId < 2 ^ 64

/-! ## Slots -/

namespace FileState

variable {fs fs' : FileState} {op : FileOp} {addr i : ℕ}

theorem mem_freeSlots : i ∈ fs.freeSlots ↔ i < fs.opsSize ∧ ¬ fs.Active i := by
  simp [freeSlots]

theorem freeSlot_none : fs.freeSlot = none ↔ fs.freeSlots.card = 0 := by
  rw [Finset.card_eq_zero, Finset.eq_empty_iff_forall_notMem]
  unfold freeSlot
  rw [List.find?_eq_none]
  constructor
  · intro h i hi
    obtain ⟨hlt, hnot⟩ := mem_freeSlots.mp hi
    have hact := h i (List.mem_range.mpr hlt)
    exact hnot ⟨hlt, by simpa using hact⟩
  · intro h i hi
    have hlt := List.mem_range.mp hi
    have hact : fs.Active i := by
      by_contra hnot
      exact h i (mem_freeSlots.mpr ⟨hlt, hnot⟩)
    simp [hact.2]

/-- A slot taken from the array. -/
theorem Placed.card_freeSlots (h : Placed fs addr op fs' i) (hi : i < fs.opsSize)
    (hsize : fs'.opsSize = fs.opsSize) : fs'.freeSlots.card + 1 = fs.freeSlots.card := by
  have hmem : i ∈ fs.freeSlots := mem_freeSlots.mpr ⟨hi, h.free⟩
  have herase : fs'.freeSlots = fs.freeSlots.erase i := by
    ext j
    rw [Finset.mem_erase, mem_freeSlots, mem_freeSlots, hsize]
    by_cases hj : j = i
    · subst hj
      simp [h.active_self]
    · rw [h.active j hj]
      simp [hj]
  rw [herase, Finset.card_erase_add_one hmem]

/-- A slot taken from an array that was full and has grown. -/
theorem Placed.card_freeSlots_grown (h : Placed fs addr op fs' fs.opsSize)
    (hfull : fs.freeSlots.card = 0) (hsize : fs'.opsSize = fs.opsSize * 2) :
    fs'.freeSlots.card = fs.opsSize - 1 := by
  have hall : ∀ j < fs.opsSize, fs.Active j := fun j hj => by
    by_contra hnot
    have hmem := mem_freeSlots.mpr ⟨hj, hnot⟩
    rw [Finset.card_eq_zero.mp hfull] at hmem
    exact absurd hmem (Finset.notMem_empty j)
  have hnew : fs'.freeSlots = Finset.Ioo fs.opsSize (fs.opsSize * 2) := by
    ext j
    rw [mem_freeSlots, Finset.mem_Ioo, hsize]
    by_cases hj : j = fs.opsSize
    · subst hj
      simp [h.active_self]
    · rw [h.active j hj]
      constructor
      · rintro ⟨hlt, hnot⟩
        have hge : ¬ j < fs.opsSize := fun hlt => hnot (hall j hlt)
        omega
      · rintro ⟨hgt, hlt⟩
        exact ⟨hlt, fun hact => absurd hact.1 (by omega)⟩
  rw [hnew, Nat.card_Ioo]
  omega

end FileState

theorem markFile_pos (id : ℕ) : markFile id ≠ 0 := by
  unfold markFile fileBit
  split <;> omega

/-- The slot of a linked operation. -/
def LinkOp.slot (op : LinkOp) : FileOp := ⟨0, op.cb, op.userData, true, false, 0, 0⟩

section

variable {fs fs' : FileState} {addrs : ℕ → ℕ} {op : LinkOp} {i j : ℕ}

theorem FileState.Placed.foretold (h : Placed fs (addrs i) op.slot fs' j) (hj : j < fs.opsSize)
    (hsize : fs'.opsSize = fs.opsSize) (hcb : op.cb ≠ 0) (ops : List LinkOp) :
    canTrack addrs (op :: ops) i fs.freeSlots.card fs.opsSize =
      canTrack addrs ops (i + 1) fs'.freeSlots.card fs'.opsSize := by
  rw [← h.card_freeSlots hj hsize, hsize]
  simp [canTrack, hcb]

theorem FileState.Placed.foretold_grown (h : Placed fs (addrs i) op.slot fs' fs.opsSize)
    (hfull : fs.freeSlots.card = 0) (hsize : fs'.opsSize = fs.opsSize * 2) (hcb : op.cb ≠ 0)
    (haddr : addrs i ≠ 0) (ops : List LinkOp) :
    canTrack addrs (op :: ops) i fs.freeSlots.card fs.opsSize =
      canTrack addrs ops (i + 1) fs'.freeSlots.card fs'.opsSize := by
  rw [hfull, h.card_freeSlots_grown hfull hsize, hsize]
  simp [canTrack, hcb, haddr]

end

/-- What `ioUringFileOpAllocate` does for an operation, and that `canTrack` foretells it. -/
inductive TakesSlot (fs : FileState) (addrs : ℕ → ℕ) (op : LinkOp) (i : ℕ) : ℕ × FileState → Prop
  | refused (h : ∀ ops, canTrack addrs (op :: ops) i fs.freeSlots.card fs.opsSize = false) :
      TakesSlot fs addrs op i (0, fs)
  | placed {fs' : FileState} {j : ℕ} (hp : Placed fs (addrs i) op.slot fs' j)
      (h : ∀ ops, canTrack addrs (op :: ops) i fs.freeSlots.card fs.opsSize =
        canTrack addrs ops (i + 1) fs'.freeSlots.card fs'.opsSize) :
      TakesSlot fs addrs op i (markFile fs.nextId, fs')

theorem ioUringFileOpAllocate_takes {fs : FileState} (hsize : 0 < fs.opsSize) (addrs : ℕ → ℕ)
    (op : LinkOp) (i : ℕ) :
    TakesSlot fs addrs op i (ioUringFileOpAllocate fs op.cb op.userData (addrs i)) := by
  unfold ioUringFileOpAllocate
  dsimp only
  split
  case isTrue hcb =>
    refine .refused fun ops => ?_
    cases fs.freeSlots.card <;> simp [canTrack, hcb]
  case isFalse hcb =>
    split
    case h_1 j hj =>
      obtain ⟨hlt, hfree⟩ := freeSlot_some hj
      have hp : Placed fs (addrs i) op.slot (fs.place j op.slot).2 j := place_placed hlt hfree op.slot
      exact .placed hp (hp.foretold hlt rfl hcb)
    case h_2 hnone =>
      have hfull := freeSlot_none.mp hnone
      split
      case isTrue haddr =>
        refine .refused fun ops => ?_
        rw [hfull]
        simp [canTrack, haddr]
      case isFalse haddr =>
        rw [Nat.mul_div_cancel _ (by omega)]
        have hp := grown_placed hnone haddr (show fs.opsSize < fs.opsSize * 2 by omega) op.slot
        exact .placed hp (hp.foretold_grown hfull rfl hcb haddr)

/-! ## One operation -/

/-- An operation took a slot and published its entry. -/
structure Published (op : LinkOp) (flags : ℕ) (u u' : IoUringState) : Prop where
  ok : RingOk u'
  bits : u'.sq.bits = u.sq.bits
  head : u'.sq.head = u.sq.head
  tail : u'.sq.tail = u.sq.tail + 1#32
  queued : u'.sq.queued =
    u.sq.queued ++ [{ op.sqe (markFile u.fileState.nextId) flags with tag := u.nextTag }]
  nextTag : u'.nextTag = u.nextTag + 1
  nextId : u'.fileState.nextId = (u.fileState.nextId + 1) % 2 ^ 64
  tracked : ∃ i, u'.fileState.Active i ∧
    u'.fileState.op i = { op.slot with id := u.fileState.nextId }
  kept : ∀ i, u.fileState.Active i →
    u'.fileState.Active i ∧ u'.fileState.op i = u.fileState.op i

/-- The flags of an operation that others follow. -/
def flagsBefore (linkFlag : ℕ) (ops : List LinkOp) : ℕ := if ops.isEmpty then 0 else linkFlag

/-- Publishing an entry that was zeroed before it was filled. -/
theorem publish_zeroed {r : Lib.Ring Sqe} (h : r.Wf) (hlt : r.count < 2 ^ r.bits) (sqe : Sqe) :
    ((r.write {}).write sqe).publish.Wf ∧
      ((r.write {}).write sqe).publish.queued = r.queued ++ [sqe] := by
  rw [Ring.write_write]
  exact Ring.publish_spec h hlt sqe

/-- The first turn of the loop: it stops with nothing published, or publishes and goes on. -/
inductive Turn (linkFlag : ℕ) (addrs : ℕ → ℕ) (op : LinkOp) (ops : List LinkOp) (i : ℕ)
    (u : IoUringState) : Option LinkExit × IoUringState → Prop
  | full (h : freeEntries u = 0) : Turn linkFlag addrs op ops i u (some .full, u)
  | untracked (hfree : freeEntries u ≠ 0)
      (h : ∀ ops, canTrack addrs (op :: ops) i u.fileState.freeSlots.card u.fileState.opsSize =
        false) :
      Turn linkFlag addrs op ops i u (some .untracked, { u with sq := u.sq.write {} })
  | published {u' : IoUringState} (hfree : freeEntries u ≠ 0)
      (hp : Published op (flagsBefore linkFlag ops) u u')
      (h : ∀ ops, canTrack addrs (op :: ops) i u.fileState.freeSlots.card u.fileState.opsSize =
        canTrack addrs ops (i + 1) u'.fileState.freeSlots.card u'.fileState.opsSize) :
      Turn linkFlag addrs op ops i u (submitLinkOps linkFlag addrs ops (i + 1) u')

theorem submitLinkOps_turn (linkFlag : ℕ) (addrs : ℕ → ℕ) (op : LinkOp) (ops : List LinkOp) (i : ℕ)
    {u : IoUringState} (hok : RingOk u) :
    Turn linkFlag addrs op ops i u (submitLinkOps linkFlag addrs (op :: ops) i u) := by
  have hle := hok.ring.count_le
  have hfull := Ring.full_iff hok.ring
  rw [submitLinkOps, IoUringState.ioUringGetSqe]
  by_cases hcount : u.sq.count = 2 ^ u.sq.bits
  · rw [if_pos (hfull.mpr hcount)]
    exact .full (by unfold freeEntries; omega)
  · have hfree : freeEntries u ≠ 0 := by unfold freeEntries; omega
    rw [if_neg (fun h => hcount (hfull.mp h))]
    have htakes := ioUringFileOpAllocate_takes hok.size addrs op i
    dsimp only
    generalize ioUringFileOpAllocate u.fileState op.cb op.userData (addrs i) = r at htakes ⊢
    cases htakes with
    | refused h =>
      rw [if_pos rfl]
      exact .untracked hfree h
    | @placed fs' j hp h =>
      dsimp only
      rw [if_neg (markFile_pos _)]
      refine .published hfree ?_ h
      have hring := publish_zeroed hok.ring (by omega : u.sq.count < 2 ^ u.sq.bits)
        { op.sqe (markFile u.fileState.nextId) (flagsBefore linkFlag ops) with tag := u.nextTag }
      refine ⟨⟨hring.1, hok.size.trans_le hp.size, hp.nextId ▸ Nat.mod_lt _ (by decide)⟩, rfl, rfl,
        rfl, hring.2, rfl, hp.nextId, ⟨j, hp.active_self, hp.self⟩, fun k hk => ?_⟩
      have hkj : k ≠ j := fun heq => hp.free (heq ▸ hk)
      exact ⟨(hp.active k hkj).mpr hk, hp.other k hkj hk⟩

/-! ## The whole loop -/

section

variable {linkFlag : ℕ} {addrs : ℕ → ℕ} {op : LinkOp} {ops : List LinkOp} {i flags : ℕ}
  {u u' : IoUringState}

theorem Published.count (h : Published op flags u u') : u'.sq.count = u.sq.count + 1 := by
  have hlen := congrArg List.length h.queued
  simpa using hlen

theorem Published.freeEntries_eq (h : Published op flags u u') :
    freeEntries u' = freeEntries u - 1 := by
  have hcount := h.count
  unfold freeEntries
  rw [h.bits, hcount]
  omega

/-- However the loop ends, published entries stay. -/
theorem submitLinkOps_grows (linkFlag : ℕ) (addrs : ℕ → ℕ) (ops : List LinkOp) (i : ℕ)
    (hok : RingOk u) :
    (submitLinkOps linkFlag addrs ops i u).2.sq.head = u.sq.head ∧
      u.sq.count ≤ (submitLinkOps linkFlag addrs ops i u).2.sq.count := by
  induction ops generalizing i u with
  | nil => exact ⟨rfl, le_rfl⟩
  | cons op ops ih =>
    have hturn := submitLinkOps_turn linkFlag addrs op ops i hok
    generalize submitLinkOps linkFlag addrs (op :: ops) i u = r at hturn ⊢
    cases hturn with
    | full => exact ⟨rfl, le_rfl⟩
    | untracked => exact ⟨rfl, le_rfl⟩
    | published hfree hp _ =>
      obtain ⟨hhead, hcount⟩ := ih (i + 1) hp.ok
      have hone := hp.count
      exact ⟨hhead.trans hp.head, by omega⟩

variable (linkFlag addrs ops i) in
/-- The loop ends early for one of two reasons. -/
theorem submitLinkOps_stops (hok : RingOk u) (stop : LinkExit)
    (h : (submitLinkOps linkFlag addrs ops i u).1 = some stop) : stop = .full ∨ stop = .untracked := by
  induction ops generalizing i u with
  | nil => cases h
  | cons op ops ih =>
    have hturn := submitLinkOps_turn linkFlag addrs op ops i hok
    generalize submitLinkOps linkFlag addrs (op :: ops) i u = r at hturn h
    cases hturn with
    | full => exact .inl (Option.some.inj h).symm
    | untracked => exact .inr (Option.some.inj h).symm
    | published hfree hp _ => exact ih _ hp.ok h

/-- The loop ends by itself exactly if there is an entry and a slot for each operation. -/
theorem submitLinkOps_finishes (linkFlag : ℕ) (addrs : ℕ → ℕ) (ops : List LinkOp) (i : ℕ)
    (hok : RingOk u) :
    (submitLinkOps linkFlag addrs ops i u).1 = none ↔ ops.length ≤ freeEntries u ∧
      canTrack addrs ops i u.fileState.freeSlots.card u.fileState.opsSize = true := by
  induction ops generalizing i u with
  | nil => simp [submitLinkOps, canTrack]
  | cons op ops ih =>
    have hturn := submitLinkOps_turn linkFlag addrs op ops i hok
    generalize submitLinkOps linkFlag addrs (op :: ops) i u = r at hturn ⊢
    cases hturn with
    | full hfree => simp [hfree]
    | untracked _ htrack => simp [htrack]
    | published hfree hp htrack =>
      rw [ih (i + 1) hp.ok, hp.freeEntries_eq, htrack, List.length_cons]
      constructor
      · rintro ⟨hlen, htrue⟩
        exact ⟨by omega, htrue⟩
      · rintro ⟨hlen, htrue⟩
        exact ⟨by omega, htrue⟩

/-- Operations were published one behind the other. -/
structure Chained (linkFlag : ℕ) (ops : List LinkOp) (u u' : IoUringState) : Prop where
  head : u'.sq.head = u.sq.head
  tail : u'.sq.tail = u.sq.tail + BitVec.ofNat 32 ops.length
  queued : ∃ sqes : List Sqe, u'.sq.queued = u.sq.queued ++ sqes ∧
    ∀ k (op : LinkOp), ops[k]? = some op → sqes[k]? = some (op.entry linkFlag ops.length k
      (markFile ((u.fileState.nextId + k) % 2 ^ 64)) (u.nextTag + k))
  tracked : ∀ k (op : LinkOp), ops[k]? = some op → ∃ i, u'.fileState.Active i ∧
    u'.fileState.op i = { op.slot with id := (u.fileState.nextId + k) % 2 ^ 64 }
  kept : ∀ i, u.fileState.Active i →
    u'.fileState.Active i ∧ u'.fileState.op i = u.fileState.op i

theorem Chained.nil (linkFlag : ℕ) (u : IoUringState) : Chained linkFlag [] u u where
  head := rfl
  tail := (BitVec.add_zero _).symm
  queued := ⟨[], (List.append_nil _).symm, fun _ _ h => nomatch h⟩
  tracked := fun _ _ h => nomatch h
  kept := fun _ h => ⟨h, rfl⟩

theorem Chained.cons {v : IoUringState} (hok : RingOk u)
    (hp : Published op (flagsBefore linkFlag ops) u v) (h : Chained linkFlag ops v u') :
    Chained linkFlag (op :: ops) u u' := by
  have hnext : u.fileState.nextId % 2 ^ 64 = u.fileState.nextId := Nat.mod_eq_of_lt hok.nextId
  have hshift : ∀ k, (v.fileState.nextId + k) % 2 ^ 64 =
      (u.fileState.nextId + (k + 1)) % 2 ^ 64 := fun k => by
    rw [hp.nextId]
    omega
  obtain ⟨sqes, hqueued, hsqes⟩ := h.queued
  refine ⟨h.head.trans hp.head, ?_, ?_, ?_, fun i hi => ?_⟩
  · rw [h.tail, hp.tail, List.length_cons, BitVec.add_assoc, ← BitVec.ofNat_add, Nat.add_comm]
  · refine ⟨{ op.sqe (markFile u.fileState.nextId) (flagsBefore linkFlag ops) with
      tag := u.nextTag } :: sqes, ?_, fun k op' hk => ?_⟩
    · rw [hqueued, hp.queued, List.append_assoc]
      rfl
    · cases k with
      | zero =>
        obtain rfl := Option.some.inj hk
        rw [Nat.add_zero, Nat.add_zero, hnext]
        cases ops <;> rfl
      | succ k =>
        rw [List.getElem?_cons_succ] at hk ⊢
        rw [hsqes k op' hk, hshift, hp.nextTag, List.length_cons, Nat.add_assoc, Nat.add_comm 1 k]
        simp only [LinkOp.entry, Nat.add_lt_add_iff_right]
  · intro k op' hk
    cases k with
    | zero =>
      obtain rfl := Option.some.inj hk
      obtain ⟨j, hactive, hslot⟩ := hp.tracked
      obtain ⟨hactive', hsame⟩ := h.kept j hactive
      exact ⟨j, hactive', by rw [hsame, hslot, Nat.add_zero, hnext]⟩
    | succ k =>
      rw [← hshift]
      exact h.tracked k op' hk
  · obtain ⟨hactive, hsame⟩ := hp.kept i hi
    obtain ⟨hactive', hsame'⟩ := h.kept i hactive
    exact ⟨hactive', hsame'.trans hsame⟩

variable (linkFlag addrs ops i) in
theorem submitLinkOps_chained (hok : RingOk u)
    (h : (submitLinkOps linkFlag addrs ops i u).1 = none) :
    Chained linkFlag ops u (submitLinkOps linkFlag addrs ops i u).2 := by
  induction ops generalizing i u with
  | nil => exact .nil linkFlag u
  | cons op ops ih =>
    have hturn := submitLinkOps_turn linkFlag addrs op ops i hok
    generalize submitLinkOps linkFlag addrs (op :: ops) i u = r at hturn h ⊢
    cases hturn with
    | full => cases h
    | untracked => cases h
    | published _ hp _ => exact .cons hok hp (ih _ hp.ok h)

/-- Ids of less than `2 ^ 31` consecutive operations are distinct. -/
theorem markFile_inj {id j k : ℕ} (hj : j < 2 ^ 31) (hk : k < 2 ^ 31)
    (h : markFile ((id + j) % 2 ^ 64) = markFile ((id + k) % 2 ^ 64)) : j = k := by
  unfold markFile fileBit at h
  split at h <;> split at h <;> omega

/-- A chain that was published whole was received. -/
theorem Chained.received {mode : LinkMode} (h : Chained mode.linkFlag ops u u')
    (hlen : ops.length ≤ 2 ^ 31) (ok : Bool) :
    Received ⟨mode, ops⟩ u (u'.ioUringEnter ops.length ok) := by
  obtain ⟨sqes, hqueued, hsqes⟩ := h.queued
  have henter : (u'.ioUringEnter ops.length ok).sq.tail = u'.sq.tail ∧
      (u'.ioUringEnter ops.length ok).sq.entry = u'.sq.entry ∧
      (u'.ioUringEnter ops.length ok).fileState = u'.fileState := by
    cases ok <;> exact ⟨rfl, rfl, rfl⟩
  obtain ⟨htail, hentry, hslots⟩ := henter
  refine ⟨htail.trans h.tail, fun k => markFile ((u.fileState.nextId + k) % 2 ^ 64),
    fun j hj k hk heq => markFile_inj (hj.trans_le hlen) (hk.trans_le hlen) heq, fun k op hk =>
      ⟨?_, ?_⟩⟩
  · obtain ⟨j, hactive, hslot⟩ := h.tracked k op hk
    rw [hslots]
    exact ⟨j, hactive, by rw [hslot], by rw [hslot]; rfl, by rw [hslot]; rfl⟩
  · have hat : u'.sq.queued[u.sq.count + k]? = sqes[k]? := by
      rw [hqueued, List.getElem?_append_right (by simp)]
      simp
    have hsqe := hat.trans (hsqes k op hk)
    have hlt : u.sq.count + k < u'.sq.count := by
      have hin := (List.getElem?_eq_some_iff.mp hsqe).1
      simpa using hin
    rw [Ring.getElem?_queued _ hlt] at hsqe
    rw [hentry, Ring.tail_eq, BitVec.add_assoc, ← BitVec.ofNat_add, ← h.head]
    exact Option.some.inj hsqe

end

/-- What ended early is untouched exactly if it ended at the first operation. -/
theorem submitLinkOps_untouched (linkFlag : ℕ) (addrs : ℕ → ℕ) (op : LinkOp) (ops : List LinkOp)
    {u : IoUringState} (hok : RingOk u)
    (hstop : (submitLinkOps linkFlag addrs (op :: ops) 0 u).1 ≠ none) :
    Untouched u (submitLinkOps linkFlag addrs (op :: ops) 0 u).2 ↔
      freeEntries u = 0 ∨ u.canTrack addrs [op] = false := by
  have hturn := submitLinkOps_turn linkFlag addrs op ops 0 hok
  generalize submitLinkOps linkFlag addrs (op :: ops) 0 u = r at hturn hstop ⊢
  cases hturn with
  | full hfree => exact ⟨fun _ => .inl hfree, fun _ => ⟨rfl, fun _ h => h⟩⟩
  | untracked _ htrack => exact ⟨fun _ => .inr (htrack []), fun _ => ⟨rfl, fun _ h => h⟩⟩
  | @published v hfree hp htrack =>
    constructor
    · intro h
      -- the first entry is in the ring
      obtain ⟨hhead, hcount⟩ := submitLinkOps_grows linkFlag addrs ops 1 hp.ok
      have hone := hp.count
      have hsame : (submitLinkOps linkFlag addrs ops 1 v).2.sq.count = u.sq.count := by
        unfold Ring.count
        rw [h.tail, hhead, hp.head]
      omega
    · rintro (hzero | huntracked)
      · exact absurd hzero hfree
      · cases (htrack []).symm.trans huntracked

/-- A linked submission is atomic exactly if the ring is full, the first operation cannot be tracked,
or there is an entry and a slot for every operation. -/
theorem link_chain_atomic (u : IoUringState) (hok : RingOk u) (chain : LinkChain) (addrs : ℕ → ℕ)
    (ok : Bool) :
    LinkLaw chain u (loopyIoUringLinkChainSubmit u chain addrs ok) ↔ AllOrNone u chain addrs := by
  obtain ⟨mode, ops⟩ := chain
  cases ops with
  | nil =>
    refine iff_of_true ⟨fun h => ?_, fun h => ?_⟩ (.inr (.inr ⟨Nat.zero_le _, rfl⟩))
    · cases h
    · rcases h with h | h <;> cases h
  | cons op ops =>
    have hfinishes := submitLinkOps_finishes mode.linkFlag addrs (op :: ops) 0 hok
    have huntouched := submitLinkOps_untouched mode.linkFlag addrs op ops hok
    have hchained := submitLinkOps_chained mode.linkFlag addrs (op :: ops) 0 hok
    have hstops := submitLinkOps_stops mode.linkFlag addrs (op :: ops) 0 hok
    unfold loopyIoUringLinkChainSubmit
    dsimp only [List.isEmpty_cons]
    rw [if_neg Bool.false_ne_true]
    generalize submitLinkOps mode.linkFlag addrs (op :: ops) 0 u = r at *
    obtain ⟨stop, v⟩ := r
    cases stop with
    | none =>
      have hall := hfinishes.mp rfl
      refine iff_of_true ⟨fun _ => ?_, fun h => ?_⟩ (.inr (.inr hall))
      · have hlen := hall.1
        have hsize := Ring.two_pow_le hok.ring.bits_le
        have hle : (op :: ops).length ≤ 2 ^ 31 := by
          unfold freeEntries at hlen
          omega
        have hchain : Chained mode.linkFlag (op :: ops) u v := hchained rfl
        exact hchain.received hle ok
      · rcases h with h | h <;> cases h
    | some stop =>
      have hnot : ¬ ((op :: ops).length ≤ freeEntries u ∧ u.canTrack addrs (op :: ops) = true) :=
        fun hall => nomatch hfinishes.mpr hall
      have hlaw : LinkLaw ⟨mode, op :: ops⟩ u (stop, v) ↔ Untouched u v := by
        have hstop := hstops stop rfl
        constructor
        · exact fun h => h.untouched hstop
        · refine fun h => ⟨fun htrue => ?_, fun _ => h⟩
          rcases hstop with rfl | rfl <;> cases htrue
      rw [hlaw, huntouched (by simp)]
      exact or_congr_right (or_iff_left hnot).symm

/-- Read, sync, close. -/
def threeOps : LinkChain :=
  ⟨.soft, [⟨7, 1, .read 4 50 10 0⟩, ⟨7, 2, .fsync 4 true⟩, ⟨7, 3, .close 4⟩]⟩

theorem link_chain_atomic_three :
    (loopyIoUringLinkChainSubmit (ioUringInit 3 100 16) threeOps (fun _ => 0) true).1 =
        .entered true ∧
      LinkLaw threeOps (ioUringInit 3 100 16)
        (loopyIoUringLinkChainSubmit (ioUringInit 3 100 16) threeOps (fun _ => 0) true) := by
  have hok : RingOk (ioUringInit 3 100 16) :=
    ⟨⟨by decide, by decide, fun k hk => absurd hk (Nat.not_lt_zero k)⟩, by decide, by decide⟩
  refine ⟨by decide +kernel, (link_chain_atomic _ hok _ _ _).mpr (.inr (.inr ⟨?_, ?_⟩))⟩
  · decide +kernel
  · decide +kernel

/-- Read, and close without a callback. -/
def tornOps : LinkChain := ⟨.soft, [⟨7, 1, .read 4 50 10 0⟩, ⟨0, 2, .close 4⟩]⟩

/-- The second operation cannot be tracked: the first stays in the ring, linked to what comes next. -/
theorem link_chain_torn :
    ¬ LinkLaw tornOps (ioUringInit 3 100 16)
      (loopyIoUringLinkChainSubmit (ioUringInit 3 100 16) tornOps (fun _ => 0) true) := by
  intro h
  have hexit : (loopyIoUringLinkChainSubmit (ioUringInit 3 100 16) tornOps (fun _ => 0) true).1 =
      .untracked := by decide +kernel
  exact absurd (h.untouched (.inr hexit)).tail (by decide +kernel)

end Loopy.IoUring
