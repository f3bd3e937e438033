import Loopy.Mmap.Basic

/-!
# The ranges of `loopyMmap.c`

The test of a range adds the offset to the length, and the sum wraps. Where it does, it comes out
below the offset: the test lets any range through that starts within the mapping and reaches past
the end of the address space. `rangeOK_iff` says that nothing else goes wrong.
-/

namespace Loopy.Mmap

open Loopy.Lib

variable {k : ℕ} {pageSize : BitVec 64} {m : LoopyMmap} {offset length : BitVec 64}

theorem toNat_zero : (0 : BitVec 64).toNat = 0 := rfl

/-! ## Mappings -/

/-- What the kernel promises of a mapping that `mmap` has made: it starts on a page, is not empty
and lies in the address space. -/
structure Mapped (pageSize : BitVec 64) (m : LoopyMmap) : Prop where
  valid : m.valid = true
  aligned : pageSize.toNat ∣ m.addr.toNat
  length_pos : 1 ≤ m.length.toNat
  fits : m.addr.toNat + m.length.toNat ≤ 2 ^ 64

/-- `mmap` maps `length` bytes at `addr`. -/
structure MapsAt (pageSize length addr : BitVec 64) : Prop where
  aligned : pageSize.toNat ∣ addr.toNat
  fits : addr.toNat + length.toNat ≤ 2 ^ 64

theorem newMmap_mapped {mmap : Option (BitVec 64)} {zmalloc : Bool}
    (hmmap : ∀ addr, mmap = some addr → MapsAt pageSize length addr) (hlength : length ≠ 0)
    (h : newMmap mmap zmalloc length = some m) : Mapped pageSize m := by
  cases mmap with
  | none => cases h
  | some addr =>
    cases zmalloc with
    | false => cases h
    | true =>
      obtain rfl := Option.some.inj h
      have hmaps := hmmap addr rfl
      refine ⟨rfl, hmaps.aligned, ?_, hmaps.fits⟩
      exact Nat.one_le_iff_ne_zero.mpr fun h0 => hlength (BitVec.eq_of_toNat_eq h0)

theorem loopyMmapAnon_mapped {mmap : BitVec 64 → Option (BitVec 64)} {zmalloc : Bool}
    (hmmap : ∀ length addr, mmap length = some addr → MapsAt pageSize length addr)
    (h : loopyMmapAnon mmap zmalloc length = some m) : Mapped pageSize m := by
  unfold loopyMmapAnon at h
  split at h
  · cases h
  · rename_i hlength
    exact newMmap_mapped (hmmap length) hlength h

/-- Also where the length is taken from the file. -/
theorem loopyMmapFile_mapped {fstat : Option (BitVec 64)}
    {mmap : BitVec 64 → BitVec 64 → Option (BitVec 64)} {zmalloc : Bool} {fd : ℤ}
    (hmmap : ∀ length offset addr, mmap length offset = some addr → MapsAt pageSize length addr)
    (h : loopyMmapFile pageSize fstat mmap zmalloc fd offset length = some m) :
    Mapped pageSize m := by
  unfold loopyMmapFile at h
  split at h
  · cases h
  dsimp only at h
  split at h
  · cases h
  · rename_i mapped hmapped
    split at h
    · cases h
    refine newMmap_mapped (hmmap mapped offset) ?_ h
    -- a length of the caller's, of the file, or of the file from the offset on
    rintro rfl
    by_cases hlength : length = 0
    · rw [if_pos hlength] at hmapped
      cases fstat with
      | none => cases hmapped
      | some size =>
        dsimp only at hmapped
        by_cases hsize : size = 0
        · rw [if_pos hsize] at hmapped
          cases hmapped
        · rw [if_neg hsize] at hmapped
          split at hmapped
          · split at hmapped
            · cases hmapped
            · rename_i hlt
              have hsub : size - offset = 0 := Option.some.inj hmapped
              rw [ge_iff_le, BitVec.le_def, not_le] at hlt
              have hnat := BitVec.toNat_sub_of_le (BitVec.le_def.mpr hlt.le)
              rw [hsub, toNat_zero] at hnat
              omega
          · exact hsize (Option.some.inj hmapped)
    · rw [if_neg hlength] at hmapped
      exact hlength (Option.some.inj hmapped)

/-! ## The test -/

/-- The bytes that a call asks for, 0 being those up to the end. -/
def requested (m : LoopyMmap) (offset length : BitVec 64) : ℕ :=
  if length = 0 then m.length.toNat - offset.toNat else length.toNat

/-- The range lies in the mapping, in natural numbers. -/
def InRange (m : LoopyMmap) (offset length : BitVec 64) : Prop :=
  offset.toNat < m.length.toNat ∧ offset.toNat + length.toNat ≤ m.length.toNat

/-- The length after the default. -/
def fullLength (m : LoopyMmap) (offset length : BitVec 64) : BitVec 64 :=
  if length = 0 then m.length - offset else length

/-- The code's test: the default length and the sum wrap. -/
def Accepts (m : LoopyMmap) (offset length : BitVec 64) : Prop :=
  ¬(offset ≥ m.length ∨ offset + fullLength m offset length > m.length)

/-- In natural numbers. -/
theorem accepts_iff : Accepts m offset length ↔ offset.toNat < m.length.toNat ∧
    (offset.toNat + (fullLength m offset length).toNat) % 2 ^ 64 ≤ m.length.toNat := by
  rw [Accepts, not_or, ge_iff_le, gt_iff_lt, BitVec.le_def, BitVec.lt_def, not_le, not_lt,
    BitVec.toNat_add]

/-- The default length is right where the offset is. -/
theorem toNat_fullLength (h : offset.toNat < m.length.toNat) :
    (fullLength m offset length).toNat = requested m offset length := by
  unfold fullLength requested
  split
  · exact BitVec.toNat_sub_of_le (BitVec.le_def.mpr h.le)
  · rfl

/-- What is asked for ends in the mapping if the range is in it. -/
theorem InRange.requested_le (h : InRange m offset length) :
    offset.toNat + requested m offset length ≤ m.length.toNat := by
  obtain ⟨hoffset, hend⟩ := h
  unfold requested
  split <;> omega

theorem accepts_of_inRange (h : InRange m offset length) : Accepts m offset length := by
  have hrequested := h.requested_le
  have hlt := m.length.isLt
  rw [accepts_iff, toNat_fullLength h.1, Nat.mod_eq_of_lt (by omega)]
  exact ⟨h.1, hrequested⟩

/-- A range that is let through is in the mapping if the sum does not wrap. -/
theorem inRange_of_accepts (h : Accepts m offset length)
    (hsum : offset.toNat + length.toNat < 2 ^ 64) : InRange m offset length := by
  rw [accepts_iff] at h
  obtain ⟨hoffset, hend⟩ := h
  refine ⟨hoffset, ?_⟩
  by_cases hlength : length = 0
  · rw [hlength, toNat_zero]
    omega
  · rw [fullLength, if_neg hlength, Nat.mod_eq_of_lt hsum] at hend
    exact hend

/-- Where the sum wraps, it is below the offset, and the test passes. -/
theorem accepts_of_wraps (hoffset : offset.toNat < m.length.toNat)
    (hsum : 2 ^ 64 ≤ offset.toNat + length.toNat) : Accepts m offset length := by
  have hlt := m.length.isLt
  have hlt' := length.isLt
  have hlength : length ≠ 0 := by
    rintro rfl
    rw [toNat_zero] at hsum
    omega
  rw [accepts_iff, fullLength, if_neg hlength]
  omega

/-! ## The calls -/

/-- Where the call starts, in bytes from the start of the mapping. -/
def RangeOp.start (op : RangeOp) (pageSize offset : BitVec 64) : BitVec 64 :=
  match op with
  | .sync _ => alignDown pageSize offset
  | .advise _ | .lock | .unlock => offset

theorem RangeOp.start_le (op : RangeOp) (hpage : pageSize.toNat = 2 ^ k) (offset : BitVec 64) :
    (op.start pageSize offset).toNat ≤ offset.toNat := by
  cases op with
  | sync => exact alignDown_le hpage offset
  | advise | lock | unlock => exact le_rfl

/-- The call for a range that is accepted. -/
def RangeOp.call (op : RangeOp) (pageSize : BitVec 64) (m : LoopyMmap)
    (offset length : BitVec 64) : SysCall :=
  match op with
  | .sync flags =>
    .msync (m.addr + op.start pageSize offset) (length + (offset - op.start pageSize offset))
      (convertSyncFlags flags)
  | .advise advice => .madvise (m.addr + offset) length (convertAdviceFlags advice)
  | .lock => .mlock (m.addr + offset) length
  | .unlock => .munlock (m.addr + offset) length

theorem RangeOp.run_eq (op : RangeOp) (ptr : Option LoopyMmap) (sys : SysCall → ℤ) :
    op.run pageSize ptr offset length sys =
      onRange ptr offset length (op.call pageSize) sys := by
  cases op <;> rfl

/-- It starts there and ends where the range does. -/
theorem RangeOp.call_range (op : RangeOp) (pageSize : BitVec 64) (m : LoopyMmap)
    (offset length : BitVec 64) :
    (op.call pageSize m offset length).addr = m.addr + op.start pageSize offset ∧
      (op.call pageSize m offset length).length =
        length + (offset - op.start pageSize offset) := by
  cases op with
  | sync => exact ⟨rfl, rfl⟩
  | advise | lock | unlock =>
    refine ⟨rfl, ?_⟩
    simp [RangeOp.call, RangeOp.start, SysCall.length]

theorem run_of_accepts (op : RangeOp) (sys : SysCall → ℤ) (hm : m.valid = true)
    (h : Accepts m offset length) :
    (op.run pageSize (some m) offset length sys).2 =
      some (op.call pageSize m offset (fullLength m offset length)) := by
  rw [op.run_eq, onRange, if_neg (not_not.mpr hm)]
  dsimp only
  rw [← fullLength, if_neg h]

theorem run_of_not_accepts (op : RangeOp) (sys : SysCall → ℤ) (hm : m.valid = true)
    (h : ¬Accepts m offset length) :
    (op.run pageSize (some m) offset length sys).2 = none := by
  rw [op.run_eq, onRange, if_neg (not_not.mpr hm)]
  dsimp only
  rw [← fullLength, if_pos (not_not.mp h)]

/-- A call is made exactly if the test passes. -/
theorem run_isSome_iff (op : RangeOp) (pageSize : BitVec 64) (sys : SysCall → ℤ)
    (hm : m.valid = true) :
    (op.run pageSize (some m) offset length sys).2.isSome ↔ Accepts m offset length := by
  by_cases h : Accepts m offset length
  · rw [run_of_accepts op sys hm h]
    exact iff_of_true rfl h
  · rw [run_of_not_accepts op sys hm h]
    exact iff_of_false Bool.false_ne_true h

/-! ## The law -/

/-- The call is made exactly for a range in the mapping; what it is given lies in the mapping and
contains the range; for a sync it starts on the page of the offset. -/
structure RangeOK (op : RangeOp) (pageSize : BitVec 64) (m : LoopyMmap)
    (offset length : BitVec 64) (sys : SysCall → ℤ) : Prop where
  reaches : (op.run pageSize (some m) offset length sys).2.isSome ↔ InRange m offset length
  within : ∀ c, (op.run pageSize (some m) offset length sys).2 = some c →
    m.addr.toNat ≤ c.addr.toNat ∧
      c.addr.toNat + c.length.toNat ≤ m.addr.toNat + m.length.toNat
  contains : ∀ c, (op.run pageSize (some m) offset length sys).2 = some c →
    c.addr.toNat ≤ m.addr.toNat + offset.toNat ∧
      m.addr.toNat + offset.toNat + requested m offset length ≤ c.addr.toNat + c.length.toNat
  sync_start : ∀ flags c, op = .sync flags →
    (op.run pageSize (some m) offset length sys).2 = some c →
    pageSize.toNat ∣ c.addr.toNat ∧ c.addr.toNat ≤ m.addr.toNat + offset.toNat ∧
      m.addr.toNat + offset.toNat < c.addr.toNat + pageSize.toNat

/-- What is passed for a range in the mapping, in natural numbers. -/
theorem RangeOp.run_toNat (op : RangeOp) (hpage : pageSize.toNat = 2 ^ k) (hm : Mapped pageSize m)
    (hrange : InRange m offset length) {sys : SysCall → ℤ} {c : SysCall}
    (h : (op.run pageSize (some m) offset length sys).2 = some c) :
    c.addr.toNat = m.addr.toNat + (op.start pageSize offset).toNat ∧
      c.addr.toNat + c.length.toNat =
        m.addr.toNat + offset.toNat + requested m offset length := by
  rw [run_of_accepts op sys hm.valid (accepts_of_inRange hrange)] at h
  obtain rfl := Option.some.inj h
  obtain ⟨haddr, hlen⟩ := op.call_range pageSize m offset (fullLength m offset length)
  have hoffset := hrange.1
  have hrequested := hrange.requested_le
  have hstart := op.start_le hpage offset
  have hfits := hm.fits
  have hlt := m.length.isLt
  have hback : (offset - op.start pageSize offset).toNat =
      offset.toNat - (op.start pageSize offset).toNat :=
    BitVec.toNat_sub_of_le (BitVec.le_def.mpr hstart)
  refine ⟨?_, ?_⟩
  · rw [haddr, BitVec.toNat_add, Nat.mod_eq_of_lt (by omega)]
  · rw [haddr, hlen, BitVec.toNat_add, Nat.mod_eq_of_lt (by omega), BitVec.toNat_add,
      toNat_fullLength hoffset, hback, Nat.mod_eq_of_lt (by omega)]
    omega

theorem RangeOK.of_no_wrap {op : RangeOp} {sys : SysCall → ℤ} (hpage : pageSize.toNat = 2 ^ k)
    (hm : Mapped pageSize m)
    (h : m.length.toNat ≤ offset.toNat ∨ offset.toNat + length.toNat < 2 ^ 64) :
    RangeOK op pageSize m offset length sys := by
  have hreaches : (op.run pageSize (some m) offset length sys).2.isSome ↔
      InRange m offset length := by
    rw [run_isSome_iff op pageSize sys hm.valid]
    refine ⟨fun haccepts => ?_, accepts_of_inRange⟩
    rcases h with hbeyond | hsum
    · exact absurd (.inl (BitVec.le_def.mpr hbeyond)) haccepts
    · exact inRange_of_accepts haccepts hsum
  have hcall : ∀ c, (op.run pageSize (some m) offset length sys).2 = some c →
      InRange m offset length := by
    intro c hc
    rw [← hreaches, hc]
    rfl
  have hstart := op.start_le hpage offset
  refine ⟨hreaches, fun c hc => ?_, fun c hc => ?_, fun flags c hop hc => ?_⟩
  · obtain ⟨haddr, hend⟩ := op.run_toNat hpage hm (hcall c hc) hc
    have hrequested := (hcall c hc).requested_le
    omega
  · obtain ⟨haddr, hend⟩ := op.run_toNat hpage hm (hcall c hc) hc
    omega
  · obtain ⟨haddr, hend⟩ := op.run_toNat hpage hm (hcall c hc) hc
    subst hop
    have hpage_lt := lt_alignDown_add hpage offset
    change c.addr.toNat = m.addr.toNat + (alignDown pageSize offset).toNat at haddr
    refine ⟨?_, ?_, ?_⟩
    · rw [haddr]
      exact Nat.dvd_add hm.aligned (alignDown_dvd hpage offset)
    · have := alignDown_le hpage offset
      omega
    · omega

/-- The check is right exactly for the offsets beyond the end and the sums that do not wrap. -/
theorem rangeOK_iff (op : RangeOp) (sys : SysCall → ℤ) (offset length : BitVec 64)
    (hpage : ∃ k, pageSize.toNat = 2 ^ k) (hm : Mapped pageSize m) :
    RangeOK op pageSize m offset length sys ↔
      m.length.toNat ≤ offset.toNat ∨ offset.toNat + length.toNat < 2 ^ 64 := by
  obtain ⟨k, hpage⟩ := hpage
  refine ⟨fun h => ?_, RangeOK.of_no_wrap hpage hm⟩
  by_contra hwraps
  rw [not_or, not_le, not_lt] at hwraps
  obtain ⟨hoffset, hsum⟩ := hwraps
  have haccepts := (run_isSome_iff op pageSize sys hm.valid).mpr (accepts_of_wraps hoffset hsum)
  have hlt := m.length.isLt
  have hend := (h.reaches.mp haccepts).2
  omega

/-- Sixteen pages at `0x10000`. -/
def sixteenPages : LoopyMmap := { addr := 0x10000, length := 0x10000, valid := true }

theorem sixteenPages_mapped : Mapped 0x1000 sixteenPages := by
  refine ⟨rfl, ?_, ?_, ?_⟩ <;> decide

/-- A sync of the middle of a page. -/
theorem rangeOK_sixteenPages :
    RangeOK (.sync 4) 0x1000 sixteenPages 0x1800 0x100 (fun _ => 0) :=
  (rangeOK_iff (.sync 4) (fun _ => 0) 0x1800 0x100 ⟨12, rfl⟩ sixteenPages_mapped).mpr
    (.inr (by decide))

/-- From offset 1, the longest length of all is let through. -/
theorem loopyMmapLock_wraps :
    ¬ ∀ op pageSize m offset length sys, (∃ k, pageSize.toNat = 2 ^ k) → Mapped pageSize m →
      RangeOK op pageSize m offset length sys := by
  intro h
  have hok := h .lock 0x1000 sixteenPages 1 (-1) (fun _ => 0) ⟨12, rfl⟩ sixteenPages_mapped
  have hrange := hok.reaches.mp (by decide)
  exact absurd hrange.2 (by decide)

end Loopy.Mmap
