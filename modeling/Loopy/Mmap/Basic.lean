import Loopy.Lib.Bits

/-!
# `loopyMmap.c`

A mapping and the calls on ranges of it. Addresses and sizes are 64 bits wide and their arithmetic
wraps. What the system answers to a call is an input: an address for `mmap`, a size for `fstat`, a
number for the calls on ranges; the page size is the one `sysconf` gives.
-/

namespace Loopy.Mmap

open Loopy.Lib

/-! ## Flags -/

/-- `loopyMmapSyncFlags`. -/
def LOOPY_MMAP_SYNC_ASYNC : BitVec 32 := 0x1
def LOOPY_MMAP_SYNC_SYNC : BitVec 32 := 0x4
def LOOPY_MMAP_SYNC_INVALIDATE : BitVec 32 := 0x2

/-- The flags of `msync`. -/
def MS_ASYNC : BitVec 32 := 1
def MS_INVALIDATE : BitVec 32 := 2
def MS_SYNC : BitVec 32 := 4

/-- `convertSyncFlags`. -/
def convertSyncFlags (flags : BitVec 32) : BitVec 32 :=
  (if flags &&& LOOPY_MMAP_SYNC_ASYNC ≠ 0 then MS_ASYNC else 0) |||
    (if flags &&& LOOPY_MMAP_SYNC_SYNC ≠ 0 then MS_SYNC else 0) |||
    (if flags &&& LOOPY_MMAP_SYNC_INVALIDATE ≠ 0 then MS_INVALIDATE else 0)

/-- `loopyMmapAdvice`. -/
inductive LoopyMmapAdvice
  | NORMAL
  | RANDOM
  | SEQUENTIAL
  | WILLNEED
  | DONTNEED
deriving DecidableEq, Repr

/-- `convertAdviceFlags`. -/
def convertAdviceFlags (advice : LoopyMmapAdvice) : ℕ :=
  match advice with
  | .NORMAL => 0
  | .RANDOM => 1
  | .SEQUENTIAL => 2
  | .WILLNEED => 3
  | .DONTNEED => 4

/-! ## Mappings -/

/-- `loopyMmap`. -/
structure LoopyMmap where
  addr : BitVec 64
  length : BitVec 64
  valid : Bool
deriving DecidableEq, Repr

/-- The handle that `loopyMmapFile` and `loopyMmapAnon` make of what `mmap` returns; `mmap` and
`zmalloc` can fail. -/
def newMmap (mmap : Option (BitVec 64)) (zmalloc : Bool) (length : BitVec 64) : Option LoopyMmap :=
  match mmap with
  | none => none
  | some addr => if zmalloc then some { addr, length, valid := true } else none

/-- `loopyMmapAnon`; `mmap` is given the length. -/
def loopyMmapAnon (mmap : BitVec 64 → Option (BitVec 64)) (zmalloc : Bool) (length : BitVec 64) :
    Option LoopyMmap :=
  if length = 0 then none else newMmap (mmap length) zmalloc length

/-- `loopyMmapFile`; `fstat` gives the size of the file, `mmap` is given length and offset. -/
def loopyMmapFile (pageSize : BitVec 64) (fstat : Option (BitVec 64))
    (mmap : BitVec 64 → BitVec 64 → Option (BitVec 64)) (zmalloc : Bool) (fd : ℤ)
    (offset length : BitVec 64) : Option LoopyMmap :=
  if fd < 0 then none
  else
    let length :=
      if length = 0 then
        match fstat with
        | none => none
        | some size =>
          if size = 0 then none
          else if offset > 0 then
            if offset ≥ size then none else some (size - offset)
          else some size
      else some length
    match length with
    | none => none
    | some length =>
      if offset % pageSize ≠ 0 then none else newMmap (mmap length offset) zmalloc length

/-! ## Calls on ranges -/

/-- A system call on a range of addresses. -/
inductive SysCall
  | msync (addr length : BitVec 64) (flags : BitVec 32)
  | madvise (addr length : BitVec 64) (advice : ℕ)
  | mlock (addr length : BitVec 64)
  | munlock (addr length : BitVec 64)
deriving DecidableEq, Repr

def SysCall.addr : SysCall → BitVec 64
  | .msync addr _ _ | .madvise addr _ _ | .mlock addr _ | .munlock addr _ => addr

def SysCall.length : SysCall → BitVec 64
  | .msync _ length _ | .madvise _ length _ | .mlock _ length | .munlock _ length => length

/-- The four functions up to their system call: the call that `call` makes of the mapping, the
offset and the length, and whether it returned 0. No call is made if the arguments are refused. -/
def onRange (m : Option LoopyMmap) (offset length : BitVec 64)
    (call : LoopyMmap → BitVec 64 → BitVec 64 → SysCall) (sys : SysCall → ℤ) :
    Bool × Option SysCall :=
  match m with
  | none => (false, none)
  | some m =>
    if ¬m.valid then (false, none)
    else
      let length := if length = 0 then m.length - offset else length
      if offset ≥ m.length ∨ offset + length > m.length then (false, none)
      else
        let c := call m offset length
        (sys c = 0, some c)

/-- `loopyMmapSync`. -/
def loopyMmapSync (pageSize : BitVec 64) (m : Option LoopyMmap) (offset length : BitVec 64)
    (flags : BitVec 32) : (SysCall → ℤ) → Bool × Option SysCall :=
  onRange m offset length fun m offset length =>
    let alignedOffset := offset &&& ~~~(pageSize - 1)
    let alignedLength := length + (offset - alignedOffset)
    .msync (m.addr + alignedOffset) alignedLength (convertSyncFlags flags)

/-- `loopyMmapAdvise`. -/
def loopyMmapAdvise (m : Option LoopyMmap) (offset length : BitVec 64)
    (advice : LoopyMmapAdvice) : (SysCall → ℤ) → Bool × Option SysCall :=
  onRange m offset length fun m offset length =>
    .madvise (m.addr + offset) length (convertAdviceFlags advice)

/-- `loopyMmapLock`. -/
def loopyMmapLock (m : Option LoopyMmap) (offset length : BitVec 64) :
    (SysCall → ℤ) → Bool × Option SysCall :=
  onRange m offset length fun m offset length => .mlock (m.addr + offset) length

/-- `loopyMmapUnlock`. -/
def loopyMmapUnlock (m : Option LoopyMmap) (offset length : BitVec 64) :
    (SysCall → ℤ) → Bool × Option SysCall :=
  onRange m offset length fun m offset length => .munlock (m.addr + offset) length

/-- One of the four functions, with its own argument. -/
inductive RangeOp
  | sync (flags : BitVec 32)
  | advise (advice : LoopyMmapAdvice)
  | lock
  | unlock
deriving DecidableEq, Repr

def RangeOp.run (op : RangeOp) (pageSize : BitVec 64) (m : Option LoopyMmap)
    (offset length : BitVec 64) (sys : SysCall → ℤ) : Bool × Option SysCall :=
  match op with
  | .sync flags => loopyMmapSync pageSize m offset length flags sys
  | .advise advice => loopyMmapAdvise m offset length advice sys
  | .lock => loopyMmapLock m offset length sys
  | .unlock => loopyMmapUnlock m offset length sys

end Loopy.Mmap
