import Mathlib.Data.List.Basic
import Mathlib.Data.PNat.Basic

/-!
# Names of files

A file system whose paths are names of inodes, and the system calls on it. Each call gets its
outcome: it fails with a number, or it succeeds, and a read or a write may transfer fewer bytes than
it is asked for. A read of what is not at its end transfers at least one byte.
-/

namespace Loopy.Lib

open Function (update update_of_ne update_self)

/-- A value of `errno` that a call that fails leaves. -/
abbrev Errno := ℕ+

/-- `ENOENT`. -/
def ENOENT : Errno := 2

/-- `EEXIST`. -/
def EEXIST : Errno := 17

/-- The inodes from `next` on have no name. -/
structure FileSystem (P : Type*) where
  inode : P → Option ℕ
  data : ℕ → List UInt8
  next : ℕ
  inode_lt : ∀ path, ∀ i ∈ inode path, i < next

/-- The flags of an `open`, besides the access mode. -/
structure OpenFlags where
  creat : Bool := false
  trunc : Bool := false
  excl : Bool := false
deriving DecidableEq, Repr

/-- An open file. -/
structure Descriptor where
  inode : ℕ
  offset : ℕ
deriving DecidableEq, Repr

/-- A file with bytes written at an offset; a gap is filled with zeros. -/
def overwrite (data : List UInt8) (offset : ℕ) (bytes : List UInt8) : List UInt8 :=
  (data.take offset).rightpad offset 0 ++ bytes ++ data.drop (offset + bytes.length)

theorem overwrite_end (data bytes : List UInt8) :
    overwrite data data.length bytes = data ++ bytes := by
  unfold overwrite
  rw [List.take_length, List.rightpad, Nat.sub_self, List.replicate_zero, List.append_nil,
    List.drop_eq_nil_of_le (Nat.le_add_right _ _), List.append_nil]

namespace FileSystem

variable {P : Type*}

/-- The file system with another content of an inode. -/
def store (fs : FileSystem P) (i : ℕ) (data : List UInt8) : FileSystem P :=
  { fs with data := update fs.data i data }

@[simp]
theorem store_data_self (fs : FileSystem P) (i : ℕ) (data : List UInt8) :
    (fs.store i data).data i = data := update_self _ _ _

theorem store_data_of_ne (fs : FileSystem P) {i j : ℕ} (data : List UInt8) (h : j ≠ i) :
    (fs.store i data).data j = fs.data j := update_of_ne h _ _

/-- The file system with a new, empty file. -/
def create [DecidableEq P] (fs : FileSystem P) (path : P) : FileSystem P where
  inode := update fs.inode path (some fs.next)
  data := update fs.data fs.next []
  next := fs.next + 1
  inode_lt := by
    intro path' i hi
    by_cases hpath : path' = path
    · subst hpath
      rw [update_self] at hi
      obtain rfl := Option.some.inj hi
      exact Nat.lt_succ_self _
    · rw [update_of_ne hpath] at hi
      exact Nat.lt_succ_of_lt (fs.inode_lt path' i hi)

/-- `open`, with the number of an error that stops it. -/
def openPath [DecidableEq P] (fs : FileSystem P) (path : P) (flags : OpenFlags)
    (outcome : Option Errno) : Except Errno Descriptor × FileSystem P :=
  match outcome with
  | some errno => (.error errno, fs)
  | none =>
    match fs.inode path with
    | some i =>
      if flags.creat ∧ flags.excl then (.error EEXIST, fs)
      else (.ok ⟨i, 0⟩, if flags.trunc then fs.store i [] else fs)
    | none => if flags.creat then (.ok ⟨fs.next, 0⟩, fs.create path) else (.error ENOENT, fs)

/-- `read` of at most `size` bytes, with the number of bytes that are there at once. -/
def read (fs : FileSystem P) (fd : Descriptor) (size : ℕ) (outcome : Except Errno ℕ+) :
    Except Errno (List UInt8) × Descriptor :=
  match outcome with
  | .error errno => (.error errno, fd)
  | .ok k =>
    let bytes := ((fs.data fd.inode).drop fd.offset).take (min size k)
    (.ok bytes, { fd with offset := fd.offset + bytes.length })

/-- `write`, with the number of bytes for which there is room. -/
def write (fs : FileSystem P) (fd : Descriptor) (bytes : List UInt8) (outcome : Except Errno ℕ) :
    Except Errno ℕ × Descriptor × FileSystem P :=
  match outcome with
  | .error errno => (.error errno, fd, fs)
  | .ok k =>
    let bytes := bytes.take k
    (.ok bytes.length, { fd with offset := fd.offset + bytes.length },
      fs.store fd.inode (overwrite (fs.data fd.inode) fd.offset bytes))

/-- An `open` of a file that has to exist fails, or it opens the file as it is. -/
theorem openPath_plain [DecidableEq P] (fs : FileSystem P) (path : P) (outcome : Option Errno) :
    (∃ errno, fs.openPath path {} outcome = (.error errno, fs) ∧
        ∀ i, ¬ (outcome = none ∧ fs.inode path = some i)) ∨
      ∃ i, outcome = none ∧ fs.inode path = some i ∧
        fs.openPath path {} outcome = (.ok ⟨i, 0⟩, fs) := by
  unfold openPath
  cases outcome with
  | some errno => exact .inl ⟨errno, rfl, fun i h => nomatch h.1⟩
  | none =>
    cases hpath : fs.inode path with
    | none => exact .inl ⟨ENOENT, rfl, fun i h => nomatch h.2⟩
    | some i => exact .inr ⟨i, rfl, rfl, rfl⟩

/-- An `open` that creates its file or truncates it fails, or the file is open and empty: it is
another one than a named one, unless its path is a name of that. -/
theorem openPath_trunc [DecidableEq P] (fs : FileSystem P) (path : P) (flags : OpenFlags)
    (outcome : Option Errno) (hcreat : flags.creat = true) (htrunc : flags.trunc = true) :
    (∃ errno, fs.openPath path flags outcome = (.error errno, fs) ∧
        ¬ (outcome = none ∧ (flags.excl = true → fs.inode path = none))) ∨
      ∃ j fs', outcome = none ∧ (flags.excl = true → fs.inode path = none) ∧
        fs.openPath path flags outcome = (.ok ⟨j, 0⟩, fs') ∧ fs'.inode path = some j ∧
        fs'.data j = [] ∧ (∀ k ≠ j, fs'.data k = fs.data k) ∧
        ∀ path' i, fs.inode path' = some i → (i = j ↔ fs.inode path = some i) := by
  unfold openPath
  cases outcome with
  | some errno => exact .inl ⟨errno, rfl, fun h => nomatch h.1⟩
  | none =>
    dsimp only
    cases hpath : fs.inode path with
    | some j =>
      dsimp only
      by_cases hexcl : flags.excl = true
      · rw [if_pos ⟨hcreat, hexcl⟩]
        exact .inl ⟨EEXIST, rfl, fun h => nomatch h.2 hexcl⟩
      · rw [if_neg fun h => hexcl h.2, if_pos htrunc]
        refine .inr ⟨j, fs.store j [], rfl, fun h => absurd h hexcl, rfl, hpath,
          store_data_self fs j [], fun k hk => store_data_of_ne fs [] hk, fun path' i _ => ?_⟩
        rw [Option.some.injEq, eq_comm]
    | none =>
      dsimp only
      rw [if_pos hcreat]
      refine .inr ⟨fs.next, fs.create path, rfl, fun _ => rfl, rfl, update_self _ _ _,
        update_self _ _ _, fun k hk => update_of_ne hk _ _, fun path' i hi => ?_⟩
      exact iff_of_false (fs.inode_lt path' i hi).ne nofun

/-- A `write` at the end appends what it takes. -/
theorem write_end {fs : FileSystem P} (fd : Descriptor)
    (h : fd.offset = (fs.data fd.inode).length) (bytes : List UInt8) (k : ℕ) :
    fs.write fd bytes (.ok k) = (.ok (bytes.take k).length,
      { fd with offset := fd.offset + (bytes.take k).length },
      fs.store fd.inode (fs.data fd.inode ++ bytes.take k)) := by
  unfold write
  dsimp only
  rw [← overwrite_end, ← h]

end FileSystem

end Loopy.Lib
