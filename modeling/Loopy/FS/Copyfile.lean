import Loopy.FS.Basic
import Loopy.Lib.Inodes

/-!
# `loopyFS.c`: a copy with reads and writes

The request `LOOPY_FS_COPYFILE` where the system has no call for it. What every system call does is
an input: the errors of the opens, of `fstat` and of the closing of the source, and for each turn of
the loop how much the read finds and how much the write takes. A call that succeeds leaves `errno`
as it was.

The destination is truncated before the source is read, which loses the content of a file that is
copied to another name of itself; and a write that takes fewer bytes than it is given saves an
`errno` that it has not set. `copyfile_faithful_iff` says that nothing else goes wrong.
-/

namespace Loopy.FS

open Loopy.Lib

/-- `LOOPY_FS_COPY_EXCL`. -/
def LOOPY_FS_COPY_EXCL : UInt32 := 1

/-- The fields of `loopyFSRequest` that a copy uses. -/
structure CopyRequest (P : Type) where
  path : P
  newPath : P
  copyFlags : UInt32
  result : ℤ := -1
  savedErrno : ℕ := 0
  errorString : Option (String × ℕ) := none
  cancelled : Bool := false
deriving DecidableEq, Repr

variable {P : Type}

/-- `loopyFSCopyfile`, up to `fsRunSync` or `fsRunAsync`; `none` is a null pointer. -/
def loopyFSCopyfile (srcPath dstPath : Option P) (flags : UInt32) : Option (CopyRequest P) :=
  match srcPath, dstPath with
  | some srcPath, some dstPath => some { path := srcPath, newPath := dstPath, copyFlags := flags }
  | _, _ => none

/-- The request with `result`, `savedErrno` and `fsSetError`. -/
def CopyRequest.fail (req : CopyRequest P) (field : String) (errno : ℕ) : CopyRequest P :=
  { req with result := -1, savedErrno := errno, errorString := some (field, errno) }

/-- How much a read finds, and how much a write takes, in one turn of the loop. -/
structure Turn where
  read : Except Errno ℕ+
  write : Except Errno ℕ

/-- What the system calls do; `errno` is the one before the request. -/
structure Outcomes where
  openSource : Option Errno
  fstat : Option Errno
  openDest : Option Errno
  close : Option Errno
  turns : List Turn
  errno : ℕ

/-- `errno` after the source is closed. -/
def Outcomes.closed (o : Outcomes) (errno : Errno) : ℕ := o.close.getD errno

/-- The loop; `none` says that the turns are not enough. -/
def copyLoop (errno : ℕ) (req : CopyRequest P) :
    List Turn → Descriptor → Descriptor → FileSystem P → Option (CopyRequest P) × FileSystem P
  | [], _, _, fs => (none, fs)
  | turn :: turns, srcFd, dstFd, fs =>
    match fs.read srcFd 65536 turn.read with
    | (.error e, _) => (some (req.fail "read" e), fs)
    | (.ok [], _) => (some req, fs)
    | (.ok (byte :: bytes), srcFd) =>
      match fs.write dstFd (byte :: bytes) turn.write with
      | (.error e, _, fs) => (some (req.fail "write" e), fs)
      | (.ok written, dstFd, fs) =>
        if written ≠ bytes.length + 1 then (some (req.fail "write" errno), fs)
        else copyLoop errno req turns srcFd dstFd fs

/-- `dstFlags`. -/
def CopyRequest.dstFlags (req : CopyRequest P) : OpenFlags :=
  { creat := true, trunc := true, excl := req.copyFlags &&& LOOPY_FS_COPY_EXCL ≠ 0 }

/-- `fsWorkCallback` for `LOOPY_FS_COPYFILE`. -/
def fsWorkCopyfile [DecidableEq P] (o : Outcomes) (req : CopyRequest P) (fs : FileSystem P) :
    Option (CopyRequest P) × FileSystem P :=
  if req.cancelled then (some { req with savedErrno := ECANCELED, result := -1 }, fs)
  else
    match fs.openPath req.path {} o.openSource with
    | (.error e, fs) => (some (req.fail "open source" e), fs)
    | (.ok srcFd, fs) =>
      match o.fstat with
      | some e => (some (req.fail "fstat source" (o.closed e)), fs)
      | none =>
        match fs.openPath req.newPath req.dstFlags o.openDest with
        | (.error e, fs) => (some (req.fail "open dest" (o.closed e)), fs)
        | (.ok dstFd, fs) => copyLoop o.errno { req with result := 0 } o.turns srcFd dstFd fs

/-! ## The law -/

/-- What a copy leaves, whether it has ended or not. -/
structure CopyLaw (req : CopyRequest P) (fs : FileSystem P)
    (r : Option (CopyRequest P) × FileSystem P) : Prop where
  copied : ∀ req' ∈ r.1, req'.result = 0 → ∃ i j, fs.inode req.path = some i ∧
    r.2.inode req.newPath = some j ∧ r.2.data j = fs.data i ∧ r.2.data i = fs.data i
  exclusive : req.copyFlags &&& LOOPY_FS_COPY_EXCL ≠ 0 → ∀ j, fs.inode req.newPath = some j →
    r.2.inode req.newPath = some j ∧ r.2.data j = fs.data j
  failed : ∀ req' ∈ r.1, req'.result ≠ 0 → req'.result = -1 ∧ req'.savedErrno ≠ 0

/-- The source is open, and so is the destination, which did not exist if the copy is exclusive. -/
structure Opens (o : Outcomes) (req : CopyRequest P) (fs : FileSystem P) (i : ℕ) : Prop where
  cancelled : req.cancelled = false
  openSource : o.openSource = none
  source : fs.inode req.path = some i
  fstat : o.fstat = none
  openDest : o.openDest = none
  exclusive : req.copyFlags &&& LOOPY_FS_COPY_EXCL ≠ 0 → fs.inode req.newPath = none

/-- A write of the bytes of a file takes fewer bytes than it is given. -/
def ShortWrite : List UInt8 → List Turn → Prop
  | _, [] => False
  | data, turn :: turns =>
    match turn.read, turn.write with
    | .ok found, .ok taken =>
      let bytes := data.take (min 65536 found)
      taken < bytes.length ∨ ShortWrite (data.drop bytes.length) turns
    | _, _ => False

/-- If the files are open, then they are not one file with a content whose first read succeeds, and
no write to another file is short while `errno` is 0. -/
def Careful (o : Outcomes) (req : CopyRequest P) (fs : FileSystem P) : Prop :=
  ∀ i, Opens o req fs i →
    if fs.inode req.newPath = some i then
      fs.data i = [] ∨ ∀ turn ∈ o.turns.head?, ∀ found, turn.read ≠ .ok found
    else o.errno ≠ 0 ∨ ¬ ShortWrite (fs.data i) o.turns

/-! ## The loop -/

section loop

variable {req : CopyRequest P} {fs : FileSystem P} {errno i j p : ℕ} {data : List UInt8}

variable {found : ℕ+} {turns : List Turn}

theorem shortWrite_cons {taken : ℕ} :
    ShortWrite data (⟨.ok found, .ok taken⟩ :: turns) ↔
      taken < (data.take (min 65536 found)).length ∨
        ShortWrite (data.drop (data.take (min 65536 found)).length) turns :=
  Iff.rfl

theorem shortWrite_nil (turns : List Turn) : ¬ ShortWrite [] turns := by
  induction turns with
  | nil => exact id
  | cons turn turns ih =>
    obtain ⟨read, write⟩ := turn
    cases read with
    | error e => exact id
    | ok found =>
      cases write with
      | error e => exact id
      | ok taken =>
        rw [shortWrite_cons, List.take_nil, List.drop_nil]
        rintro (hlt | hshort)
        · exact Nat.not_lt_zero _ hlt
        · exact ih hshort

/-- The next bytes of a file after its first `p` ones. -/
theorem take_append_take_drop (data : List UInt8) (p n : ℕ) :
    data.take p ++ (data.drop p).take n = data.take (p + ((data.drop p).take n).length) := by
  rw [List.take_add, List.length_take, List.append_right_inj, List.take_eq_take_iff]
  omega

theorem shortWrite_bytes (taken : ℕ) (turns : List Turn) {bytes : List UInt8}
    (hbytes : (data.drop p).take (min 65536 found) = bytes) :
    ShortWrite (data.drop p) (⟨.ok found, .ok taken⟩ :: turns) ↔
      taken < bytes.length ∨ ShortWrite (data.drop (p + bytes.length)) turns := by
  rw [shortWrite_cons, hbytes, List.drop_drop]

/-- What the loop does to two files, when the first `p` bytes are copied. -/
structure Copied (data : List UInt8) (p errno : ℕ) (turns : List Turn) (j : ℕ) (fs : FileSystem P)
    (r : Option (CopyRequest P) × FileSystem P) : Prop where
  inode : r.2.inode = fs.inode
  others : ∀ k ≠ j, r.2.data k = fs.data k
  ended : ∀ req' ∈ r.1, req'.result = 0 ∧ r.2.data j = data ∧ ¬ ShortWrite (data.drop p) turns ∨
    req'.result = -1 ∧ req'.savedErrno ≠ 0 ∧ ¬ ShortWrite (data.drop p) turns ∨
    req'.result = -1 ∧ req'.savedErrno = errno ∧ ShortWrite (data.drop p) turns
  short : ShortWrite (data.drop p) turns → r.1.isSome
  enough : data.length - p < turns.length → r.1.isSome

/-- The loop ends with an error. -/
theorem Copied.error (hshort : ¬ ShortWrite (data.drop p) turns) (field : String) (e : Errno) :
    Copied data p errno turns j fs (some (req.fail field e), fs) := by
  refine ⟨rfl, fun _ _ => rfl, fun req' h => .inr (.inl ?_), fun _ => rfl, fun _ => rfl⟩
  obtain rfl := Option.some.inj h
  exact ⟨rfl, e.ne_zero, hshort⟩

/-- The loop goes on after all bytes of a read are written. -/
theorem Copied.next {taken : ℕ} {bytes : List UInt8} {r : Option (CopyRequest P) × FileSystem P}
    (hbytes : (data.drop p).take (min 65536 found) = bytes) (hne : bytes ≠ [])
    (hall : bytes.length ≤ taken) {written : List UInt8}
    (h : Copied data (p + bytes.length) errno turns j (fs.store j written) r) :
    Copied data p errno (⟨.ok found, .ok taken⟩ :: turns) j fs r := by
  have hshort := shortWrite_bytes taken turns hbytes
  rw [or_iff_right (Nat.not_lt.mpr hall)] at hshort
  have hpos := List.length_pos_of_ne_nil hne
  have hlength := congrArg List.length hbytes
  rw [List.length_take, List.length_drop] at hlength
  refine ⟨h.inode, fun k hk => (h.others k hk).trans (FileSystem.store_data_of_ne _ _ hk), ?_, ?_,
    fun henough => h.enough ?_⟩
  · rw [hshort]
    exact h.ended
  · rw [hshort]
    exact h.short
  · rw [List.length_cons] at henough
    omega

theorem copyLoop_spec (turns : List Turn) (hresult : req.result = 0) (hne : i ≠ j)
    (hsource : fs.data i = data) (hdest : fs.data j = data.take p) (hp : p ≤ data.length) :
    Copied data p errno turns j fs (copyLoop errno req turns ⟨i, p⟩ ⟨j, p⟩ fs) := by
  induction turns generalizing p fs with
  | nil => exact ⟨rfl, fun _ _ => rfl, nofun, False.elim, nofun⟩
  | cons turn turns ih =>
    obtain ⟨read, write⟩ := turn
    unfold copyLoop
    cases read with
    | error e => exact .error id "read" e
    | ok found =>
      unfold FileSystem.read
      dsimp only
      rw [hsource]
      cases hbytes : (data.drop p).take (min 65536 found) with
      | nil =>
        -- the end of the source
        have hrest : data.drop p = [] := by
          have := found.pos
          exact (List.take_eq_nil_iff.mp hbytes).resolve_left (by omega)
        have hend : data.take p = data := List.take_of_length_le (List.drop_eq_nil_iff.mp hrest)
        have hshort : ¬ ShortWrite (data.drop p) (⟨.ok found, write⟩ :: turns) := by
          rw [hrest]
          exact shortWrite_nil _
        refine ⟨rfl, fun _ _ => rfl, fun req' h => .inl ?_, fun h => absurd h hshort, fun _ => rfl⟩
        obtain rfl := Option.some.inj h
        exact ⟨hresult, hdest.trans hend, hshort⟩
      | cons byte bytes =>
        have hoffset : p = (fs.data j).length := by
          rw [hdest, List.length_take]
          omega
        cases write with
        | error e => exact .error id "write" e
        | ok taken =>
          dsimp only
          rw [FileSystem.write_end ⟨j, p⟩ hoffset]
          dsimp only
          rw [List.length_take, ← List.length_cons (a := byte)]
          split
          · next hwritten =>
            have hfew : taken < (byte :: bytes).length := by omega
            have hshort := (shortWrite_bytes taken turns hbytes).mpr (.inl hfew)
            refine ⟨rfl, fun k hk => FileSystem.store_data_of_ne _ _ hk,
              fun req' h => .inr (.inr ?_), fun _ => rfl, fun _ => rfl⟩
            obtain rfl := Option.some.inj h
            exact ⟨rfl, rfl, hshort⟩
          · next hwritten =>
            have hall : (byte :: bytes).length ≤ taken := by omega
            have hnext := take_append_take_drop data p (min 65536 found)
            have hlength := congrArg List.length hbytes
            rw [hbytes] at hnext
            rw [List.length_take, List.length_drop] at hlength
            rw [not_not.mp hwritten, List.take_of_length_le hall, hdest, hnext]
            refine .next hbytes (List.cons_ne_nil _ _) hall (ih ?_ ?_ (by omega))
            · exact (FileSystem.store_data_of_ne _ _ hne).trans hsource
            · exact FileSystem.store_data_self _ _ _

/-- The loop from the start, with an empty destination. -/
theorem copyLoop_start (turns : List Turn) (hresult : req.result = 0) (hne : i ≠ j)
    (hsource : fs.data i = data) (hdest : fs.data j = []) :
    Copied data 0 errno turns j fs (copyLoop errno req turns ⟨i, 0⟩ ⟨j, 0⟩ fs) :=
  copyLoop_spec turns hresult hne hsource hdest (Nat.zero_le _)

end loop

/-! ## The request -/

section request

variable {o : Outcomes} {req : CopyRequest P} {fs : FileSystem P}

variable {i j : ℕ}

theorem Opens.unique {i' : ℕ} (h : Opens o req fs i) (h' : Opens o req fs i') : i' = i :=
  Option.some.inj (h'.source.symm.trans h.source)

theorem Opens.not_exclusive (h : Opens o req fs i) (hpath : fs.inode req.newPath = some j) :
    ¬ req.copyFlags &&& LOOPY_FS_COPY_EXCL ≠ 0 := by
  intro hflag
  rw [h.exclusive hflag] at hpath
  cases hpath

/-- A copy to another file. -/
theorem Copied.law_iff {fs' : FileSystem P} {r : Option (CopyRequest P) × FileSystem P}
    (hcopied : Copied (fs.data i) 0 o.errno o.turns j fs' r) (hopens : Opens o req fs i)
    (hname : fs'.inode req.newPath = some j) (hne : i ≠ j)
    (hothers : ∀ k ≠ j, fs'.data k = fs.data k) (hnew : fs.inode req.newPath ≠ some i) :
    CopyLaw req fs r ↔ Careful o req fs := by
  constructor
  · intro hlaw i' hopens'
    obtain rfl := hopens.unique hopens'
    rw [if_neg hnew]
    by_contra hcareless
    obtain ⟨herrno, hshort⟩ : o.errno = 0 ∧ ShortWrite (fs.data i') o.turns := by
      simpa only [not_or, not_not] using hcareless
    obtain ⟨req', hreq'⟩ := Option.isSome_iff_exists.mp (hcopied.short hshort)
    rcases hcopied.ended req' hreq' with ⟨-, -, hnot⟩ | ⟨-, -, hnot⟩ | ⟨hfailed, hstale, -⟩
    · exact hnot hshort
    · exact hnot hshort
    · have hresult : req'.result ≠ 0 := by rw [hfailed]; decide
      exact (hlaw.failed req' hreq' hresult).2 (hstale.trans herrno)
  · intro hcareful
    have hcareful := hcareful i hopens
    rw [if_neg hnew] at hcareful
    refine ⟨fun req' hreq' hresult => ?_, fun hflag k hk => ?_, fun req' hreq' hresult => ?_⟩
    · rcases hcopied.ended req' hreq' with ⟨-, hdata, -⟩ | ⟨hfailed, -⟩ | ⟨hfailed, -⟩
      · exact ⟨i, j, hopens.source, by rw [hcopied.inode, hname], hdata,
          (hcopied.others i hne).trans (hothers i hne)⟩
      all_goals
        rw [hresult] at hfailed
        cases hfailed
    · exact absurd hflag (hopens.not_exclusive hk)
    · rcases hcopied.ended req' hreq' with
        ⟨hok, -⟩ | ⟨hfailed, herrno, -⟩ | ⟨hfailed, hstale, hshort⟩
      · exact absurd hok hresult
      · exact ⟨hfailed, herrno⟩
      · rw [hstale]
        exact ⟨hfailed, hcareful.resolve_right (not_not.mpr hshort)⟩

/-- The loop on a source that is empty. -/
theorem copyLoop_empty {errno : ℕ} (h : fs.data i = []) (turn : Turn) (turns : List Turn) :
    copyLoop errno req (turn :: turns) ⟨i, 0⟩ ⟨j, 0⟩ fs =
      match turn.read with
      | .error e => (some (req.fail "read" e), fs)
      | .ok _ => (some req, fs) := by
  obtain ⟨read, write⟩ := turn
  unfold copyLoop FileSystem.read
  cases read with
  | error e => rfl
  | ok found =>
    dsimp only
    rw [h, List.drop_nil, List.take_nil]

/-- A copy of a file to another name of it. -/
theorem samefile_law_iff {fs' : FileSystem P} (hopens : Opens o req fs i)
    (hsame : fs.inode req.newPath = some i) (hname : fs'.inode req.newPath = some i)
    (hempty : fs'.data i = []) :
    CopyLaw req fs (copyLoop o.errno { req with result := 0 } o.turns ⟨i, 0⟩ ⟨i, 0⟩ fs') ↔
      Careful o req fs := by
  have hcareful : Careful o req fs ↔
      (fs.data i = [] ∨ ∀ turn ∈ o.turns.head?, ∀ found, turn.read ≠ .ok found) := by
    refine ⟨fun h => by simpa only [if_pos hsame] using h i hopens, fun h i' hopens' => ?_⟩
    obtain rfl := hopens.unique hopens'
    rwa [if_pos hsame]
  rw [hcareful]
  cases hturns : o.turns with
  | nil =>
    exact iff_of_true ⟨nofun, fun hflag k hk => absurd hflag (hopens.not_exclusive hk), nofun⟩
      (.inr nofun)
  | cons turn turns =>
    rw [copyLoop_empty hempty]
    cases hread : turn.read with
    | error e =>
      refine iff_of_true ⟨fun req' h hresult => ?_,
        fun hflag k hk => absurd hflag (hopens.not_exclusive hk), fun req' h _ => ?_⟩ (.inr ?_)
      · obtain rfl := Option.some.inj h
        cases hresult
      · obtain rfl := Option.some.inj h
        exact ⟨rfl, e.ne_zero⟩
      · rintro turn' hturn' found hfound
        obtain rfl := Option.some.inj hturn'
        rw [hread] at hfound
        cases hfound
    | ok found =>
      constructor
      · intro hlaw
        obtain ⟨i', -, hsource, -, -, hdata⟩ := hlaw.copied _ rfl rfl
        obtain rfl := Option.some.inj (hopens.source.symm.trans hsource)
        exact .inl (hdata.symm.trans hempty)
      · rintro (hdata | hfails)
        · refine ⟨fun req' h _ => ⟨i, i, hopens.source, hname, ?_, ?_⟩,
            fun hflag k hk => absurd hflag (hopens.not_exclusive hk), fun req' h hresult => ?_⟩
          · rw [hempty, hdata]
          · rw [hempty, hdata]
          · obtain rfl := Option.some.inj h
            exact absurd rfl hresult
        · exact absurd hread (hfails turn rfl found)

variable [DecidableEq P]

/-- A request before its loop: it has ended with an error, or the files are open. -/
theorem fsWorkCopyfile_cases (o : Outcomes) (req : CopyRequest P) (fs : FileSystem P) :
    (∃ req', fsWorkCopyfile o req fs = (some req', fs) ∧ req'.result = -1 ∧ req'.savedErrno ≠ 0 ∧
        ∀ i, ¬ Opens o req fs i) ∨
      ∃ i j fs', Opens o req fs i ∧ fs'.inode req.newPath = some j ∧ fs'.data j = [] ∧
        (∀ k ≠ j, fs'.data k = fs.data k) ∧ (i = j ↔ fs.inode req.newPath = some i) ∧
        fsWorkCopyfile o req fs =
          copyLoop o.errno { req with result := 0 } o.turns ⟨i, 0⟩ ⟨j, 0⟩ fs' := by
  unfold fsWorkCopyfile
  cases hcancelled : req.cancelled with
  | true =>
    refine .inl ⟨_, rfl, rfl, (by decide : ECANCELED ≠ 0), fun i h => ?_⟩
    rw [h.cancelled] at hcancelled
    cases hcancelled
  | false =>
    rw [if_neg Bool.false_ne_true]
    rcases fs.openPath_plain req.path o.openSource with
      ⟨e, hopen, hnot⟩ | ⟨i, houtcome, hpath, hopen⟩
    · rw [hopen]
      exact .inl ⟨_, rfl, rfl, e.ne_zero, fun i h => hnot i ⟨h.openSource, h.source⟩⟩
    rw [hopen]
    dsimp only
    have hclosed (e : Errno) : o.closed e ≠ 0 := by
      unfold Outcomes.closed
      cases o.close with
      | none => exact e.ne_zero
      | some e' => exact e'.ne_zero
    cases hfstat : o.fstat with
    | some e =>
      refine .inl ⟨_, rfl, rfl, hclosed e, fun i h => ?_⟩
      rw [h.fstat] at hfstat
      cases hfstat
    | none =>
      dsimp only
      have hexcl : req.dstFlags.excl = true ↔ req.copyFlags &&& LOOPY_FS_COPY_EXCL ≠ 0 :=
        decide_eq_true_iff
      rcases fs.openPath_trunc req.newPath req.dstFlags o.openDest rfl rfl with
        ⟨e, hdest, hnot⟩ | ⟨j, fs', houtcome', hexclusive, hdest, hname, hempty, hothers, hsame⟩
      · rw [hdest]
        exact .inl ⟨_, rfl, rfl, hclosed e,
          fun i h => hnot ⟨h.openDest, fun hflag => h.exclusive (hexcl.mp hflag)⟩⟩
      · rw [hdest]
        exact .inr ⟨i, j, fs', ⟨hcancelled, houtcome, hpath, hfstat, houtcome',
          fun hflag => hexclusive (hexcl.mpr hflag)⟩, hname, hempty, hothers, hsame _ _ hpath, rfl⟩

/-- A copy is faithful, unless it empties the file that it copies to itself, or a write is short
while `errno` is 0. -/
theorem copyfile_faithful_iff :
    CopyLaw req fs (fsWorkCopyfile o req fs) ↔ Careful o req fs := by
  rcases fsWorkCopyfile_cases o req fs with
    ⟨req', hwork, hfailed, herrno, hnot⟩ |
      ⟨i, j, fs', hopens, hname, hempty, hothers, hsame, hwork⟩
  · rw [hwork]
    refine iff_of_true ⟨fun req'' h hresult => ?_, fun _ j hj => ⟨hj, rfl⟩, fun req'' h _ => ?_⟩
      fun i hopens => absurd hopens (hnot i)
    all_goals obtain rfl := Option.some.inj h
    · rw [hfailed] at hresult
      cases hresult
    · exact ⟨hfailed, herrno⟩
  · rw [hwork]
    by_cases hij : i = j
    · subst hij
      exact samefile_law_iff hopens (hsame.mp rfl) hname hempty
    · exact Copied.law_iff (copyLoop_start o.turns rfl hij (hothers i hij) hempty) hopens hname hij
        hothers (hsame.not.mp hij)

/-- A copy ends after at most one turn for each byte, and one for the end of the source. -/
theorem copyfile_ends
    (henough : ∀ i, fs.inode req.path = some i → (fs.data i).length < o.turns.length) :
    (fsWorkCopyfile o req fs).1.isSome := by
  rcases fsWorkCopyfile_cases o req fs with
    ⟨req', hwork, -⟩ | ⟨i, j, fs', hopens, hname, hempty, hothers, hsame, hwork⟩
  · rw [hwork]
    rfl
  · rw [hwork]
    have henough := henough i hopens.source
    by_cases hij : i = j
    · subst hij
      cases hturns : o.turns with
      | nil =>
        rw [hturns] at henough
        exact absurd henough (Nat.not_lt_zero _)
      | cons turn turns =>
        rw [copyLoop_empty hempty]
        split <;> rfl
    · exact Copied.enough (copyLoop_start o.turns rfl hij (hothers i hij) hempty) henough

/-- `true` and `false` are names of one file with one byte, and there is another empty file. -/
def linkedFiles : FileSystem (Option Bool) where
  inode path := if path.isSome then some 0 else some 1
  data i := if i = 0 then [7] else []
  next := 2
  inode_lt := by
    intro path i hi
    rcases path with _ | path
    all_goals
      obtain rfl := Option.some.inj hi
      decide

/-- The calls succeed, and `errno` is 0; the writes take at most `taken` bytes. -/
def noError (taken : ℕ) : Outcomes where
  openSource := none
  fstat := none
  openDest := none
  close := none
  turns := [⟨.ok 65536, .ok taken⟩, ⟨.ok 65536, .ok taken⟩]
  errno := 0

/-- A file is copied to another name of it; and to another file, with a write that is short. -/
theorem copyfile_not_faithful :
    (∀ req ∈ loopyFSCopyfile (some (some true)) (some (some false)) 0,
        ¬ CopyLaw req linkedFiles (fsWorkCopyfile (noError 65536) req linkedFiles)) ∧
      ∀ req ∈ loopyFSCopyfile (some (some true)) (some none) 0,
        ¬ CopyLaw req linkedFiles (fsWorkCopyfile (noError 0) req linkedFiles) := by
  constructor
  · intro req hreq hlaw
    obtain rfl := Option.some.inj hreq
    obtain ⟨i, j, hsource, -, -, hdata⟩ := hlaw.copied _ rfl rfl
    obtain rfl := Option.some.inj hsource
    exact List.cons_ne_nil _ _ hdata.symm
  · intro req hreq hlaw
    obtain rfl := Option.some.inj hreq
    exact (hlaw.failed _ rfl (by decide)).2 rfl

end request

end Loopy.FS
