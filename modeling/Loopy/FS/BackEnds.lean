import Loopy.FS.Basic

/-!
# The two back ends of a file request

Both back ends come down to one outcome of a system call: the ring's for the length and the offset
that its entry has, the thread's for those of the request. What the callback gets is the same
exactly if the outcomes and the states are, and the outcome is not an error, which the ring passes
on as it is. `backends_agree` says when that is so.
-/

namespace Loopy.FS

open Loopy.EventLoop

variable {σ : Type} (K : SystemCalls σ)

/-! ## The law -/

/-- A value fits in an `int` (a transfer ends at 0x7ffff000 bytes), and a number is positive. -/
def Outcome.Fits : Outcome → Prop
  | ok value => value < 2 ^ 31
  | error errno => 0 < errno

/-- What the system calls document: what they return fits, and a read of at least one byte that
returns 0 is at the end of the file. -/
structure SystemCalls.Documented : Prop where
  openat : ∀ dirfd path flags mode s, (K.openat dirfd path flags mode s).1.Fits
  close : ∀ fd s, (K.close fd s).1.Fits
  read : ∀ fd buf len s, (K.read fd buf len s).1.Fits
  pread : ∀ fd buf len offset s, (K.pread fd buf len offset s).1.Fits
  write : ∀ fd buf len s, (K.write fd buf len s).1.Fits
  pwrite : ∀ fd buf len offset s, (K.pwrite fd buf len offset s).1.Fits
  fsync : ∀ fd s, (K.fsync fd s).1.Fits
  fdatasync : ∀ fd s, (K.fdatasync fd s).1.Fits
  read_end : ∀ fd buf len s, 0 < len → (K.read fd buf len s).1 = .ok 0 → K.atEnd fd none s
  pread_end : ∀ fd buf len offset s, 0 < len → (K.pread fd buf len offset s).1 = .ok 0 →
    K.atEnd fd (some offset) s

/-- Where a request reads. -/
def LoopyFSRequest.position (req : LoopyFSRequest) : Option Int64 :=
  if req.offset ≥ 0 then some req.offset else none

/-- The back ends give the callback the same, and what the header documents. -/
structure BackEndLaw (req : LoopyFSRequest) (s : σ) : Prop where
  same : ∀ opId, fsRunAsync K true opId req s = fsRunAsync K false 0 req s
  failed : ∀ uring opId, (fsRunAsync K uring opId req s).result < 0 →
    (fsRunAsync K uring opId req s).result = -1
  atEnd : req.type = .READ → ∀ uring opId, (fsRunAsync K uring opId req s).result = 0 →
    K.atEnd req.fd req.position s

/-- The request with the length that an entry has. -/
def LoopyFSRequest.narrow (req : LoopyFSRequest) : LoopyFSRequest :=
  { req with len := req.len.toUInt32.toUInt64 }

/-- The request transfers bytes. -/
def LoopyFSRequest.transfers (req : LoopyFSRequest) : Prop := req.type = .READ ∨ req.type = .WRITE

/-- The condition on a request and a state: the system call does not fail but with `EPERM`, and
does for the length modulo 2^32 what it does for the length; no offset is below -1. -/
structure Alike (req : LoopyFSRequest) (s : σ) : Prop where
  errno : ∀ e, (systemCall K req s).1 = .error e → e = EPERM
  offset : req.transfers → -1 ≤ req.offset
  len : systemCall K req.narrow s = systemCall K req s

/-! ## The outcome of the ring -/

variable {K} {req : LoopyFSRequest} {s : σ}

theorem toInt_eq (x : Int64) :
    x.toInt = if 2 * x.toUInt64.toNat < 2 ^ 64 then (x.toUInt64.toNat : ℤ)
      else (x.toUInt64.toNat : ℤ) - 2 ^ 64 :=
  BitVec.toInt_eq_toNat_cond x.toBitVec

section transfer

variable {current : UInt64 → σ → Outcome × σ} {positioned : UInt64 → Int64 → σ → Outcome × σ}
  {len : UInt32} {offset : Int64}

theorem transfer_current (h : offset = -1) :
    transfer current positioned len offset.toUInt64 s = current len.toUInt64 s := by
  subst h
  rfl

theorem transfer_positioned (h : 0 ≤ offset) :
    transfer current positioned len offset.toUInt64 s = positioned len.toUInt64 offset s := by
  have hint := toInt_eq offset
  have hnonneg : 0 ≤ offset.toInt := Int64.le_iff_toInt_le.mp h
  have hlt : offset.toUInt64.toNat < 2 ^ 63 := by
    have hsize := offset.toUInt64.toNat_lt
    split at hint <;> omega
  unfold transfer
  rw [if_neg, if_neg, Int64.toInt64_toUInt64]
  · intro hge
    have hge := UInt64.le_iff_toNat_le.mp hge
    have hbit : (0x8000000000000000 : UInt64).toNat = 2 ^ 63 := rfl
    omega
  · intro heq
    rw [heq] at hlt
    exact absurd hlt (by decide)

theorem transfer_negative (h : offset < -1) :
    transfer current positioned len offset.toUInt64 s = (.error EINVAL, s) := by
  have hint := toInt_eq offset
  have hneg : offset.toInt < -1 := Int64.lt_iff_toInt_lt.mp h
  have hlt : offset.toUInt64.toNat < 2 ^ 64 := offset.toUInt64.toNat_lt
  have hle : 2 ^ 63 ≤ offset.toUInt64.toNat := by
    split at hint <;> omega
  unfold transfer
  rw [if_neg, if_pos]
  · exact UInt64.le_iff_toNat_le.mpr hle
  · intro heq
    rw [heq] at hint
    have hmax : (0xFFFFFFFFFFFFFFFF : UInt64).toNat = 2 ^ 64 - 1 := rfl
    rw [hmax] at hint
    split at hint <;> omega

end transfer

/-- The ring makes the system call for the length modulo 2^32. -/
theorem execute_sqe (h : req.transfers → -1 ≤ req.offset) (id : ℕ) :
    execute K (req.sqe id) s = systemCall K req.narrow s := by
  have hoffset : req.transfers → 0 ≤ req.offset ∨ ¬ 0 ≤ req.offset ∧ req.offset = -1 := by
    intro htransfers
    have hle := Int64.le_iff_toInt_le.mp (h htransfers)
    by_cases hnonneg : 0 ≤ req.offset
    · exact Or.inl hnonneg
    · have hneg : ¬ (0 : Int64).toInt ≤ req.offset.toInt := fun hc =>
        hnonneg (Int64.le_iff_toInt_le.mpr hc)
      refine Or.inr ⟨hnonneg, Int64.toInt_inj.mp ?_⟩
      have hzero : (0 : Int64).toInt = 0 := rfl
      have hone : (-1 : Int64).toInt = -1 := rfl
      omega
  unfold systemCall LoopyFSRequest.sqe LoopyFSRequest.narrow
  dsimp only
  cases htype : req.type with
  | OPEN => rfl
  | CLOSE => rfl
  | READ =>
    dsimp only
    rcases hoffset (Or.inl htype) with hpos | ⟨hneg, hone⟩
    · rw [if_pos hpos]
      exact transfer_positioned hpos
    · rw [if_neg hneg]
      exact transfer_current hone
  | WRITE =>
    dsimp only
    rcases hoffset (Or.inr htype) with hpos | ⟨hneg, hone⟩
    · rw [if_pos hpos]
      exact transfer_positioned hpos
    · rw [if_neg hneg]
      exact transfer_current hone
  | FSYNC => rfl
  | FDATASYNC => rfl

/-- The ring refuses an offset below -1. -/
theorem execute_sqe_negative (htransfers : req.transfers) (h : req.offset < -1) (id : ℕ) :
    execute K (req.sqe id) s = (.error EINVAL, s) := by
  unfold LoopyFSRequest.sqe
  rcases htransfers with htype | htype
  · rw [htype]
    exact transfer_negative h
  · rw [htype]
    exact transfer_negative h

/-! ## What the callback gets -/

theorem systemCall_fits (hK : K.Documented) (req : LoopyFSRequest) (s : σ) :
    (systemCall K req s).1.Fits := by
  unfold systemCall
  cases req.type with
  | OPEN => exact hK.openat ..
  | CLOSE => exact hK.close ..
  | READ =>
    dsimp only
    split
    · exact hK.pread ..
    · exact hK.read ..
  | WRITE =>
    dsimp only
    split
    · exact hK.pwrite ..
    · exact hK.write ..
  | FSYNC => exact hK.fsync ..
  | FDATASYNC => exact hK.fdatasync ..

/-- What the callback gets for an outcome, when a failure is passed on as `failure`. -/
def served (req : LoopyFSRequest) (failure : ℕ → ℤ) : Outcome × σ → Served σ
  | (.ok value, t) => ⟨req.cb, value, 0, req.userData, t⟩
  | (.error errno, t) => ⟨req.cb, failure errno, errno, req.userData, t⟩

/-- The callback of a thread. -/
theorem runWork_eq (hcancelled : req.cancelled = false) (herrno : req.savedErrno = 0) :
    runWork K req s = served req (fun _ => -1) (systemCall K req s) := by
  unfold runWork fsWorkCallback
  rw [if_neg (by rw [hcancelled]; exact Bool.false_ne_true)]
  obtain ⟨outcome, t⟩ := systemCall K req s
  cases outcome with
  | ok value =>
    unfold served
    rw [← herrno]
    rfl
  | error errno => rfl

/-- The callback of the ring. -/
theorem runIoUring_eq (herrno : req.savedErrno = 0) {id : ℕ}
    (hfits : (execute K (req.sqe id) s).1.Fits) :
    runIoUring K req id s = served req (fun e => -e) (execute K (req.sqe id) s) := by
  unfold runIoUring
  generalize execute K (req.sqe id) s = x at hfits
  obtain ⟨outcome, t⟩ := x
  cases outcome with
  | ok value =>
    have hlt : value < 2 ^ 31 := hfits
    have hres : Outcome.res (.ok value) = value := by
      unfold Outcome.res wrapInt
      dsimp only
      omega
    unfold served
    dsimp only
    rw [hres, ← herrno]
    unfold fsIoUringCompletionCallback
    rw [if_neg (by omega)]
    rfl
  | error errno =>
    have hpos : 0 < errno := hfits
    have hneg : (-(errno : ℤ)) < 0 := by omega
    have hnat : (- -(errno : ℤ)).toNat = errno := by omega
    unfold fsIoUringCompletionCallback Outcome.res
    dsimp only
    rw [if_pos hneg, hnat]
    rfl

/-- The callbacks get the same for the same outcome, unless it is passed on in two ways. -/
theorem served_eq_iff {x y : Outcome × σ} (hx : x.1.Fits) :
    served req (fun e => -e) x = served req (fun _ => -1) y ↔
      x = y ∧ ∀ e, y.1 = .error e → e = EPERM := by
  obtain ⟨o, t⟩ := x
  obtain ⟨o', t'⟩ := y
  unfold EPERM
  cases o with
  | ok v =>
    cases o' with
    | ok v' => simp [served]
    | error e' =>
      constructor
      · intro h
        have hresult : (v : ℤ) = -1 := congrArg Served.result h
        omega
      · rintro ⟨h, -⟩
        cases h
  | error e =>
    have hpos : 0 < e := hx
    cases o' with
    | ok v' =>
      constructor
      · intro h
        have hresult : -(e : ℤ) = v' := congrArg Served.result h
        omega
      · rintro ⟨h, -⟩
        cases h
    | error e' =>
      constructor
      · intro h
        have hresult : -(e : ℤ) = -1 := congrArg Served.result h
        have herrno : e = e' := congrArg Served.savedErrno h
        have hstate : t = t' := congrArg Served.state h
        refine ⟨by rw [herrno, hstate], fun k hk => ?_⟩
        cases hk
        omega
      · rintro ⟨h, hone⟩
        cases h
        rw [hone e rfl]
        rfl

/-! ## The theorem -/

/-- The requests of the calls are neither cancelled nor failed, and transfer at least one byte. -/
structure Fresh (req : LoopyFSRequest) : Prop where
  cancelled : req.cancelled = false
  savedErrno : req.savedErrno = 0
  len : req.transfers → 0 < req.len

variable {type : LoopyFSType} {fd : Int32} {cb userData : ℕ}

theorem fresh_fdRequest (htype : type ≠ .READ ∧ type ≠ .WRITE)
    (h : fdRequest type fd cb userData = some req) : Fresh req := by
  unfold fdRequest at h
  split at h
  · cases h
  · cases h
    exact ⟨rfl, rfl, fun hc => absurd hc (not_or.mpr htype)⟩

theorem fresh_transferRequest {buf : ℕ} {len : UInt64} {offset : Int64}
    (h : transferRequest type fd buf len offset cb userData = some req) : Fresh req := by
  unfold transferRequest at h
  split at h
  · cases h
  case isFalse hvalid =>
    cases h
    refine ⟨rfl, rfl, fun _ => ?_⟩
    have hne : len ≠ 0 := fun hc => hvalid (Or.inr (Or.inr hc))
    exact UInt64.pos_iff_ne_zero.mpr hne

theorem fresh_request {call : Call} (h : call.request cb userData = some req) : Fresh req := by
  cases call with
  | «open» path flags mode =>
    unfold Call.request loopyFSOpen at h
    dsimp only at h
    split at h
    · cases h
    · cases h
      exact ⟨rfl, rfl, by rintro (h | h) <;> cases h⟩
  | close fd => exact fresh_fdRequest (by decide) h
  | read fd buf len offset => exact fresh_transferRequest h
  | write fd buf len offset => exact fresh_transferRequest h
  | fsync fd => exact fresh_fdRequest (by decide) h
  | fdatasync fd => exact fresh_fdRequest (by decide) h

/-- A thread gives the callback what the header documents. -/
theorem work_documented (hK : K.Documented) (h : Fresh req) (s : σ) :
    ((runWork K req s).result < 0 → (runWork K req s).result = -1) ∧
      (req.type = .READ → (runWork K req s).result = 0 → K.atEnd req.fd req.position s) := by
  rw [runWork_eq h.cancelled h.savedErrno]
  constructor
  · intro hneg
    generalize systemCall K req s = x at hneg ⊢
    rcases x with ⟨value | errno, t⟩
    · have hvalue : (value : ℤ) < 0 := hneg
      omega
    · rfl
  · intro htype hzero
    have hok : (systemCall K req s).1 = .ok 0 := by
      rcases hcall : systemCall K req s with ⟨value | errno, t⟩
      · rw [hcall] at hzero
        have hvalue : (value : ℤ) = 0 := hzero
        obtain rfl : value = 0 := by omega
        rfl
      · rw [hcall] at hzero
        cases hzero
    have hlen := h.len (Or.inl htype)
    unfold systemCall at hok
    rw [htype] at hok
    unfold LoopyFSRequest.position
    dsimp only at hok
    by_cases hoffset : req.offset ≥ 0
    · rw [if_pos hoffset] at hok ⊢
      exact hK.pread_end _ _ _ _ _ hlen hok
    · rw [if_neg hoffset] at hok ⊢
      exact hK.read_end _ _ _ _ hlen hok

/-- What the ring gives the callback is what a thread gives it. -/
theorem same_iff (hK : K.Documented) (h : Fresh req) (id : ℕ) :
    runIoUring K req id s = runWork K req s ↔ Alike K req s := by
  rw [runWork_eq h.cancelled h.savedErrno]
  by_cases hoffset : req.transfers → -1 ≤ req.offset
  · have hexec : execute K (req.sqe id) s = systemCall K req.narrow s := execute_sqe hoffset id
    have hfits : (execute K (req.sqe id) s).1.Fits := by
      rw [hexec]
      exact systemCall_fits hK ..
    rw [runIoUring_eq h.savedErrno hfits, served_eq_iff hfits, hexec]
    constructor
    · rintro ⟨hlen, herrno⟩
      exact ⟨herrno, hoffset, hlen⟩
    · intro halike
      exact ⟨halike.len, halike.errno⟩
  · -- the ring refuses the offset, and a thread takes it for the current position
    obtain ⟨htransfers, hneg⟩ := Classical.not_imp.mp hoffset
    have hexec : execute K (req.sqe id) s = (.error EINVAL, s) :=
      execute_sqe_negative htransfers (Int64.not_le.mp hneg) id
    have hfits : (execute K (req.sqe id) s).1.Fits := by
      rw [hexec]
      exact (by decide : 0 < EINVAL)
    rw [runIoUring_eq h.savedErrno hfits, served_eq_iff hfits, hexec]
    constructor
    · rintro ⟨heq, herrno⟩
      exact absurd (herrno EINVAL (by rw [← heq])) (by decide)
    · intro halike
      exact absurd halike.offset hoffset

/-- The mark of the back end is not read. -/
theorem runWork_using (req : LoopyFSRequest) (uring : Bool) (s : σ) :
    runWork K { req with usingIoUring := uring } s = runWork K req s := by
  have hcall : systemCall K { req with usingIoUring := uring } s = systemCall K req s := rfl
  unfold runWork fsWorkCallback
  rw [hcall]
  dsimp only
  split
  · rfl
  · rcases systemCall K req s with ⟨value | errno, t⟩ <;> rfl

theorem runIoUring_using (req : LoopyFSRequest) (uring : Bool) (id : ℕ) (s : σ) :
    runIoUring K { req with usingIoUring := uring } id s = runIoUring K req id s := by
  have hsqe : LoopyFSRequest.sqe { req with usingIoUring := uring } id = req.sqe id := rfl
  unfold runIoUring fsIoUringCompletionCallback
  rw [hsqe]
  dsimp only
  split <;> rfl

/-- **The back ends agree** on a request in a state exactly if the system call does not fail but
with `EPERM` and does for the length modulo 2^32 what it does for the length, and a transfer has no
offset below -1. -/
theorem backends_agree (hK : K.Documented) {call : Call} {cb userData : ℕ}
    (hreq : call.request cb userData = some req) (s : σ) : BackEndLaw K req s ↔ Alike K req s := by
  have hfresh := fresh_request hreq
  obtain ⟨hfailed, hend⟩ := work_documented hK hfresh s
  have hwork : ∀ opId, fsRunAsync K false opId req s = runWork K req s := by
    intro opId
    unfold fsRunAsync
    rw [if_neg (by simp)]
    exact runWork_using req false s
  constructor
  · intro hlaw
    rw [← same_iff hK hfresh 1, ← hwork 0, ← hlaw.same 1]
    exact (runIoUring_using req true 1 s).symm
  · intro halike
    have hsame : ∀ uring opId, fsRunAsync K uring opId req s = runWork K req s := by
      intro uring opId
      unfold fsRunAsync
      split
      · rw [runIoUring_using]
        exact (same_iff hK hfresh opId).mpr halike
      · exact runWork_using req false s
    refine ⟨fun opId => ?_, fun uring opId => ?_, fun htype uring opId => ?_⟩
    · rw [hsame, hsame]
    · rw [hsame]
      exact hfailed
    · rw [hsame]
      exact hend htype

/-! ## A file -/

/-- An open file with the descriptor 3, and a buffer of the program. -/
structure File where
  data : List UInt8
  pos : ℕ
  buffer : List UInt8
deriving DecidableEq, Repr

namespace File

/-- A call on a descriptor that is not open fails with `EBADF`. -/
def onOpen (fd : Int32) (f : File) (call : Outcome × File) : Outcome × File :=
  if fd = 3 then call else (.error 9, f)

/-- The bytes from a position on. -/
def readAt (f : File) (pos : ℕ) (len : UInt64) : List UInt8 :=
  (f.data.drop pos).take (min len.toNat 0x7ffff000)

/-- The bytes that a write takes. -/
def taken (f : File) (len : UInt64) : List UInt8 := f.buffer.take (min len.toNat 0x7ffff000)

/-- The file with bytes written at a position. -/
def writeAt (f : File) (pos : ℕ) (bytes : List UInt8) : File :=
  { f with data := f.data.take pos ++ bytes ++ f.data.drop (pos + bytes.length) }

/-- The system calls on the file. -/
def calls : SystemCalls File where
  openat _ _ _ _ f := (.ok 3, { f with pos := 0 })
  close fd f := f.onOpen fd (.ok 0, f)
  read fd _ len f :=
    let bytes := f.readAt f.pos len
    f.onOpen fd (.ok bytes.length, { f with pos := f.pos + bytes.length, buffer := bytes })
  pread fd _ len offset f :=
    let bytes := f.readAt offset.toInt.toNat len
    if offset < 0 then (.error EINVAL, f)
    else f.onOpen fd (.ok bytes.length, { f with buffer := bytes })
  write fd _ len f :=
    let bytes := f.taken len
    f.onOpen fd
      (.ok bytes.length, { f.writeAt f.pos bytes with pos := f.pos + bytes.length })
  pwrite fd _ len offset f :=
    let bytes := f.taken len
    if offset < 0 then (.error EINVAL, f)
    else f.onOpen fd (.ok bytes.length, f.writeAt offset.toInt.toNat bytes)
  fsync fd f := f.onOpen fd (.ok 0, f)
  fdatasync fd f := f.onOpen fd (.ok 0, f)
  atEnd _ offset f := f.data.length ≤ (offset.map fun o => o.toInt.toNat).getD f.pos

variable {fd : Int32} {f : File}

theorem fits_onOpen {call : Outcome × File} (h : call.1.Fits) : (f.onOpen fd call).1.Fits := by
  unfold onOpen
  split
  · exact h
  · exact (by decide : 0 < 9)

theorem length_readAt (f : File) (pos : ℕ) (len : UInt64) : (f.readAt pos len).length < 2 ^ 31 := by
  unfold readAt
  rw [List.length_take]
  omega

theorem length_taken (f : File) (len : UInt64) : (f.taken len).length < 2 ^ 31 := by
  unfold taken
  rw [List.length_take]
  omega

/-- A read of at least one byte that gets none is at the end. -/
theorem end_of_readAt {g : File} {pos : ℕ} {len : UInt64} (hlen : 0 < len)
    (h : (f.onOpen fd (.ok (f.readAt pos len).length, g)).1 = .ok 0) : f.data.length ≤ pos := by
  unfold onOpen at h
  split at h
  · have hzero : (f.readAt pos len).length = 0 := Outcome.ok.inj h
    have hpos : 0 < len.toNat := UInt64.lt_iff_toNat_lt.mp hlen
    unfold readAt at hzero
    rw [List.length_take, List.length_drop] at hzero
    omega
  · cases h

theorem documented : calls.Documented where
  openat _ _ _ _ _ := (by decide : 3 < 2 ^ 31)
  close _ _ := fits_onOpen (by decide : 0 < 2 ^ 31)
  read _ _ len f := fits_onOpen (f.length_readAt f.pos len)
  pread fd buf len offset f := by
    unfold calls
    dsimp only
    split
    · exact (by decide : 0 < EINVAL)
    · exact fits_onOpen (f.length_readAt _ len)
  write _ _ len f := fits_onOpen (f.length_taken len)
  pwrite fd buf len offset f := by
    unfold calls
    dsimp only
    split
    · exact (by decide : 0 < EINVAL)
    · exact fits_onOpen (f.length_taken len)
  fsync _ _ := fits_onOpen (by decide : 0 < 2 ^ 31)
  fdatasync _ _ := fits_onOpen (by decide : 0 < 2 ^ 31)
  read_end _ _ _ _ hlen h := end_of_readAt hlen h
  pread_end fd buf len offset f hlen h := by
    unfold calls at h
    dsimp only at h
    split at h
    · cases h
    · exact end_of_readAt hlen h

end File

/-- A file of two bytes. -/
def hello : File := ⟨[104, 105], 0, []⟩

/-- A request to read from a descriptor. -/
def readRequest (fd : Int32) (len : UInt64) (offset : Int64) : LoopyFSRequest :=
  { type := .READ, cb := 7, userData := 70, fd := fd, buf := 100, len := len, offset := offset }

theorem backends_agree_hello :
    BackEndLaw File.calls (readRequest 3 5 (-1)) hello ∧
      fsRunAsync File.calls true 1 (readRequest 3 5 (-1)) hello =
        ⟨7, 2, 0, 70, ⟨[104, 105], 2, [104, 105]⟩⟩ := by
  have hcall : Call.request 7 70 (.read 3 100 5 (-1)) = some (readRequest 3 5 (-1)) := rfl
  refine ⟨(backends_agree File.documented hcall hello).mpr ?_, by decide⟩
  refine ⟨fun e he => ?_, fun _ => by decide, by decide⟩
  have hok : (systemCall File.calls (readRequest 3 5 (-1)) hello).1 = .ok 2 := by decide
  cases hok.symm.trans he

/-- A failure is -9 from the ring; a read of 2^32 bytes gets none there; an offset of -2 is
refused there. -/
theorem backends_disagree :
    ¬ BackEndLaw File.calls (readRequest 7 5 0) hello ∧
      ¬ BackEndLaw File.calls (readRequest 3 0x100000000 0) hello ∧
      ¬ BackEndLaw File.calls (readRequest 3 5 (-2)) hello := by
  refine ⟨fun h => ?_, fun h => ?_, fun h => ?_⟩
  · exact absurd (congrArg Served.result (h.same 1)) (by decide)
  · exact absurd (congrArg Served.result (h.same 1)) (by decide)
  · exact absurd (congrArg Served.result (h.same 1)) (by decide)

end Loopy.FS
