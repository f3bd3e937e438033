import Loopy.FS.Basic

/-!
# `loopyFS.c`: the times of a file

The requests `LOOPY_FS_UTIME`, `LOOPY_FS_LUTIME` and `LOOPY_FS_FUTIME`. Their system calls either
set both times to given ones or, with a null pointer, both to the current time. The file is the one
that the path, the link or the descriptor stands for; its times are nanoseconds, and it can store
any time. What the clock shows, what the memory of `times` holds before it is set, and an error of
the system call are inputs. `utimeOK_iff_request` leads from the three functions to `utimeRequest`,
which leaves out which file it is.

A time that is to stay as it is has no such call: `times` keeps what the memory held, or both times
become the current one. `utimeOK_iff` says that a request is served right exactly if no time is to
stay, or if the other one is refused.
-/

namespace Loopy.FS

/-! ## Times -/

/-- `loopyFSTimespec`. -/
structure LoopyFSTimespec where
  sec : Int64
  nsec : Int64 := 0
deriving DecidableEq

/-- `LOOPY_FS_UTIME_NOW`. -/
def LOOPY_FS_UTIME_NOW : Int64 := -1

/-- `LOOPY_FS_UTIME_OMIT`. -/
def LOOPY_FS_UTIME_OMIT : Int64 := -2

/-- `struct timeval`. -/
structure Timeval where
  tv_sec : Int64
  tv_usec : Int64
deriving DecidableEq

/-- In nanoseconds. -/
def LoopyFSTimespec.time (ts : LoopyFSTimespec) : ℤ := ts.sec.toInt * 1000000000 + ts.nsec.toInt

/-- In nanoseconds. -/
def Timeval.time (tv : Timeval) : ℤ := tv.tv_sec.toInt * 1000000000 + tv.tv_usec.toInt * 1000

/-- The system calls refuse other microseconds. -/
def Timeval.Valid (tv : Timeval) : Prop := 0 ≤ tv.tv_usec.toInt ∧ tv.tv_usec.toInt < 1000000

instance (tv : Timeval) : Decidable tv.Valid :=
  inferInstanceAs (Decidable (_ ∧ _))

/-- The times of a file. -/
structure FileTimes where
  atime : ℤ
  mtime : ℤ
deriving DecidableEq

/-- What a request meets: the two readings of `gettimeofday`, the time of the kernel, what the
memory of `times` holds, and an error of the system call, if there is one. -/
structure Environment where
  atimeNow : Timeval
  mtimeNow : Timeval
  kernelNow : ℤ
  unset : Timeval × Timeval
  error : Option ℕ
  atimeNow_valid : atimeNow.Valid
  mtimeNow_valid : mtimeNow.Valid

/-- `utimes`, `lutimes` and `futimes`. -/
def Environment.setTimes (env : Environment) (tp : Option (Timeval × Timeval)) :
    Except ℕ FileTimes :=
  match env.error with
  | some e => .error e
  | none =>
    match tp with
    | none => .ok { atime := env.kernelNow, mtime := env.kernelNow }
    | some (a, m) =>
      if a.Valid ∧ m.Valid then .ok { atime := a.time, mtime := m.time } else .error EINVAL

/-! ## Requests -/

/-- `loopyFSType`, as far as it sets times. -/
inductive UtimeType
  | UTIME
  | LUTIME
  | FUTIME
deriving DecidableEq, Repr

/-- The fields of `loopyFSRequest` that these requests use. -/
structure UtimeRequest where
  type : UtimeType
  path : ℕ := 0
  fd : Int32 := -1
  atime : LoopyFSTimespec
  mtime : LoopyFSTimespec
  result : ℤ := -1
  savedErrno : ℕ := 0
  errorString : Option (String × ℕ) := none
  cancelled : Bool := false
deriving DecidableEq

/-- A time of the caller's; a null pointer stands for the current time. -/
def timeOrNow (ts : Option LoopyFSTimespec) : LoopyFSTimespec :=
  ts.getD { sec := LOOPY_FS_UTIME_NOW }

/-- `loopyFSUtime`, up to `fsRunSync` or `fsRunAsync`. -/
def loopyFSUtime (path : ℕ) (atime mtime : Option LoopyFSTimespec) : Option UtimeRequest :=
  if path = 0 then none
  else some { type := .UTIME, path := path, atime := timeOrNow atime, mtime := timeOrNow mtime }

/-- `loopyFSFutime`, up to `fsRunSync` or `fsRunAsync`. -/
def loopyFSFutime (fd : Int32) (atime mtime : Option LoopyFSTimespec) : Option UtimeRequest :=
  if fd < 0 then none
  else some { type := .FUTIME, fd := fd, atime := timeOrNow atime, mtime := timeOrNow mtime }

/-- `loopyFSLutime`, up to `fsRunSync` or `fsRunAsync`. -/
def loopyFSLutime (path : ℕ) (atime mtime : Option LoopyFSTimespec) : Option UtimeRequest :=
  if path = 0 then none
  else some { type := .LUTIME, path := path, atime := timeOrNow atime, mtime := timeOrNow mtime }

/-- One entry of `times`: the clock, the time of the request, or what was there. -/
def setEntry (ts : LoopyFSTimespec) (now unset : Timeval) : Timeval :=
  if ts.sec = LOOPY_FS_UTIME_NOW then now
  else if ts.sec ≠ LOOPY_FS_UTIME_OMIT then { tv_sec := ts.sec, tv_usec := ts.nsec / 1000 }
  else unset

/-- `tp`, which is computed by the same lines for the calls by name and for the one by
descriptor. -/
def UtimeRequest.tp (req : UtimeRequest) (env : Environment) : Option (Timeval × Timeval) :=
  if req.atime.sec ≠ LOOPY_FS_UTIME_OMIT ∨ req.mtime.sec ≠ LOOPY_FS_UTIME_OMIT then
    some (setEntry req.atime env.atimeNow env.unset.1, setEntry req.mtime env.mtimeNow env.unset.2)
  else none

/-- The system call and its result. -/
def UtimeRequest.finish (req : UtimeRequest) (env : Environment) (field : String)
    (file : FileTimes) : UtimeRequest × FileTimes :=
  match env.setTimes (req.tp env) with
  | .ok file => ({ req with result := 0 }, file)
  | .error e =>
    ({ req with result := -1, savedErrno := e, errorString := some (field, e) }, file)

/-- `fsWorkCallback` for the three types. -/
def fsWorkUtime (req : UtimeRequest) (env : Environment) (file : FileTimes) :
    UtimeRequest × FileTimes :=
  if req.cancelled then ({ req with savedErrno := ECANCELED, result := -1 }, file)
  else
    match req.type with
    | .UTIME => req.finish env "utimes" file
    | .LUTIME => req.finish env "lutimes" file
    | .FUTIME => req.finish env "futimes" file

/-- The function that makes the requests of a type. -/
def UtimeType.request (type : UtimeType) (path : ℕ) (fd : Int32)
    (atime mtime : Option LoopyFSTimespec) : Option UtimeRequest :=
  match type with
  | .UTIME => loopyFSUtime path atime mtime
  | .LUTIME => loopyFSLutime path atime mtime
  | .FUTIME => loopyFSFutime fd atime mtime

/-- The request of one of the three functions, with times that are given. -/
def utimeRequest (type : UtimeType) (atime mtime : LoopyFSTimespec) : UtimeRequest :=
  { type := type, atime := atime, mtime := mtime }

/-! ## The law -/

/-- What becomes of one time: it stays, it is the time of the clock, or it is the one that was
asked for, to the microsecond. -/
def EntryOK (ts : LoopyFSTimespec) (old new : ℤ) (now : Timeval) : Prop :=
  if ts.sec = LOOPY_FS_UTIME_OMIT then new = old
  else if ts.sec = LOOPY_FS_UTIME_NOW then new = now.time
  else |new - ts.time| < 1000

/-- For every clock and whatever the memory holds: the times after a request that succeeds, and the
same result and times with each of the three functions. -/
structure UtimeOK (type : UtimeType) (atime mtime : LoopyFSTimespec) (file : FileTimes) : Prop where
  times : ∀ env, (fsWorkUtime (utimeRequest type atime mtime) env file).1.result = 0 →
    EntryOK atime file.atime (fsWorkUtime (utimeRequest type atime mtime) env file).2.atime
        env.atimeNow ∧
      EntryOK mtime file.mtime (fsWorkUtime (utimeRequest type atime mtime) env file).2.mtime
        env.mtimeNow
  alike : ∀ env type',
    (fsWorkUtime (utimeRequest type' atime mtime) env file).1.result =
        (fsWorkUtime (utimeRequest type atime mtime) env file).1.result ∧
      (fsWorkUtime (utimeRequest type' atime mtime) env file).2 =
        (fsWorkUtime (utimeRequest type atime mtime) env file).2

/-- An explicit time with nanoseconds that the system call refuses. -/
def LoopyFSTimespec.Refused (ts : LoopyFSTimespec) : Prop :=
  ts.sec ≠ LOOPY_FS_UTIME_NOW ∧ ts.sec ≠ LOOPY_FS_UTIME_OMIT ∧
    ¬(-1000 < ts.nsec.toInt ∧ ts.nsec.toInt < 1000000000)

/-! ## The calls -/

variable {type : UtimeType} {atime mtime ts : LoopyFSTimespec} {env : Environment}
  {file : FileTimes}

/-- Division of machine numbers rounds to zero. -/
theorem tdiv_thousand (n : ℤ) :
    (0 ≤ n → n - 1000 < n.tdiv 1000 * 1000 ∧ n.tdiv 1000 * 1000 ≤ n) ∧
      (n ≤ 0 → n ≤ n.tdiv 1000 * 1000 ∧ n.tdiv 1000 * 1000 < n + 1000) := by
  rw [Int.tdiv_eq_ediv]
  split
  · rename_i hn
    rw [Int.dvd_iff_emod_eq_zero] at hn
    omega
  · rename_i hn
    rw [not_or, Int.dvd_iff_emod_eq_zero] at hn
    have hsign : Int.sign 1000 = 1 := rfl
    omega

theorem toInt_div_thousand (n : Int64) : (n / 1000).toInt = n.toInt.tdiv 1000 := by
  rw [Int64.toInt_div_of_ne_right _ _ (by decide)]
  rfl

/-- Microseconds are exact to the microsecond. -/
theorem explicit_time (sec nsec : Int64) :
    |(Timeval.mk sec (nsec / 1000)).time - (LoopyFSTimespec.mk sec nsec).time| < 1000 := by
  obtain ⟨hpos, hneg⟩ := tdiv_thousand nsec.toInt
  rw [abs_lt, Timeval.time, LoopyFSTimespec.time]
  dsimp only
  rw [toInt_div_thousand]
  omega

theorem explicit_valid_iff (sec nsec : Int64) :
    (Timeval.mk sec (nsec / 1000)).Valid ↔ -1000 < nsec.toInt ∧ nsec.toInt < 1000000000 := by
  obtain ⟨hpos, hneg⟩ := tdiv_thousand nsec.toInt
  rw [Timeval.Valid]
  dsimp only
  rw [toInt_div_thousand]
  omega

/-- What is written for a time that is not to stay. -/
theorem entryOK_setEntry (hts : ts.sec ≠ LOOPY_FS_UTIME_OMIT) (old : ℤ) (now unset : Timeval) :
    EntryOK ts old (setEntry ts now unset).time now := by
  rw [EntryOK, if_neg hts, setEntry]
  by_cases hnow : ts.sec = LOOPY_FS_UTIME_NOW
  · rw [if_pos hnow, if_pos hnow]
  · rw [if_neg hnow, if_neg hnow, if_pos hts]
    exact explicit_time ts.sec ts.nsec

theorem LoopyFSTimespec.Refused.not_valid (h : ts.Refused) (now unset : Timeval) :
    ¬(setEntry ts now unset).Valid := by
  obtain ⟨hnow, homit, hnsec⟩ := h
  rw [setEntry, if_neg hnow, if_pos homit, explicit_valid_iff]
  exact hnsec

/-- A time that is neither refused nor to stay is one that the system call takes. -/
theorem setEntry_valid (hts : ¬ts.Refused) (homit : ts.sec ≠ LOOPY_FS_UTIME_OMIT) {now : Timeval}
    (hnow : now.Valid) (unset : Timeval) : (setEntry ts now unset).Valid := by
  rw [setEntry]
  by_cases hsec : ts.sec = LOOPY_FS_UTIME_NOW
  · rw [if_pos hsec]
    exact hnow
  · rw [if_neg hsec, if_pos homit, explicit_valid_iff]
    by_contra hnsec
    exact hts ⟨hsec, homit, hnsec⟩

theorem setEntry_omit (homit : ts.sec = LOOPY_FS_UTIME_OMIT) (now unset : Timeval) :
    setEntry ts now unset = unset := by
  have hne : ts.sec ≠ LOOPY_FS_UTIME_NOW := by
    rw [homit]
    decide
  rw [setEntry, if_neg hne, if_neg (not_not.mpr homit)]

/-- The three functions differ in the text of their errors only. -/
theorem fsWorkUtime_utimeRequest (type : UtimeType) (atime mtime : LoopyFSTimespec)
    (env : Environment) (file : FileTimes) :
    ∃ field, fsWorkUtime (utimeRequest type atime mtime) env file =
      (utimeRequest type atime mtime).finish env field file := by
  cases type with
  | UTIME => exact ⟨"utimes", rfl⟩
  | LUTIME => exact ⟨"lutimes", rfl⟩
  | FUTIME => exact ⟨"futimes", rfl⟩

variable {req : UtimeRequest} {times : FileTimes} {e path : ℕ} {fd : Int32} {a m : Timeval}

/-- What a request does depends on its times only. -/
theorem finish_congr {req' : UtimeRequest} (field field' : String) (h : req.tp env = req'.tp env) :
    (req.finish env field file).1.result = (req'.finish env field' file).1.result ∧
      (req.finish env field file).2 = (req'.finish env field' file).2 := by
  unfold UtimeRequest.finish
  rw [h]
  cases env.setTimes (req'.tp env) with
  | ok times => exact ⟨rfl, rfl⟩
  | error e => exact ⟨rfl, rfl⟩

/-- A request that succeeds sets the times. -/
theorem finish_ok (field : String) (h : env.setTimes (req.tp env) = .ok times) :
    (req.finish env field file).1.result = 0 ∧ (req.finish env field file).2 = times := by
  rw [UtimeRequest.finish, h]
  exact ⟨rfl, rfl⟩

/-- A request that fails leaves the times. -/
theorem finish_error (field : String) (h : env.setTimes (req.tp env) = .error e) :
    (req.finish env field file).1.result = -1 ∧ (req.finish env field file).2 = file := by
  rw [UtimeRequest.finish, h]
  exact ⟨rfl, rfl⟩

/-- A request ends as its system call does. -/
theorem fsWorkUtime_ok (type : UtimeType) (file : FileTimes)
    (h : env.setTimes ((utimeRequest type atime mtime).tp env) = .ok times) :
    (fsWorkUtime (utimeRequest type atime mtime) env file).1.result = 0 ∧
      (fsWorkUtime (utimeRequest type atime mtime) env file).2 = times := by
  obtain ⟨field, heq⟩ := fsWorkUtime_utimeRequest type atime mtime env file
  rw [heq]
  exact finish_ok field h

theorem fsWorkUtime_error (type : UtimeType) (file : FileTimes)
    (h : env.setTimes ((utimeRequest type atime mtime).tp env) = .error e) :
    (fsWorkUtime (utimeRequest type atime mtime) env file).1.result = -1 ∧
      (fsWorkUtime (utimeRequest type atime mtime) env file).2 = file := by
  obtain ⟨field, heq⟩ := fsWorkUtime_utimeRequest type atime mtime env file
  rw [heq]
  exact finish_error field h

/-- With each of the three functions the same becomes of the file. -/
theorem fsWorkUtime_alike (type type' : UtimeType) (atime mtime : LoopyFSTimespec)
    (env : Environment) (file : FileTimes) :
    (fsWorkUtime (utimeRequest type' atime mtime) env file).1.result =
        (fsWorkUtime (utimeRequest type atime mtime) env file).1.result ∧
      (fsWorkUtime (utimeRequest type' atime mtime) env file).2 =
        (fsWorkUtime (utimeRequest type atime mtime) env file).2 := by
  obtain ⟨field, heq⟩ := fsWorkUtime_utimeRequest type atime mtime env file
  obtain ⟨field', heq'⟩ := fsWorkUtime_utimeRequest type' atime mtime env file
  rw [heq, heq']
  exact finish_congr field' field rfl

/-- A request that one of the three functions makes does what `utimeRequest` does; a null pointer
stands for the current time. -/
theorem fsWorkUtime_request {atime mtime : Option LoopyFSTimespec}
    (h : type.request path fd atime mtime = some req) (env : Environment) (file : FileTimes) :
    (fsWorkUtime req env file).1.result =
        (fsWorkUtime (utimeRequest type (timeOrNow atime) (timeOrNow mtime)) env file).1.result ∧
      (fsWorkUtime req env file).2 =
        (fsWorkUtime (utimeRequest type (timeOrNow atime) (timeOrNow mtime)) env file).2 := by
  cases type with
  | UTIME | LUTIME | FUTIME =>
    obtain ⟨-, hreq⟩ := Option.ite_none_left_eq_some.mp h
    obtain rfl := Option.some.inj hreq
    exact finish_congr _ _ rfl

/-- The law of `utimeRequest` is the law of what the three functions ask for. -/
theorem utimeOK_iff_request {atime mtime : Option LoopyFSTimespec}
    (h : type.request path fd atime mtime = some req) :
    UtimeOK type (timeOrNow atime) (timeOrNow mtime) file ↔
      ∀ env, (fsWorkUtime req env file).1.result = 0 →
        EntryOK (timeOrNow atime) file.atime (fsWorkUtime req env file).2.atime env.atimeNow ∧
          EntryOK (timeOrNow mtime) file.mtime (fsWorkUtime req env file).2.mtime
            env.mtimeNow := by
  constructor
  · intro hok env hresult
    obtain ⟨hsame, hfile⟩ := fsWorkUtime_request h env file
    rw [hfile]
    exact hok.times env (hsame.symm.trans hresult)
  · intro hserved
    refine ⟨fun env hresult => ?_, fun env type' =>
      fsWorkUtime_alike type type' _ _ env file⟩
    obtain ⟨hsame, hfile⟩ := fsWorkUtime_request h env file
    rw [← hfile]
    exact hserved env (hsame.trans hresult)

/-! ## When a request is served right -/

/-- The pair, where one of the times is not to stay. -/
theorem tp_some (h : atime.sec ≠ LOOPY_FS_UTIME_OMIT ∨ mtime.sec ≠ LOOPY_FS_UTIME_OMIT) :
    (utimeRequest type atime mtime).tp env =
      some (setEntry atime env.atimeNow env.unset.1, setEntry mtime env.mtimeNow env.unset.2) :=
  if_pos h

theorem tp_none (ha : atime.sec = LOOPY_FS_UTIME_OMIT) (hm : mtime.sec = LOOPY_FS_UTIME_OMIT) :
    (utimeRequest type atime mtime).tp env = none :=
  if_neg (by simp [utimeRequest, ha, hm])

/-- A call that succeeds with a pair has taken both of its times. -/
theorem setTimes_some_ok (h : env.setTimes (some (a, m)) = .ok times) :
    a.Valid ∧ m.Valid ∧ times = { atime := a.time, mtime := m.time } := by
  unfold Environment.setTimes at h
  split at h
  · cases h
  · dsimp only at h
    split at h
    · rename_i hvalid
      exact ⟨hvalid.1, hvalid.2, (Except.ok.inj h).symm⟩
    · cases h

theorem setTimes_some (env : Environment) (henv : env.error = none) (ha : a.Valid) (hm : m.Valid) :
    env.setTimes (some (a, m)) = .ok { atime := a.time, mtime := m.time } := by
  rw [Environment.setTimes, henv]
  exact if_pos ⟨ha, hm⟩

/-- Only what the system call sets when it succeeds is in question. -/
theorem utimeOK_of_setTimes
    (h : ∀ (env : Environment) (times : FileTimes),
      env.setTimes ((utimeRequest type atime mtime).tp env) = .ok times →
        EntryOK atime file.atime times.atime env.atimeNow ∧
          EntryOK mtime file.mtime times.mtime env.mtimeNow) :
    UtimeOK type atime mtime file := by
  refine ⟨fun env hresult => ?_, fun env type' =>
    fsWorkUtime_alike type type' atime mtime env file⟩
  cases hset : env.setTimes ((utimeRequest type atime mtime).tp env) with
  | error e =>
    rw [(fsWorkUtime_error type file hset).1] at hresult
    cases hresult
  | ok times =>
    rw [(fsWorkUtime_ok type file hset).2]
    exact h env times hset

theorem utimeOK_of_both (ha : atime.sec ≠ LOOPY_FS_UTIME_OMIT)
    (hm : mtime.sec ≠ LOOPY_FS_UTIME_OMIT) : UtimeOK type atime mtime file := by
  refine utimeOK_of_setTimes fun env times hset => ?_
  rw [tp_some (.inl ha)] at hset
  obtain ⟨-, -, rfl⟩ := setTimes_some_ok hset
  exact ⟨entryOK_setEntry ha _ _ _, entryOK_setEntry hm _ _ _⟩

/-- A request with a time that is refused does not succeed. -/
theorem utimeOK_of_refused (h : atime.Refused ∨ mtime.Refused) :
    UtimeOK type atime mtime file := by
  refine utimeOK_of_setTimes fun env times hset => ?_
  rw [tp_some (h.imp (fun ha => ha.2.1) fun hm => hm.2.1)] at hset
  obtain ⟨hvalid, hvalid', -⟩ := setTimes_some_ok hset
  rcases h with ha | hm
  · exact absurd hvalid (ha.not_valid _ _)
  · exact absurd hvalid' (hm.not_valid _ _)

/-- The start of 1970. -/
def epoch : Timeval := { tv_sec := 0, tv_usec := 0 }

/-- A time that differs from a given one. -/
def otherThan (time : ℤ) : Timeval :=
  if time = 0 then { tv_sec := 1, tv_usec := 0 } else epoch

theorem otherThan_valid (time : ℤ) : (otherThan time).Valid := by
  unfold otherThan
  split <;> decide

theorem otherThan_ne (time : ℤ) : (otherThan time).time ≠ time := by
  unfold otherThan
  split
  · rename_i h
    rw [h]
    decide
  · rename_i h
    exact fun heq => h heq.symm

/-- Memory and clocks that all show something else than the times of the file. -/
def adverse (file : FileTimes) : Environment where
  atimeNow := epoch
  mtimeNow := epoch
  kernelNow := file.atime + 1
  unset := (otherThan file.atime, otherThan file.mtime)
  error := none
  atimeNow_valid := by decide
  mtimeNow_valid := by decide

/-- In them a request that omits a time, and is not refused, changes that time. -/
theorem not_utimeOK (homit : atime.sec = LOOPY_FS_UTIME_OMIT ∨ mtime.sec = LOOPY_FS_UTIME_OMIT)
    (ha : ¬atime.Refused) (hm : ¬mtime.Refused) : ¬UtimeOK type atime mtime file := by
  intro h
  by_cases ha' : atime.sec = LOOPY_FS_UTIME_OMIT
  · by_cases hm' : mtime.sec = LOOPY_FS_UTIME_OMIT
    · -- both stay: the null pointer sets both to the current time
      have hset : (adverse file).setTimes ((utimeRequest type atime mtime).tp (adverse file)) =
          .ok { atime := file.atime + 1, mtime := file.atime + 1 } := by
        rw [tp_none ha' hm']
        rfl
      obtain ⟨hresult, hfile⟩ := fsWorkUtime_ok type file hset
      have hentry := (h.times _ hresult).1
      rw [hfile, EntryOK, if_pos ha'] at hentry
      dsimp only at hentry
      omega
    · have hset := setTimes_some (adverse file) rfl (otherThan_valid file.atime)
        (setEntry_valid hm hm' (adverse file).mtimeNow_valid (adverse file).unset.2)
      rw [← setEntry_omit ha' (adverse file).atimeNow (otherThan file.atime)] at hset
      obtain ⟨hresult, hfile⟩ := fsWorkUtime_ok type file
        ((congrArg _ (tp_some (.inr hm'))).trans hset)
      have hentry := (h.times _ hresult).1
      rw [hfile, EntryOK, if_pos ha', setEntry_omit ha'] at hentry
      exact otherThan_ne file.atime hentry
  · have hm' := homit.resolve_left ha'
    have hset := setTimes_some (adverse file) rfl
      (setEntry_valid ha ha' (adverse file).atimeNow_valid (adverse file).unset.1)
      (otherThan_valid file.mtime)
    rw [← setEntry_omit hm' (adverse file).mtimeNow (otherThan file.mtime)] at hset
    obtain ⟨hresult, hfile⟩ := fsWorkUtime_ok type file
      ((congrArg _ (tp_some (.inl ha'))).trans hset)
    have hentry := (h.times _ hresult).2
    rw [hfile, EntryOK, if_pos hm', setEntry_omit hm'] at hentry
    exact otherThan_ne file.mtime hentry

/-- A request is served right exactly if no time is to stay, or if a time is refused. -/
theorem utimeOK_iff (type : UtimeType) (atime mtime : LoopyFSTimespec) (file : FileTimes) :
    UtimeOK type atime mtime file ↔
      atime.sec ≠ LOOPY_FS_UTIME_OMIT ∧ mtime.sec ≠ LOOPY_FS_UTIME_OMIT ∨
        atime.Refused ∨ mtime.Refused := by
  constructor
  · intro h
    by_contra hcond
    rw [not_or, not_or, not_and_or, not_not, not_not] at hcond
    obtain ⟨homit, ha, hm⟩ := hcond
    exact not_utimeOK homit ha hm h
  · rintro (⟨ha, hm⟩ | hrefused)
    · exact utimeOK_of_both ha hm
    · exact utimeOK_of_refused hrefused

/-- To omit both times sets both to the current one. -/
theorem omit_both_sets_now :
    ¬ ∀ type atime mtime file, UtimeOK type atime mtime file := by
  intro h
  have hok := h .UTIME { sec := LOOPY_FS_UTIME_OMIT } { sec := LOOPY_FS_UTIME_OMIT }
    { atime := 5, mtime := 5 }
  have hentry := (hok.times (adverse { atime := 5, mtime := 5 }) (by decide)).1
  rw [EntryOK, if_pos rfl] at hentry
  exact absurd hentry (by decide)

end Loopy.FS
