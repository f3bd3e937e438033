import Loopy.EventLoop.Theorems
import Loopy.Pipe.Basic

/-!
# The two ends of a pipe

No call for one end touches the other one (`Apart`). But both ends use one loop pointer, which
`loopyPipeReadStop` and a failed registration clear and every registration sets, and an end is
unregistered from the loop that the pointer has then. `ends_iff` says in which runs that is enough.
-/

namespace Loopy.Pipe

open Loopy.EventLoop Loopy.Lib
open Function (update update_of_ne update_self)

/-! ## One end -/

/-- What is said of an end: its descriptor, the masks of its descriptor in the loops, and whether
the end is reading or writing. -/
structure Side where
  fd : ℤ
  mask : ℕ → LoopyAction
  active : Bool

/-- The end is registered with a loop exactly while it is active, and it is not registered when it
is closed. -/
structure SideLaw (e : Side) : Prop where
  registered : (∃ loop, e.mask loop ≠ .NONE) ↔ e.active = true
  closed : e.fd < 0 → ∀ loop, e.mask loop = .NONE

/-- The masks after the end has been unregistered from the loop that the pipe has. -/
def Side.released (e : Side) (loop : ℕ) : ℕ → LoopyAction :=
  if loop ≠ 0 ∧ e.fd ≥ 0 then update e.mask loop .NONE else e.mask

/-- What a step of the pipe does to an end, with the loops that the pipe has before and after it;
it is marked whether the end is to be unregistered. -/
inductive Effect (loop loop' : ℕ) (e : Side) : Bool → Side → Prop
  | keeps : Effect loop loop' e false e
  | watches (action : LoopyAction) (hfd : e.fd ≥ 0) (haction : action ≠ .NONE) :
      Effect loop loop' e false
        ⟨e.fd, update e.mask loop' ((e.mask loop').union action), true⟩
  | releases (fd : ℤ) : Effect loop loop' e true ⟨fd, e.released loop, false⟩

/-- Unregistering from every event leaves nothing. -/
theorem diff_all (a : LoopyAction) : a.diff .ALL = .NONE := by
  cases a with
  | mk r w => cases r <;> cases w <;> rfl

/-- Neither does unregistering a mask without READ from WRITE. -/
theorem diff_write {a : LoopyAction} (ha : a.read = false) : a.diff .WRITE = .NONE := by
  cases a with
  | mk r w =>
    obtain rfl : r = false := ha
    cases w <;> rfl

namespace SideLaw

variable {e e' : Side} {loop loop' : ℕ}

/-- An end that is watched while it is active keeps the law. -/
theorem watches {l : ℕ} {action : LoopyAction} (hfd : e.fd ≥ 0) (haction : action ≠ .NONE) :
    SideLaw ⟨e.fd, update e.mask l ((e.mask l).union action), true⟩ := by
  refine ⟨⟨fun _ => rfl, fun _ => ⟨l, ?_⟩⟩, fun hclosed => ?_⟩
  · dsimp only
    rw [update_self]
    exact LoopyAction.union_ne_none haction
  · dsimp only at hclosed
    omega

/-- An end is unregistered if the loop that the pipe has is the one it is registered with. -/
theorem releases_iff (h : SideLaw e) (hnull : e.mask 0 = .NONE) (fd : ℤ) :
    SideLaw ⟨fd, e.released loop, false⟩ ↔ ∀ l, e.mask l ≠ .NONE → loop = l := by
  constructor
  · intro h' l hl
    by_contra hne
    have hother : e.released loop l = e.mask l := by
      unfold Side.released
      split
      · exact update_of_ne (Ne.symm hne) ..
      · rfl
    have hactive : false = true := h'.registered.mp ⟨l, fun hnone => hl (hother.symm.trans hnone)⟩
    cases hactive
  · intro honly
    have hnone : ∀ l, e.released loop l = .NONE := by
      intro l
      by_cases hl : e.mask l = .NONE
      · unfold Side.released
        split
        · by_cases hloop : l = loop
          · rw [hloop, update_self]
          · rw [update_of_ne hloop, hl]
        · exact hl
      · have hloop := honly l hl
        have hne : loop ≠ 0 := by
          intro hzero
          rw [← hloop, hzero] at hl
          exact hl hnull
        have hfd : e.fd ≥ 0 := by
          by_contra hfd
          exact hl (h.closed (by omega) l)
        rw [Side.released, if_pos ⟨hne, hfd⟩, hloop, update_self]
    refine ⟨⟨?_, fun hactive => ?_⟩, fun _ => hnone⟩
    · rintro ⟨l, hl⟩
      exact absurd (hnone l) hl
    · cases hactive

/-- A step keeps the law of an end exactly if it unregisters the end where it is registered. -/
theorem effect_iff (h : SideLaw e) (hnull : e.mask 0 = .NONE) {releases : Bool}
    (heffect : Effect loop loop' e releases e') :
    SideLaw e' ↔ (releases = true → ∀ l, e.mask l ≠ .NONE → loop = l) := by
  cases heffect with
  | keeps => exact ⟨fun _ => nofun, fun _ => h⟩
  | watches action hfd haction => exact ⟨fun _ => nofun, fun _ => watches hfd haction⟩
  | releases fd =>
    rw [h.releases_iff hnull fd]
    exact ⟨fun honly _ => honly, fun honly => honly rfl⟩

end SideLaw

/-! ## The two ends -/

namespace LoopyPipe

def readSide (p : LoopyPipe) : Side := ⟨p.readFd, fun loop => p.mask loop p.readEnd, p.reading⟩

def writeSide (p : LoopyPipe) : Side := ⟨p.writeFd, fun loop => p.mask loop p.writeEnd, p.writing⟩

end LoopyPipe

/-- The read end is untouched: its registration, its callback and what is pending. -/
structure SameRead (p p' : LoopyPipe) : Prop where
  side : p'.readSide = p.readSide
  readCallback : p'.readCallback = p.readCallback
  readUserData : p'.readUserData = p.readUserData
  readBuffer : p'.readBuffer = p.readBuffer
  readBufferSize : p'.readBufferSize = p.readBufferSize

/-- The write end is untouched. -/
structure SameWrite (p p' : LoopyPipe) : Prop where
  side : p'.writeSide = p.writeSide
  writeCallback : p'.writeCallback = p.writeCallback
  writeUserData : p'.writeUserData = p.writeUserData
  waiting : p'.waiting = p.waiting
  asyncCalls : p'.asyncCalls = p.asyncCalls
  called : p'.called = p.called
  kernel : p'.kernel = p.kernel

theorem SameRead.refl (p : LoopyPipe) : SameRead p p := ⟨rfl, rfl, rfl, rfl, rfl⟩

theorem SameWrite.refl (p : LoopyPipe) : SameWrite p p := ⟨rfl, rfl, rfl, rfl, rfl, rfl, rfl⟩

/-- A step is for one end and leaves the other one untouched; that a callback returns is a step for
the end whose function has called it. -/
def Apart (p : LoopyPipe) (a : Action) (p' : LoopyPipe) : Prop :=
  match a with
  | .readStart .. | .readStop | .closeRead | .readable _ => SameWrite p p'
  | .closeWrite | .writeAsync .. | .writable _ => SameRead p p'
  | .ret => if p.frames.head? = some .pipeReadEventCallback then SameWrite p p' else SameRead p p'

/-- The descriptors of a pipe. -/
structure PipeInv (p : LoopyPipe) : Prop where
  ends : p.readEnd ≠ p.writeEnd
  readFd : p.readFd = p.readEnd ∨ p.readFd = -1
  writeFd : p.writeFd = p.writeEnd ∨ p.writeFd = -1
  /-- No descriptor is registered with `NULL`. -/
  null : ∀ fd, p.mask 0 fd = .NONE
  writeOnly : ∀ loop, (p.mask loop p.writeEnd).read = false

/-- A pipe that was just created has registered nothing. -/
theorem Created.inv {p : LoopyPipe} (h : Created p) : PipeInv p := by
  cases h with
  | pair r w h => exact ⟨h, .inl rfl, .inl rfl, fun _ => rfl, fun _ => rfl⟩
  | fifoRead r w h => exact ⟨h, .inl rfl, .inr rfl, fun _ => rfl, fun _ => rfl⟩
  | fifoWrite r w h => exact ⟨h, .inr rfl, .inl rfl, fun _ => rfl, fun _ => rfl⟩

/-! ## The table of masks -/

section table

variable (mask : ℕ → ℤ → LoopyAction) (loop : ℕ) (fd : ℤ) (x : LoopyAction)

/-- The column of the descriptor that is written. -/
theorem update_column : (fun l => update mask loop (update (mask loop) fd x) l fd) =
    update (fun l => mask l fd) loop x := by
  funext l
  by_cases hl : l = loop
  · rw [hl, update_self, update_self, update_self]
  · rw [update_of_ne hl, update_of_ne hl]

/-- The column of another descriptor. -/
theorem update_column_of_ne {fd fd' : ℤ} (hfd : fd' ≠ fd) (l : ℕ) :
    update mask loop (update (mask loop) fd x) l fd' = mask l fd' := by
  by_cases hl : l = loop
  · rw [hl, update_self, update_of_ne hfd]
  · rw [update_of_ne hl]

end table

namespace PipeInv

variable {p p' : LoopyPipe}

/-- The read end is not the descriptor of the open write end. -/
theorem readEnd_ne (h : PipeInv p) (hfd : p.writeFd ≥ 0) : (p.readEnd : ℤ) ≠ p.writeFd := by
  have hends := h.ends
  have hwrite := h.writeFd
  omega

/-- Nor is the write end that of the open read end. -/
theorem writeEnd_ne (h : PipeInv p) (hfd : p.readFd ≥ 0) : (p.writeEnd : ℤ) ≠ p.readFd := by
  have hends := h.ends
  have hread := h.readFd
  omega

/-- While it is open, the descriptor is the end itself. -/
theorem readFd_eq (h : PipeInv p) (hfd : p.readFd ≥ 0) : p.readFd = p.readEnd :=
  h.readFd.resolve_right (by omega)

/-- So it is at the write end. -/
theorem writeFd_eq (h : PipeInv p) (hfd : p.writeFd ≥ 0) : p.writeFd = p.writeEnd :=
  h.writeFd.resolve_right (by omega)

end PipeInv

/-- A table in which the column of the read end has been changed. -/
structure ReadColumn (p : LoopyPipe) (column : ℕ → LoopyAction) (mask : ℕ → ℤ → LoopyAction) :
    Prop where
  read : (fun loop => mask loop p.readEnd) = column
  write : (fun loop => mask loop p.writeEnd) = fun loop => p.mask loop p.writeEnd
  null : ∀ fd, mask 0 fd = .NONE

/-- A table in which the column of the write end has been changed. -/
structure WriteColumn (p : LoopyPipe) (column : ℕ → LoopyAction) (mask : ℕ → ℤ → LoopyAction) :
    Prop where
  write : (fun loop => mask loop p.writeEnd) = column
  read : (fun loop => mask loop p.readEnd) = fun loop => p.mask loop p.readEnd
  null : ∀ fd, mask 0 fd = .NONE
  writeOnly : ∀ loop, (mask loop p.writeEnd).read = false

namespace PipeInv

variable {p p' : LoopyPipe}

/-- Nothing is registered with the loop that is null. -/
theorem null_update (h : PipeInv p) {loop : ℕ} {fd : ℤ} {x : LoopyAction}
    (hx : loop = 0 → x = .NONE) (fd' : ℤ) :
    update p.mask loop (update (p.mask loop) fd x) 0 fd' = .NONE := by
  by_cases hfd : fd' = fd
  · have hcolumn := congrFun (update_column p.mask loop fd x) 0
    rw [hfd, hcolumn]
    by_cases hloop : 0 = loop
    · rw [← hloop, update_self]
      exact hx hloop.symm
    · rw [update_of_ne hloop]
      exact h.null fd
  · rw [update_column_of_ne _ _ _ hfd]
    exact h.null fd'

/-- The read end is written in the table. -/
theorem updateRead (h : PipeInv p) (loop : ℕ) (x : LoopyAction) (hfd : p.readFd ≥ 0)
    (hx : loop = 0 → x = .NONE) :
    ReadColumn p (update p.readSide.mask loop x)
      (update p.mask loop (update (p.mask loop) p.readFd x)) where
  read := by
    rw [h.readFd_eq hfd]
    exact update_column ..
  write := by
    funext l
    exact update_column_of_ne _ _ _ (h.writeEnd_ne hfd) l
  null := h.null_update hx

/-- The write end is written in the table. -/
theorem updateWrite (h : PipeInv p) (loop : ℕ) (x : LoopyAction) (hfd : p.writeFd ≥ 0)
    (hx : loop = 0 → x = .NONE) (hread : x.read = false) :
    WriteColumn p (update p.writeSide.mask loop x)
      (update p.mask loop (update (p.mask loop) p.writeFd x)) where
  write := by
    rw [h.writeFd_eq hfd]
    exact update_column ..
  read := by
    funext l
    exact update_column_of_ne _ _ _ (h.readEnd_ne hfd) l
  null := h.null_update hx
  writeOnly := by
    intro l
    have hcolumn := congrFun (update_column p.mask loop p.writeEnd x) l
    rw [h.writeFd_eq hfd, hcolumn]
    by_cases hl : l = loop
    · rw [hl, update_self]
      exact hread
    · rw [update_of_ne hl]
      exact h.writeOnly l

/-- The code that unregisters the read end. -/
theorem unregisterRead (h : PipeInv p) :
    ∃ mask, (if p.loop ≠ 0 ∧ p.readFd ≥ 0 then p.loopyUnregisterReadWrite p.loop p.readFd else p) =
      { p with mask := mask } ∧ ReadColumn p (p.readSide.released p.loop) mask := by
  by_cases hreg : p.loop ≠ 0 ∧ p.readFd ≥ 0
  · have hreleased : p.readSide.released p.loop = update p.readSide.mask p.loop .NONE :=
      if_pos hreg
    rw [if_pos hreg, hreleased]
    refine ⟨_, rfl, ?_⟩
    rw [diff_all]
    exact h.updateRead _ _ hreg.2 fun _ => rfl
  · have hreleased : p.readSide.released p.loop = p.readSide.mask := if_neg hreg
    rw [if_neg hreg, hreleased]
    exact ⟨p.mask, rfl, rfl, rfl, h.null⟩

/-- The code that unregisters the write end; for the end of an event it is enough to unregister the
writing. -/
theorem unregisterWrite (h : PipeInv p) (action : LoopyAction)
    (haction : ∀ loop, (p.mask loop p.writeFd).read = false →
      (p.mask loop p.writeFd).diff action = .NONE) :
    ∃ mask, (if p.loop ≠ 0 ∧ p.writeFd ≥ 0 then p.unwatch p.loop p.writeFd action else p) =
      { p with mask := mask } ∧ WriteColumn p (p.writeSide.released p.loop) mask := by
  by_cases hreg : p.loop ≠ 0 ∧ p.writeFd ≥ 0
  · have hreleased : p.writeSide.released p.loop = update p.writeSide.mask p.loop .NONE :=
      if_pos hreg
    have hread : (p.mask p.loop p.writeFd).read = false := by
      rw [h.writeFd_eq hreg.2]
      exact h.writeOnly p.loop
    rw [if_pos hreg, hreleased]
    refine ⟨_, rfl, ?_⟩
    rw [haction p.loop hread]
    exact h.updateWrite _ _ hreg.2 (fun _ => rfl) rfl
  · have hreleased : p.writeSide.released p.loop = p.writeSide.mask := if_neg hreg
    rw [if_neg hreg, hreleased]
    exact ⟨p.mask, rfl, rfl, rfl, h.null, h.writeOnly⟩

end PipeInv

/-! ## The calls -/

/-- A step for the read end. -/
structure ReadStep (p : LoopyPipe) (releases : Bool) (p' : LoopyPipe) : Prop where
  effect : Effect p.loop p'.loop p.readSide releases p'.readSide
  other : SameWrite p p'
  inv : PipeInv p'

/-- A step for the write end. -/
structure WriteStep (p : LoopyPipe) (releases : Bool) (p' : LoopyPipe) : Prop where
  effect : Effect p.loop p'.loop p.writeSide releases p'.writeSide
  other : SameRead p p'
  inv : PipeInv p'

namespace PipeInv

variable {p p' : LoopyPipe}

section

variable (h : PipeInv p)

include h

/-- The invariant is about the descriptors and the table only. -/
theorem congr (hread : p'.readFd = p.readFd ∨ p'.readFd = -1)
    (hwrite : p'.writeFd = p.writeFd ∨ p'.writeFd = -1) (hreadEnd : p'.readEnd = p.readEnd)
    (hwriteEnd : p'.writeEnd = p.writeEnd) (hnull : ∀ fd, p'.mask 0 fd = .NONE)
    (honly : ∀ loop, (p'.mask loop p.writeEnd).read = false) : PipeInv p' where
  ends := by
    rw [hreadEnd, hwriteEnd]
    exact h.ends
  readFd := by
    have hold := h.readFd
    rw [hreadEnd]
    omega
  writeFd := by
    have hold := h.writeFd
    rw [hwriteEnd]
    omega
  null := hnull
  writeOnly := by
    rw [hwriteEnd]
    exact honly

/-- The invariant depends on the descriptors and the masks. -/
theorem same (hread : p'.readFd = p.readFd) (hwrite : p'.writeFd = p.writeFd)
    (hreadEnd : p'.readEnd = p.readEnd) (hwriteEnd : p'.writeEnd = p.writeEnd)
    (hmask : p'.mask = p.mask) : PipeInv p' :=
  h.congr (.inl hread) (.inl hwrite) hreadEnd hwriteEnd (by rw [hmask]; exact h.null)
    (by rw [hmask]; exact h.writeOnly)

/-- The write end is never registered for READ. -/
theorem writeOnly_of_column {column : ℕ → LoopyAction} {mask : ℕ → ℤ → LoopyAction}
    (hmask : ReadColumn p column mask) (loop : ℕ) :
    (mask loop p.writeEnd).read = false := by
  rw [congrFun hmask.write loop]
  exact h.writeOnly loop

/-- Closing the read end unregisters it. -/
theorem closeRead : ReadStep p true p.loopyPipeCloseRead := by
  obtain ⟨mask, hmask, hcolumn⟩ := h.unregisterRead
  unfold LoopyPipe.loopyPipeCloseRead
  dsimp only
  rw [hmask]
  -- whether a buffer is freed makes no difference to the ends
  cases hbuffer : p.readBuffer <;>
  · refine ⟨?_, ⟨?_, rfl, rfl, rfl, rfl, rfl, rfl⟩, ?_⟩
    · have hside : Effect p.loop p.loop p.readSide true _ := .releases (-1)
      rw [← hcolumn.read] at hside
      exact hside
    · exact congrArg (fun column => (⟨p.writeFd, column, p.writing⟩ : Side)) hcolumn.write
    · exact h.congr (.inr rfl) (.inl rfl) rfl rfl hcolumn.null (h.writeOnly_of_column hcolumn)

/-- So does the end of reading. -/
theorem readStop : ReadStep p true p.loopyPipeReadStop := by
  unfold LoopyPipe.loopyPipeReadStop
  split_ifs with hearly
  · -- nothing is unregistered
    have hreleased : p.readSide.released p.loop = p.readSide.mask := by
      refine if_neg fun hreg => ?_
      have hfd : p.readFd ≥ 0 := hreg.2
      have hloop := hreg.1
      omega
    refine ⟨?_, ⟨rfl, rfl, rfl, rfl, rfl, rfl, rfl⟩, h.same rfl rfl rfl rfl rfl⟩
    have hside : Effect p.loop p.loop p.readSide true _ := .releases p.readFd
    rw [hreleased] at hside
    exact hside
  · have hreg : p.loop ≠ 0 ∧ p.readFd ≥ 0 := by omega
    obtain ⟨mask, hmask, hcolumn⟩ := h.unregisterRead
    rw [if_pos hreg] at hmask
    dsimp only
    rw [hmask]
    cases hbuffer : p.readBuffer <;>
    · refine ⟨?_, ⟨?_, rfl, rfl, rfl, rfl, rfl, rfl⟩, ?_⟩
      · have hside : Effect p.loop 0 p.readSide true _ := .releases p.readFd
        rw [← hcolumn.read] at hside
        exact hside
      · exact congrArg (fun column => (⟨p.writeFd, column, p.writing⟩ : Side)) hcolumn.write
      · exact h.congr (.inl rfl) (.inl rfl) rfl rfl hcolumn.null (h.writeOnly_of_column hcolumn)

/-- The read end is registered, with whatever buffer. -/
theorem readStarted {loop : ℕ} (hloop : loop ≠ 0) (hfd : p.readFd ≥ 0)
    (cb userData readBufferSize : ℕ) (readBuffer : Bool) :
    ReadStep p false (LoopyPipe.watch { p with
      loop := loop
      readCallback := cb
      readUserData := userData
      readBuffer := readBuffer
      readBufferSize := readBufferSize
      reading := true } loop p.readFd .READ) := by
  have hcolumn := h.updateRead loop ((p.mask loop p.readFd).union .READ) hfd
    fun hnull => absurd hnull hloop
  refine ⟨?_, ⟨?_, rfl, rfl, rfl, rfl, rfl, rfl⟩, ?_⟩
  · have hside : Effect p.loop loop p.readSide false _ := .watches .READ hfd (by decide)
    have hmask : p.readSide.mask loop = p.mask loop p.readFd :=
      congrArg (p.mask loop) (h.readFd_eq hfd).symm
    rw [hmask, ← hcolumn.read] at hside
    exact hside
  · exact congrArg (fun column => (⟨p.writeFd, column, p.writing⟩ : Side)) hcolumn.write
  · exact h.congr (.inl rfl) (.inl rfl) rfl rfl hcolumn.null (h.writeOnly_of_column hcolumn)

/-- Reading starts at the read end alone. -/
theorem readStart (loop cb userData : ℕ) (alloc register : Bool) :
    ReadStep p false (p.loopyPipeReadStart loop cb userData alloc register).2 := by
  have hsame : SameWrite p p := .refl p
  unfold LoopyPipe.loopyPipeReadStart
  split_ifs with hargs hclosed halloc hbuffer hregister hregister
  · exact ⟨.keeps, hsame, h⟩
  · exact ⟨.keeps, hsame, h⟩
  · exact ⟨.keeps, ⟨rfl, rfl, rfl, rfl, rfl, rfl, rfl⟩, h.same rfl rfl rfl rfl rfl⟩
  · exact ⟨.keeps, ⟨rfl, rfl, rfl, rfl, rfl, rfl, rfl⟩, h.same rfl rfl rfl rfl rfl⟩
  · exact h.readStarted (fun hloop => hargs (.inl hloop)) (by omega) ..
  · exact ⟨.keeps, ⟨rfl, rfl, rfl, rfl, rfl, rfl, rfl⟩, h.same rfl rfl rfl rfl rfl⟩
  · exact h.readStarted (fun hloop => hargs (.inl hloop)) (by omega) ..

/-- A readable event is handled there. -/
theorem readable (fd : ℤ) : ReadStep p false (p.pipeReadEventCallback fd) := by
  unfold LoopyPipe.pipeReadEventCallback LoopyPipe.call
  split_ifs
  · exact ⟨.keeps, .refl p, h⟩
  · exact ⟨.keeps, .refl p, h⟩
  · exact ⟨.keeps, ⟨rfl, rfl, rfl, rfl, rfl, rfl, rfl⟩, h.same rfl rfl rfl rfl rfl⟩

/-- Closing the write end unregisters it. -/
theorem closeWrite : WriteStep p true p.loopyPipeCloseWrite := by
  obtain ⟨mask, hmask, hcolumn⟩ := h.unregisterWrite .ALL fun _ _ => diff_all _
  unfold LoopyPipe.loopyPipeCloseWrite LoopyPipe.loopyUnregisterReadWrite
  dsimp only
  rw [hmask]
  refine ⟨?_, ⟨?_, rfl, rfl, rfl, rfl⟩, ?_⟩
  · have hside : Effect p.loop p.loop p.writeSide true _ := .releases (-1)
    rw [← hcolumn.write] at hside
    exact hside
  · exact congrArg (fun column => (⟨p.readFd, column, p.reading⟩ : Side)) hcolumn.read
  · exact h.congr (.inl rfl) (.inr rfl) rfl rfl hcolumn.null hcolumn.writeOnly

/-- So does the write handler when it is done. -/
theorem writable : WriteStep p true p.pipeWriteEventCallback := by
  obtain ⟨mask, hmask, hcolumn⟩ := h.unregisterWrite .WRITE fun _ => diff_write
  unfold LoopyPipe.pipeWriteEventCallback LoopyPipe.loopyUnregisterWrite
  dsimp only
  rw [hmask]
  have hside : Effect p.loop p.loop p.writeSide true _ := .releases p.writeFd
  rw [← hcolumn.write] at hside
  have hread : ({ p with mask := mask } : LoopyPipe).readSide = p.readSide :=
    congrArg (fun column => (⟨p.readFd, column, p.reading⟩ : Side)) hcolumn.read
  have hinv : PipeInv { p with mask := mask } :=
    h.congr (.inl rfl) (.inl rfl) rfl rfl hcolumn.null hcolumn.writeOnly
  unfold LoopyPipe.report LoopyPipe.call
  split_ifs
  · exact ⟨hside, ⟨hread, rfl, rfl, rfl, rfl⟩, hinv.same rfl rfl rfl rfl rfl⟩
  · exact ⟨hside, ⟨hread, rfl, rfl, rfl, rfl⟩, hinv.same rfl rfl rfl rfl rfl⟩

/-- A write that must wait registers the write end. -/
theorem waitForEvent {loop : ℕ} (hloop : loop ≠ 0) (hfd : p.writeFd ≥ 0)
    (buf : List UInt8) (cb userData taken : ℕ) (register : Bool) :
    WriteStep p false (p.waitForEvent loop buf cb userData taken register).2 := by
  unfold LoopyPipe.waitForEvent
  split_ifs
  · exact ⟨.keeps, ⟨rfl, rfl, rfl, rfl, rfl⟩, h.same rfl rfl rfl rfl rfl⟩
  · have hread : (p.mask loop p.writeFd).read = false := by
      rw [h.writeFd_eq hfd]
      exact h.writeOnly loop
    have hcolumn := h.updateWrite loop ((p.mask loop p.writeFd).union .WRITE) hfd
      (fun hnull => absurd hnull hloop) (by rw [LoopyAction.union, hread]; rfl)
    refine ⟨?_, ⟨?_, rfl, rfl, rfl, rfl⟩, ?_⟩
    · have hside : Effect p.loop loop p.writeSide false _ := .watches .WRITE hfd (by decide)
      have hmask : p.writeSide.mask loop = p.mask loop p.writeFd :=
        congrArg (p.mask loop) (h.writeFd_eq hfd).symm
      rw [hmask, ← hcolumn.write] at hside
      exact hside
    · exact congrArg (fun column => (⟨p.readFd, column, p.reading⟩ : Side)) hcolumn.read
    · exact h.congr (.inl rfl) (.inl rfl) rfl rfl hcolumn.null hcolumn.writeOnly

/-- Every way through `loopyPipeWriteAsync` is a step for the write end. -/
theorem writeAsync (loop : ℕ) (buf : Option (List UInt8)) (cb userData : ℕ)
    (written : Written) (register : Bool) :
    WriteStep p false (p.loopyPipeWriteAsync loop buf cb userData written register).2 := by
  have hsame : SameRead p p := .refl p
  unfold LoopyPipe.loopyPipeWriteAsync
  cases buf with
  | none => exact ⟨.keeps, hsame, h⟩
  | some buf =>
    dsimp only
    split_ifs with hloop hclosed
    · exact ⟨.keeps, hsame, h⟩
    · exact ⟨.keeps, hsame, h⟩
    · cases written with
      | bytes taken =>
        dsimp only
        split_ifs
        · unfold LoopyPipe.report LoopyPipe.call LoopyPipe.took
          split_ifs <;> exact ⟨.keeps, ⟨rfl, rfl, rfl, rfl, rfl⟩, h.same rfl rfl rfl rfl rfl⟩
        · exact h.waitForEvent hloop (by omega) ..
      | again => exact h.waitForEvent hloop (by omega) ..
      | error =>
        unfold LoopyPipe.call
        dsimp only
        split_ifs <;> exact ⟨.keeps, ⟨rfl, rfl, rfl, rfl, rfl⟩, h.same rfl rfl rfl rfl rfl⟩

end

end PipeInv

/-! ## Runs -/

/-- The step is to unregister the read end. -/
def Action.unregistersRead : Action → Bool
  | .readStop | .closeRead => true
  | _ => false

/-- The step is to unregister the write end. -/
def Action.unregistersWrite : Action → Bool
  | .closeWrite | .writable _ => true
  | _ => false

/-- What a step does. -/
structure Stepped (p : LoopyPipe) (a : Action) (p' : LoopyPipe) : Prop where
  read : Effect p.loop p'.loop p.readSide a.unregistersRead p'.readSide
  write : Effect p.loop p'.loop p.writeSide a.unregistersWrite p'.writeSide
  apart : Apart p a p'
  inv : PipeInv p'

section run

variable {p p' t : LoopyPipe} {a : Action} {as : List Action}

/-- What leaves the read end alone is no effect on it. -/
theorem SameRead.effect (h : SameRead p p') {loop loop' : ℕ} :
    Effect loop loop' p.readSide false p'.readSide := by
  rw [h.side]
  exact .keeps

/-- The same at the write end. -/
theorem SameWrite.effect (h : SameWrite p p') {loop loop' : ℕ} :
    Effect loop loop' p.writeSide false p'.writeSide := by
  rw [h.side]
  exact .keeps

/-- A step for the read end is a step of the pipe. -/
theorem ReadStep.stepped (h : ReadStep p a.unregistersRead p') (ha : a.unregistersWrite = false)
    (hapart : SameWrite p p' → Apart p a p') : Stepped p a p' :=
  ⟨h.effect, by rw [ha]; exact h.other.effect, hapart h.other, h.inv⟩

/-- So is one for the write end. -/
theorem WriteStep.stepped (h : WriteStep p a.unregistersWrite p') (ha : a.unregistersRead = false)
    (hapart : SameRead p p' → Apart p a p') : Stepped p a p' :=
  ⟨by rw [ha]; exact h.other.effect, h.effect, hapart h.other, h.inv⟩

/-- Every action is a step of one of the two ends. -/
theorem PipeInv.stepped (h : PipeInv p) (hstep : p.step a = some p') : Stepped p a p' := by
  cases a with
  | readStart loop cb userData alloc register =>
    cases hstep
    exact (h.readStart loop cb userData alloc register).stepped rfl id
  | readStop =>
    cases hstep
    exact h.readStop.stepped (a := .readStop) rfl id
  | closeRead =>
    cases hstep
    exact h.closeRead.stepped (a := .closeRead) rfl id
  | closeWrite =>
    cases hstep
    exact h.closeWrite.stepped (a := .closeWrite) rfl id
  | writeAsync loop buf cb userData written register =>
    obtain ⟨-, rfl⟩ := of_guard hstep
    exact (h.writeAsync loop buf cb userData written register).stepped rfl id
  | readable loop =>
    obtain ⟨-, rfl⟩ := of_guard hstep
    exact (h.readable p.readEnd).stepped (a := .readable loop) rfl id
  | writable loop =>
    obtain ⟨-, rfl⟩ := of_guard hstep
    exact h.writable.stepped (a := .writable loop) rfl id
  | ret =>
    rw [LoopyPipe.step] at hstep
    cases hframes : p.frames with
    | nil =>
      rw [hframes] at hstep
      cases hstep
    | cons frame frames =>
      rw [hframes] at hstep
      cases frame <;> cases hstep
      -- only the end of a write event clears anything
      · exact ⟨.keeps, .keeps, by rw [Apart, hframes]; exact ⟨rfl, rfl, rfl, rfl, rfl⟩,
          h.same rfl rfl rfl rfl rfl⟩
      · exact ⟨.keeps, .keeps, by rw [Apart, hframes]; exact ⟨rfl, rfl, rfl, rfl, rfl, rfl, rfl⟩,
          h.same rfl rfl rfl rfl rfl⟩
      · exact ⟨.keeps, .keeps, by rw [Apart, hframes]; exact ⟨rfl, rfl, rfl, rfl, rfl⟩,
          h.same rfl rfl rfl rfl rfl⟩

/-- Each end is registered while it is in use, and not when it is closed, and no step for one end
touches the other one. -/
structure LoopyPipe.Independent (p : LoopyPipe) : Prop where
  read : SideLaw p.readSide
  write : SideLaw p.writeSide
  apart : ∀ a p', p.step a = some p' → Apart p a p'

/-- An end is unregistered only while the loop that the pipe has is the only one that the end is
registered with. -/
def Known (p : LoopyPipe) (a : Action) : Prop :=
  (a.unregistersRead = true → ∀ loop, p.mask loop p.readEnd ≠ .NONE → p.loop = loop) ∧
  (a.unregistersWrite = true → ∀ loop, p.mask loop p.writeEnd ≠ .NONE → p.loop = loop)

/-- **A step keeps the ends independent if and only if the pipe knows their loops.**. -/
theorem PipeInv.independent_iff (h : PipeInv p) (hlaw : p.Independent)
    (hstep : p.step a = some p') : p'.Independent ↔ Known p a := by
  have hstepped := h.stepped hstep
  have hread := hlaw.read.effect_iff (h.null p.readEnd) hstepped.read
  have hwrite := hlaw.write.effect_iff (h.null p.writeEnd) hstepped.write
  constructor
  · intro hlaw'
    exact ⟨hread.mp hlaw'.read, hwrite.mp hlaw'.write⟩
  · rintro ⟨hknown, hknown'⟩
    exact ⟨hread.mpr hknown, hwrite.mpr hknown',
      fun b q hq => (hstepped.inv.stepped hq).apart⟩

/-- The ends of a new pipe are independent. -/
theorem Created.independent (h : Created p) : p.Independent := by
  refine ⟨?_, ?_, fun a p' hstep => (h.inv.stepped hstep).apart⟩ <;>
  · cases h <;> exact ⟨⟨fun ⟨_, hnone⟩ => absurd rfl hnone, nofun⟩, fun _ _ => rfl⟩

/-- **The two ends of a pipe are independent** in every state of exactly those runs in which an end
is unregistered only from the loop that it is registered with. -/
theorem ends_iff (hp : Created p) (h : Run LoopyPipe.step (fun _ _ => True) p as t) :
    (∀ js u, js <+: as → Run LoopyPipe.step (fun _ _ => True) p js u → u.Independent) ↔
      Run LoopyPipe.step Known p as t :=
  h.always_iff (P := PipeInv) (fun _ _ _ hinv hstep => (hinv.stepped hstep).inv)
    (fun _ _ _ hinv hlaw hstep => hinv.independent_iff hlaw hstep) hp.inv hp.independent

end run

/-! ## Ordinary use -/

/-- One loop is used as long as an end is in use, its registrations succeed, and reading is stopped
when no write waits. -/
def Ordinary (p : LoopyPipe) : Action → Prop
  | .readStart loop _ _ _ register | .writeAsync loop _ _ _ _ register =>
    p.reading = true ∨ p.writing = true → loop = p.loop ∧ register = true
  | .readStop => p.writing = false
  | _ => True

instance (p : LoopyPipe) : ∀ a, Decidable (Ordinary p a)
  | .readStart .. | .writeAsync .. => inferInstanceAs (Decidable (_ → _))
  | .readStop => inferInstanceAs (Decidable (_ = _))
  | .closeRead | .closeWrite | .readable _ | .writable _ | .ret => isTrue trivial

/-- Both ends are registered with the loop that the pipe has, or not at all. -/
def LoopyPipe.OneLoop (p : LoopyPipe) : Prop :=
  ∀ loop, p.mask loop p.readEnd ≠ .NONE ∨ p.mask loop p.writeEnd ≠ .NONE → p.loop = loop

section ordinary

variable {p p' t : LoopyPipe} {a : Action} {as : List Action}

/-- An end that is not active is registered with no loop. -/
theorem SideLaw.none_of_not_active {e : Side} (h : SideLaw e) (hactive : e.active = false)
    (loop : ℕ) : e.mask loop = .NONE := by
  by_contra hne
  have hregistered := h.registered.mp ⟨loop, hne⟩
  rw [hactive] at hregistered
  cases hregistered

/-- Where an end is registered it has been before, or it is registered now with the new loop. -/
theorem Effect.mask_ne {loop loop' : ℕ} {e e' : Side} {releases : Bool}
    (h : Effect loop loop' e releases e') {l : ℕ} (hl : e'.mask l ≠ .NONE) :
    e.mask l ≠ .NONE ∨ loop' = l := by
  cases h with
  | keeps => exact .inl hl
  | watches action hfd haction =>
    by_cases hloop : l = loop'
    · exact .inr hloop.symm
    · dsimp only at hl
      rw [update_of_ne hloop] at hl
      exact .inl hl
  | releases fd =>
    dsimp only [Side.released] at hl
    split_ifs at hl with hreg
    · by_cases hloop : l = loop
      · rw [hloop, update_self] at hl
        exact absurd rfl hl
      · rw [update_of_ne hloop] at hl
        exact .inl hl
    · exact .inl hl

namespace LoopyPipe

@[simp] theorem loop_call (cb : ℕ) (frame : Frame) : (p.call cb frame).loop = p.loop := by
  unfold call
  split_ifs <;> rfl

@[simp] theorem loop_report (cb : ℕ) (n : Option ℕ) : (p.report cb n).loop = p.loop := by
  unfold report
  split_ifs <;> rfl

@[simp] theorem loop_closeRead : p.loopyPipeCloseRead.loop = p.loop := by
  unfold loopyPipeCloseRead
  dsimp only
  split_ifs <;> rfl

@[simp] theorem loop_closeWrite : p.loopyPipeCloseWrite.loop = p.loop := by
  unfold loopyPipeCloseWrite
  dsimp only
  split_ifs <;> rfl

@[simp] theorem loop_readable (fd : ℤ) : (p.pipeReadEventCallback fd).loop = p.loop := by
  unfold pipeReadEventCallback
  split_ifs
  · rfl
  · exact loop_call ..

@[simp] theorem loop_writable : p.pipeWriteEventCallback.loop = p.loop := by
  unfold pipeWriteEventCallback
  dsimp only
  split_ifs
  · rfl
  · rw [loop_call, loop_report]
    rfl
  · rfl
  · rw [loop_call, loop_report]

/-- A call with the loop that the pipe has already. -/
theorem loop_readStart (cb userData : ℕ) (alloc : Bool) :
    (p.loopyPipeReadStart p.loop cb userData alloc true).2.loop = p.loop := by
  unfold loopyPipeReadStart
  simp only [Bool.true_eq_false, if_false]
  split_ifs <;> rfl

/-- Waiting on the loop of the pipe leaves the loop. -/
theorem loop_waitForEvent (buf : List UInt8) (cb userData taken : ℕ) :
    (p.waitForEvent p.loop buf cb userData taken true).2.loop = p.loop := rfl

/-- So does any write on it. -/
theorem loop_writeAsync (buf : Option (List UInt8)) (cb userData : ℕ) (written : Written) :
    (p.loopyPipeWriteAsync p.loop buf cb userData written true).2.loop = p.loop := by
  unfold loopyPipeWriteAsync
  cases buf with
  | none => rfl
  | some buf =>
    dsimp only
    split_ifs
    · rfl
    · rfl
    · cases written with
      | bytes taken =>
        dsimp only
        split_ifs
        · rw [loop_call, loop_report]
          rfl
        · exact loop_waitForEvent ..
      | again => exact loop_waitForEvent ..
      | error => exact loop_call ..

end LoopyPipe

/-- The loop of the pipe changes only while no end is in use. -/
theorem Ordinary.loop (h : Ordinary p a) (hstep : p.step a = some p') :
    p'.loop = p.loop ∨ p.reading = false ∧ p.writing = false ∨
      p'.reading = false ∧ p'.writing = false := by
  have hidle (hidle : ¬ (p.reading = true ∨ p.writing = true)) :
      p.reading = false ∧ p.writing = false := by
    rw [not_or] at hidle
    exact ⟨Bool.eq_false_iff.mpr hidle.1, Bool.eq_false_iff.mpr hidle.2⟩
  cases a with
  | readStart loop cb userData alloc register =>
    cases hstep
    by_cases huse : p.reading = true ∨ p.writing = true
    · obtain ⟨rfl, rfl⟩ := h huse
      exact .inl (p.loop_readStart ..)
    · exact .inr (.inl (hidle huse))
  | readStop =>
    cases hstep
    have hwriting : p.writing = false := h
    unfold LoopyPipe.loopyPipeReadStop
    split_ifs
    · exact .inl rfl
    · refine .inr (.inr ?_)
      dsimp only
      split_ifs <;> exact ⟨rfl, hwriting⟩
  | closeRead =>
    cases hstep
    exact .inl p.loop_closeRead
  | closeWrite =>
    cases hstep
    exact .inl p.loop_closeWrite
  | writeAsync loop buf cb userData written register =>
    obtain ⟨-, rfl⟩ := of_guard hstep
    by_cases huse : p.reading = true ∨ p.writing = true
    · obtain ⟨rfl, rfl⟩ := h huse
      exact .inl (p.loop_writeAsync ..)
    · exact .inr (.inl (hidle huse))
  | readable loop =>
    obtain ⟨-, rfl⟩ := of_guard hstep
    exact .inl (p.loop_readable p.readEnd)
  | writable loop =>
    obtain ⟨-, rfl⟩ := of_guard hstep
    exact .inl p.loop_writable
  | ret =>
    rw [LoopyPipe.step] at hstep
    split at hstep <;> cases hstep <;> exact .inl rfl

/-- With one loop the pipe knows where its ends are registered. -/
theorem LoopyPipe.OneLoop.known (h : p.OneLoop) (a : Action) : Known p a :=
  ⟨fun _ loop hne => h loop (.inl hne), fun _ loop hne => h loop (.inr hne)⟩

/-- Ordinary use keeps to one loop. -/
theorem LoopyPipe.OneLoop.step (h : p.OneLoop) (hinv : PipeInv p) (hlaw : p.Independent)
    (hord : Ordinary p a) (hstep : p.step a = some p') : p'.OneLoop := by
  have hstepped := hinv.stepped hstep
  have hlaw' := (hinv.independent_iff hlaw hstep).mpr (h.known a)
  intro l hl
  have hcome : p.readSide.mask l ≠ .NONE ∨ p.writeSide.mask l ≠ .NONE ∨ p'.loop = l := by
    cases hl with
    | inl hread => exact (hstepped.read.mask_ne hread).imp_right .inr
    | inr hwrite => exact .inr (hstepped.write.mask_ne hwrite)
  -- where an end has been registered before, it was the loop of the pipe
  have hold : p.loop = l ∨ p'.loop = l := by
    rcases hcome with hread | hwrite | hnew
    · exact .inl (h l (.inl hread))
    · exact .inl (h l (.inr hwrite))
    · exact .inr hnew
  rcases hord.loop hstep with hloop | ⟨hreading, hwriting⟩ | ⟨hreading, hwriting⟩
  · rw [hloop] at hold ⊢
    exact or_self_iff.mp hold
  · rcases hcome with hread | hwrite | hnew
    · exact absurd (hlaw.read.none_of_not_active hreading l) hread
    · exact absurd (hlaw.write.none_of_not_active hwriting l) hwrite
    · exact hnew
  · cases hl with
    | inl hread => exact absurd (hlaw'.read.none_of_not_active hreading l) hread
    | inr hwrite => exact absurd (hlaw'.write.none_of_not_active hwriting l) hwrite

/-- A new pipe has no loop yet. -/
theorem Created.oneLoop (h : Created p) : p.OneLoop := by
  intro loop hne
  cases h <;> exact absurd rfl (or_self_iff.mp hne)

/-- In ordinary use an end is unregistered where it is registered. -/
theorem known_of_ordinary (hp : Created p) (h : Run LoopyPipe.step Ordinary p as t) :
    Run LoopyPipe.step Known p as t := by
  refine h.mono_of_invariant (P := fun p => PipeInv p ∧ p.Independent ∧ p.OneLoop) ?_
    (fun p a hgood _ => hgood.2.2.known a) ⟨hp.inv, hp.independent, hp.oneLoop⟩
  rintro p a p' ⟨hinv, hlaw, hone⟩ hord hstep
  exact ⟨(hinv.stepped hstep).inv, (hinv.independent_iff hlaw hstep).mpr (hone.known a),
    hone.step hinv hlaw hord hstep⟩

end ordinary

/-- Both ends are used with one loop, and reading is stopped after the write. -/
theorem ends_iff_bothEnds :
    ∃ p as t, Created p ∧ as = [.readStart 1 7 0 true true, .writeAsync 1 (some [1]) 8 0 .again true,
      .writable 1, .ret, .readStop, .closeRead, .closeWrite] ∧
      Run LoopyPipe.step (fun _ _ => True) p as t ∧ ∀ js u, js <+: as →
        Run LoopyPipe.step (fun _ _ => True) p js u → u.Independent := by
  have hp : Created (.of 3 4 3 4) := .pair 3 4 (by decide)
  obtain ⟨t, hrun, -⟩ : ∃ t, Run LoopyPipe.step Ordinary (.of 3 4 3 4)
      [.readStart 1 7 0 true true, .writeAsync 1 (some [1]) 8 0 .again true, .writable 1, .ret,
        .readStop, .closeRead, .closeWrite] t ∧ t.called = [0] :=
    Run.of_exec_map (by decide)
  have hall : Run LoopyPipe.step (fun _ _ => True) _ _ t := hrun.mono fun _ _ _ => trivial
  exact ⟨_, _, t, hp, rfl, hall, (ends_iff hp hall).mpr (known_of_ordinary hp hrun)⟩

/-- The read end is stopped while a write waits. -/
theorem ends_not_independent :
    ∃ p as t, Created p ∧ as = [.readStart 1 7 0 true true, .writeAsync 1 (some [1]) 8 0 .again true,
      .readStop, .closeWrite] ∧
      Run LoopyPipe.step (fun _ _ => True) p as t ∧ ¬ t.Independent := by
  refine ⟨.of 3 4 3 4, _, _, .pair 3 4 (by decide), rfl, Run.cons trivial rfl (.cons trivial rfl
    (.cons trivial rfl (.cons trivial rfl (.nil _)))), fun hlaw => ?_⟩
  -- the descriptor has been closed, and the loop still watches it
  have hclosed := hlaw.write.closed (by decide) 1
  cases hclosed

end Loopy.Pipe
