import Loopy.Lib.Run
import Loopy.TTY.Basic

/-!
# One terminal handle

The modes of a single handle, under calls that succeed. IO mode does not depend on the mode that it
is reached from, and normal mode writes the saved settings back. Raw mode clears some flags of the
current settings, and IO mode has cleared all of them: the raw mode that is reached from IO mode is
the one reached from normal mode only where IO mode changes nothing that raw mode leaves.
-/

namespace Loopy.TTY

open Loopy.Lib
open Function (update update_comm update_idem)

variable {T : Type}

/-! ## Masks -/

section masks

variable {w : ℕ} {m a b : BitVec w}

/-- To clear bits and set others, after bits have been set that are cleared or set then. -/
theorem clear_set_clear_set (ha : a &&& ~~~m ||| b = b) (x : BitVec w) :
    ((x &&& ~~~m ||| a) &&& ~~~m) ||| b = (x &&& ~~~m) ||| b := by
  have hdistrib : (x &&& ~~~m ||| a) &&& ~~~m = x &&& ~~~m ||| a &&& ~~~m := by
    rw [BitVec.and_comm, BitVec.and_or_distrib_left, BitVec.and_comm x, ← BitVec.and_assoc,
      BitVec.and_self, BitVec.and_comm a]
  rw [hdistrib, BitVec.or_assoc, ha]

/-- One bit of `set_eq_iff`. -/
theorem set_eq_iff_bit : ∀ x m a b : Bool, (b && !m) = b → (a && b) = false →
    (((x && !m || (a || b)) && !m || a) = (x && !m || a) ↔ (x && b) = b) := by
  decide

/-- To set bits that are not cleared changes nothing exactly if they are set already. -/
theorem set_eq_iff (hb : b &&& ~~~m = b) (hab : a &&& b = 0#w) (x : BitVec w) :
    ((x &&& ~~~m ||| (a ||| b)) &&& ~~~m) ||| a = (x &&& ~~~m) ||| a ↔ x &&& b = b := by
  have hbit (i : ℕ) (hi : i < w) := set_eq_iff_bit (x.getLsbD i) (m.getLsbD i) (a.getLsbD i)
    (b.getLsbD i) (by simpa [hi] using congrArg (fun v => v.getLsbD i) hb)
    (by simpa using congrArg (fun v => v.getLsbD i) hab)
  constructor
  · intro h
    refine BitVec.eq_of_getLsbD_eq fun i hi => ?_
    rw [BitVec.getLsbD_and]
    exact (hbit i hi).mp (by simpa [hi] using congrArg (fun v => v.getLsbD i) h)
  · intro h
    refine BitVec.eq_of_getLsbD_eq fun i hi => ?_
    have hi' := (hbit i hi).mpr (by simpa using congrArg (fun v => v.getLsbD i) h)
    simpa [hi] using hi'

end masks

/-! ## Modes -/

/-- VMIN and VTIME are set once. -/
theorem update_cc_idem (cc : Fin 32 → BitVec 8) :
    update (update (update (update cc VMIN 1) VTIME 0) VMIN 1)
      VTIME 0 = update (update cc VMIN 1) VTIME 0 := by
  rw [update_comm (by decide : VTIME ≠ VMIN), update_idem, update_idem]

/-- IO mode after raw mode is IO mode. -/
theorem ioSettings_rawSettings (t : Termios) : ioSettings (rawSettings t) = ioSettings t := by
  unfold ioSettings rawSettings
  dsimp only
  rw [clear_set_clear_set (by decide), update_cc_idem]

/-- IO asks for nothing more the second time. -/
theorem ioSettings_idem (t : Termios) : ioSettings (ioSettings t) = ioSettings t := by
  unfold ioSettings
  dsimp only
  rw [clear_set_clear_set (by decide), update_cc_idem]

/-- IO mode changes nothing that raw mode leaves. -/
structure Direct (t : Termios) : Prop where
  iflag : t.c_iflag &&&
    ~~~(IGNBRK ||| BRKINT ||| PARMRK ||| ISTRIP ||| INLCR ||| IGNCR ||| ICRNL ||| IXON) = 0
  oflag : t.c_oflag &&& ~~~OPOST = 0
  lflag : t.c_lflag &&& ~~~(ECHO ||| ECHONL ||| ICANON ||| ISIG ||| IEXTEN) = 0
  cflag : t.c_cflag &&& (CREAD ||| CLOCAL) = CREAD ||| CLOCAL

/-- Raw mode after IO mode is raw mode for such settings only. -/
theorem rawSettings_ioSettings_iff (t : Termios) :
    rawSettings (ioSettings t) = rawSettings t ↔ Direct t := by
  have hc : (ioSettings t).c_cflag &&& ~~~(CSIZE ||| PARENB) ||| CS8 =
      t.c_cflag &&& ~~~(CSIZE ||| PARENB) ||| CS8 ↔
        t.c_cflag &&& (CREAD ||| CLOCAL) = CREAD ||| CLOCAL := by
    rw [← set_eq_iff (m := CSIZE ||| PARENB) (a := CS8) (by decide) (by decide)]
    rfl
  constructor
  · intro h
    refine ⟨?_, ?_, ?_, hc.mp (congrArg Termios.c_cflag h)⟩
    · exact (congrArg Termios.c_iflag h).symm.trans BitVec.zero_and
    · exact (congrArg Termios.c_oflag h).symm.trans BitVec.zero_and
    · exact (congrArg Termios.c_lflag h).symm.trans BitVec.zero_and
  · intro h
    have hc' := hc.mpr h.cflag
    unfold rawSettings
    rw [hc', h.iflag, h.oflag, h.lflag]
    unfold ioSettings
    dsimp only
    rw [update_cc_idem]
    rfl

/-- The settings of a mode, from the settings that the handle has saved. -/
def target (t : Termios) : LoopyTTYMode → Termios
  | .normal => t
  | .raw => rawSettings t
  | .io => ioSettings t

/-! ## Runs -/

/-- A handle and the settings of its terminal. -/
structure Console (T : Type) where
  tty : LoopyTTY T
  settings : Termios

/-- What `loopyTTYNew` makes on a terminal. -/
def Console.opened (id : ℕ) (terminal : T) (t : Termios) : Console T where
  tty := { id, terminal, mode := .normal, origTermios := t, origSaved := true }
  settings := t

/-- A handle that is returned is the one of an opened console. -/
theorem loopyTTYNew_opened {outcome : NewOutcome} {id : ℕ} {terminal : T} {t : Termios}
    {tty : LoopyTTY T} (h : loopyTTYNew outcome id terminal t = some tty) :
    tty = (Console.opened id terminal t).tty := by
  unfold loopyTTYNew at h
  split_ifs at h
  exact (Option.some.inj h).symm

inductive ModeCall
  | setMode (mode : LoopyTTYMode)
  | resetMode
deriving DecidableEq, Repr

/-- A call that succeeds. -/
def modeStep (c : Console T) (call : ModeCall) : Option (Console T) :=
  match call with
  | .setMode mode =>
    match loopyTTYSetMode c.tty mode true true c.settings with
    | (ok, tty, settings) => if ok then some ⟨tty, settings⟩ else none
  | .resetMode =>
    match loopyTTYResetMode c.tty true c.settings with
    | (ok, tty, settings) => if ok then some ⟨tty, settings⟩ else none

/-- Runs of calls that succeed. -/
abbrev ModeRun : Console T → List ModeCall → Console T → Prop :=
  Run modeStep fun _ _ => True

/-- The settings are those of the mode, whatever modes came before. -/
def Settled (c : Console T) : Prop := c.settings = target c.tty.origTermios c.tty.mode

/-- All settings that a run passes, given the saved ones. -/
structure ConsoleOK (t : Termios) (c : Console T) : Prop where
  saved : c.tty.origSaved = true
  orig : c.tty.origTermios = t
  settings : c.settings = target t c.tty.mode ∨
    c.tty.mode = .raw ∧ c.settings = rawSettings (ioSettings t)

/-- Raw mode is not set in IO mode, unless IO mode changes nothing that raw mode leaves. -/
def ModeCallOK (c : Console T) (call : ModeCall) : Prop :=
  call = .setMode .raw → c.tty.mode = .io → Direct c.tty.origTermios

variable {t : Termios} {c c' : Console T} {call : ModeCall} {calls calls' : List ModeCall}
  {id : ℕ} {terminal : T}

/-- An opened console has the settings that it found. -/
theorem ConsoleOK.opened (id : ℕ) (terminal : T) (t : Termios) :
    ConsoleOK t (Console.opened id terminal t) :=
  ⟨rfl, rfl, .inl rfl⟩

/-- A call, in the saved settings: the mode stays, or it is normal mode, or it is installed by
changing the current settings. -/
theorem modeStep_cases (h : ConsoleOK t c) (hstep : modeStep c call = some c') :
    c' = c ∧ call = .setMode c.tty.mode ∨
      c' = ⟨{ c.tty with mode := .normal }, t⟩ ∧ (call = .resetMode ∨ call = .setMode .normal) ∨
      c' = ⟨{ c.tty with mode := .raw }, rawSettings c.settings⟩ ∧ call = .setMode .raw ∧
        c.tty.mode ≠ .raw ∨
      c' = ⟨{ c.tty with mode := .io }, ioSettings c.settings⟩ ∧ call = .setMode .io ∧
        c.tty.mode ≠ .io := by
  cases call with
  | resetMode =>
    rw [modeStep, loopyTTYResetMode, if_neg (by simp [h.saved])] at hstep
    obtain rfl := Option.some.inj hstep
    exact .inr (.inl ⟨by rw [← h.orig], .inl rfl⟩)
  | setMode mode =>
    rw [modeStep, loopyTTYSetMode] at hstep
    by_cases hmode : mode = c.tty.mode
    · rw [if_pos hmode] at hstep
      obtain rfl := Option.some.inj hstep
      exact .inl ⟨rfl, by rw [hmode]⟩
    · rw [if_neg hmode] at hstep
      obtain rfl := Option.some.inj hstep
      cases mode with
      | normal => exact .inr (.inl ⟨by simp [LoopyTTY.install, h.saved, h.orig], .inr rfl⟩)
      | raw => exact .inr (.inr (.inl ⟨rfl, rfl, Ne.symm hmode⟩))
      | io => exact .inr (.inr (.inr ⟨rfl, rfl, Ne.symm hmode⟩))

/-- IO mode, from any settings that a run passes. -/
theorem ConsoleOK.io (h : ConsoleOK t c) : ioSettings c.settings = ioSettings t := by
  rcases h.settings with hset | ⟨-, hset⟩
  · rw [hset]
    cases c.tty.mode with
    | normal => rfl
    | raw => exact ioSettings_rawSettings t
    | io => exact ioSettings_idem t
  · rw [hset, ioSettings_rawSettings, ioSettings_idem]

/-- Every call leaves the settings of the mode that it sets. -/
theorem ConsoleOK.step (h : ConsoleOK t c) (hstep : modeStep c call = some c') :
    ConsoleOK t c' := by
  obtain ⟨rfl, -⟩ | ⟨rfl, -⟩ | ⟨rfl, -, hne⟩ | ⟨rfl, -, -⟩ := modeStep_cases h hstep
  · exact h
  · exact ⟨h.saved, h.orig, .inl rfl⟩
  · refine ⟨h.saved, h.orig, ?_⟩
    rcases h.settings with hset | ⟨hraw, -⟩
    · dsimp only
      rw [hset]
      cases hmode : c.tty.mode with
      | normal => exact .inl rfl
      | raw => exact absurd hmode hne
      | io => exact .inr ⟨rfl, rfl⟩
    · exact absurd hraw hne
  · exact ⟨h.saved, h.orig, .inl h.io⟩

/-- A call leaves the settings of its mode exactly if it is not raw mode after IO mode. -/
theorem Settled.step_iff (h : ConsoleOK t c) (hsettled : Settled c)
    (hstep : modeStep c call = some c') : Settled c' ↔ ModeCallOK c call := by
  have hset : c.settings = target t c.tty.mode := by rw [hsettled, h.orig]
  obtain ⟨rfl, rfl⟩ | ⟨rfl, hcall⟩ | ⟨rfl, rfl, hne⟩ | ⟨rfl, rfl, -⟩ := modeStep_cases h hstep
  · refine iff_of_true hsettled fun hcall hio => ?_
    rw [hio] at hcall
    cases hcall
  · refine iff_of_true h.orig.symm fun hraw _ => ?_
    rcases hcall with rfl | rfl <;> cases hraw
  · have hleft : Settled (⟨{ c.tty with mode := .raw }, rawSettings c.settings⟩ : Console T) ↔
        rawSettings (target t c.tty.mode) = rawSettings t := by
      unfold Settled
      rw [hset, h.orig]
      rfl
    rw [hleft]
    cases hmode : c.tty.mode with
    | normal =>
      refine iff_of_true rfl fun _ hio => ?_
      rw [hmode] at hio
      cases hio
    | raw => exact absurd hmode hne
    | io =>
      rw [ModeCallOK, h.orig]
      exact (rawSettings_ioSettings_iff t).trans ⟨fun hdirect _ _ => hdirect,
        fun hdirect => hdirect rfl hmode⟩
  · refine iff_of_true ?_ fun hcall => nomatch hcall
    unfold Settled
    dsimp only
    rw [h.io, h.orig]
    rfl

/-- So does every run. -/
theorem ConsoleOK.of_run (h : ModeRun (Console.opened id terminal t) calls c) : ConsoleOK t c :=
  h.invariant (fun _ _ _ hok _ hstep => hok.step hstep) (ConsoleOK.opened id terminal t)

/-- The last call of a run sets its mode. -/
theorem mode_of_run {mode : LoopyTTYMode}
    (h : ModeRun (Console.opened id terminal t) (calls ++ [.setMode mode]) c) :
    c.tty.mode = mode := by
  obtain ⟨c₁, hrun, hlast⟩ := h.split
  cases hlast with
  | cons _ hstep rest =>
    cases rest
    obtain ⟨rfl, hcall⟩ | ⟨rfl, hcall | hcall⟩ | ⟨rfl, hcall, -⟩ | ⟨rfl, hcall, -⟩ :=
      modeStep_cases (ConsoleOK.of_run hrun) hstep <;> cases hcall <;> rfl

/-- Two runs that end with the same mode end with the same settings. -/
def PathIndependent (id : ℕ) (terminal : T) (t : Termios) : Prop :=
  ∀ calls calls' mode c c', ModeRun (Console.opened id terminal t) (calls ++ [.setMode mode]) c →
    ModeRun (Console.opened id terminal t) (calls' ++ [.setMode mode]) c' →
    c.settings = c'.settings

/-- The two ways to raw mode. -/
theorem run_raw (id : ℕ) (terminal : T) (t : Termios) :
    ∃ c, ModeRun (Console.opened id terminal t) ([] ++ [.setMode .raw]) c ∧
      c.settings = rawSettings t :=
  ⟨_, .cons trivial rfl (.nil _), rfl⟩

/-- RAW after IO adds RAW to what IO has set. -/
theorem run_io_raw (id : ℕ) (terminal : T) (t : Termios) :
    ∃ c, ModeRun (Console.opened id terminal t) ([.setMode .io] ++ [.setMode .raw]) c ∧
      c.settings = rawSettings (ioSettings t) :=
  ⟨_, .cons trivial rfl (.cons trivial rfl (.nil _)), rfl⟩

/-- The way to a mode does not matter exactly if IO changes nothing that RAW leaves. -/
theorem pathIndependent_iff (id : ℕ) (terminal : T) (t : Termios) :
    PathIndependent id terminal t ↔ Direct t := by
  rw [← rawSettings_ioSettings_iff]
  constructor
  · intro h
    obtain ⟨c, hrun, hset⟩ := run_raw id terminal t
    obtain ⟨c', hrun', hset'⟩ := run_io_raw id terminal t
    rw [← hset, ← hset']
    exact h _ _ .raw c' c hrun' hrun
  · intro hdirect calls calls' mode c c' hrun hrun'
    have hsettings {calls : List ModeCall} {c : Console T}
        (h : ModeRun (Console.opened id terminal t) (calls ++ [.setMode mode]) c) :
        c.settings = target t mode := by
      have hmode := mode_of_run h
      rcases (ConsoleOK.of_run h).settings with hset | ⟨hraw, hset⟩
      · rw [hset, hmode]
      · rw [hset, hdirect, ← hmode, hraw]
        rfl
    rw [hsettings hrun, hsettings hrun']

/-- Along a run the settings are those of the mode exactly as long as raw mode is not set in IO
mode; and all runs agree exactly for the initial settings that IO mode changes in nothing that raw
mode leaves. -/
theorem setMode_settled_iff (id : ℕ) (terminal : T) (t : Termios) :
    (∀ calls c, ModeRun (Console.opened id terminal t) calls c →
      ((∀ calls' c', calls' <+: calls → ModeRun (Console.opened id terminal t) calls' c' →
        Settled c') ↔ Run modeStep ModeCallOK (Console.opened id terminal t) calls c)) ∧
      (PathIndependent id terminal t ↔ Direct t) := by
  refine ⟨fun calls c h => ?_, pathIndependent_iff id terminal t⟩
  exact h.always_iff (P := ConsoleOK t) (fun _ _ _ hok hstep => hok.step hstep)
    (fun _ _ _ hok hsettled hstep => hsettled.step_iff hok hstep)
    (ConsoleOK.opened id terminal t) rfl

/-- Settings with the flag `ECHOE`, as a shell has them. -/
def shellSettings : Termios where
  c_iflag := 0x4500
  c_oflag := 0x5
  c_cflag := 0xbf
  c_lflag := 0x8a3b
  c_line := 0
  c_cc := fun _ => 0
  c_ispeed := 15
  c_ospeed := 15

/-- Raw mode from IO mode, and from normal mode. -/
theorem raw_after_io_differs :
    ¬ ∀ (id : ℕ) (terminal : Unit) (t : Termios), PathIndependent id terminal t := by
  intro h
  have hdirect := (pathIndependent_iff 0 () shellSettings).mp (h 0 () shellSettings)
  exact absurd hdirect.oflag (by decide)

end Loopy.TTY
