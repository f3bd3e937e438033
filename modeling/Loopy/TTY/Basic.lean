import Loopy.Lib.Keyed

/-!
# `loopyTTY.c`

Terminal handles. A handle saves the settings that it finds when it is made; each mode is installed
by changing the settings that the terminal has, or by writing the saved ones back. The flags are the
ones of Linux. Whether `isatty`, `zcalloc`, `tcgetattr`, `tcsetattr` and `loopyStreamFromFd` succeed
is an input; the terminal of a handle is the one that its descriptor stands for.
-/

namespace Loopy.TTY

open Loopy.Lib
open Function (update)

/-! ## Settings -/

/-- `struct termios`. -/
structure Termios where
  c_iflag : BitVec 32
  c_oflag : BitVec 32
  c_cflag : BitVec 32
  c_lflag : BitVec 32
  c_line : BitVec 8
  c_cc : Fin 32 → BitVec 8
  c_ispeed : BitVec 32
  c_ospeed : BitVec 32

def IGNBRK : BitVec 32 := 0x1
def BRKINT : BitVec 32 := 0x2
def PARMRK : BitVec 32 := 0x8
def ISTRIP : BitVec 32 := 0x20
def INLCR : BitVec 32 := 0x40
def IGNCR : BitVec 32 := 0x80
def ICRNL : BitVec 32 := 0x100
def IXON : BitVec 32 := 0x400

def OPOST : BitVec 32 := 0x1

def ISIG : BitVec 32 := 0x1
def ICANON : BitVec 32 := 0x2
def ECHO : BitVec 32 := 0x8
def ECHONL : BitVec 32 := 0x40
def IEXTEN : BitVec 32 := 0x8000

def CSIZE : BitVec 32 := 0x30
def CS8 : BitVec 32 := 0x30
def CREAD : BitVec 32 := 0x80
def PARENB : BitVec 32 := 0x100
def CLOCAL : BitVec 32 := 0x800

def VTIME : Fin 32 := 5
def VMIN : Fin 32 := 6

/-- `loopyTTYMode`. -/
inductive LoopyTTYMode
  | normal
  | raw
  | io
deriving DecidableEq, Repr

/-! ## Handles -/

/-- `loopyTTY`; `id` is the pointer, `terminal` what `fd` stands for. -/
structure LoopyTTY (T : Type) where
  id : ℕ
  terminal : T
  mode : LoopyTTYMode
  origTermios : Termios
  origSaved : Bool

variable {T : Type}

/-- Which of the calls that `loopyTTYNew` makes succeed. -/
structure NewOutcome where
  isatty : Bool
  zcalloc : Bool
  tcgetattr : Bool
  streamFromFd : Bool
deriving DecidableEq, Repr

/-- `loopyTTYNew`, up to `ttyAddToList`. -/
def loopyTTYNew (outcome : NewOutcome) (id : ℕ) (terminal : T) (settings : Termios) :
    Option (LoopyTTY T) :=
  if ¬outcome.isatty then none
  else if ¬outcome.zcalloc then none
  else if ¬outcome.tcgetattr then none
  else if ¬outcome.streamFromFd then none
  else some { id, terminal, mode := .normal, origTermios := settings, origSaved := true }

/-- The settings `t` changed to those of raw mode. -/
def rawSettings (t : Termios) : Termios :=
  { t with
    c_iflag := t.c_iflag &&&
      ~~~(IGNBRK ||| BRKINT ||| PARMRK ||| ISTRIP ||| INLCR ||| IGNCR ||| ICRNL ||| IXON)
    c_oflag := t.c_oflag &&& ~~~OPOST
    c_lflag := t.c_lflag &&& ~~~(ECHO ||| ECHONL ||| ICANON ||| ISIG ||| IEXTEN)
    c_cflag := (t.c_cflag &&& ~~~(CSIZE ||| PARENB)) ||| CS8
    c_cc := update (update t.c_cc VMIN 1) VTIME 0 }

/-- The settings `t` changed to those of IO mode. -/
def ioSettings (t : Termios) : Termios :=
  { t with
    c_iflag := 0
    c_oflag := 0
    c_lflag := 0
    c_cflag := (t.c_cflag &&& ~~~(CSIZE ||| PARENB)) ||| (CS8 ||| CREAD ||| CLOCAL)
    c_cc := update (update t.c_cc VMIN 1) VTIME 0 }

/-- The `switch` of `loopyTTYSetMode`. -/
def LoopyTTY.install (tty : LoopyTTY T) (mode : LoopyTTYMode) (t : Termios) : Termios :=
  match mode with
  | .normal => if tty.origSaved then tty.origTermios else t
  | .raw => rawSettings t
  | .io => ioSettings t

/-- `loopyTTYSetMode`: its value, the handle and the settings of the terminal. -/
def loopyTTYSetMode (tty : LoopyTTY T) (mode : LoopyTTYMode) (tcgetattr tcsetattr : Bool)
    (settings : Termios) : Bool × LoopyTTY T × Termios :=
  if mode = tty.mode then (true, tty, settings)
  else if ¬tcgetattr then (false, tty, settings)
  else
    let t := tty.install mode settings
    if ¬tcsetattr then (false, tty, settings)
    else (true, { tty with mode := mode }, t)

/-- `loopyTTYResetMode`. -/
def loopyTTYResetMode (tty : LoopyTTY T) (tcsetattr : Bool) (settings : Termios) :
    Bool × LoopyTTY T × Termios :=
  if ¬tty.origSaved then (false, tty, settings)
  else if ¬tcsetattr then (false, tty, settings)
  else (true, { tty with mode := .normal }, tty.origTermios)

/-! ## All terminals -/

/-- The settings of every terminal, and `ttyList`, the newest handle first. -/
structure World (T : Type) where
  settings : T → Termios
  ttyList : List (LoopyTTY T)
  nextId : ℕ

/-- `ttyAddToList`. -/
def ttyAddToList (tty : LoopyTTY T) (ttyList : List (LoopyTTY T)) : List (LoopyTTY T) :=
  tty :: ttyList

/-- `ttyRemoveFromList`. -/
def ttyRemoveFromList (id : ℕ) (ttyList : List (LoopyTTY T)) : List (LoopyTTY T) :=
  removeKey LoopyTTY.id id ttyList

variable [DecidableEq T]

/-- `tcsetattr` that succeeds. -/
def World.tcsetattr (w : World T) (terminal : T) (t : Termios) : World T :=
  { w with settings := update w.settings terminal t }

/-- The walk of `loopyTTYResetAll` along the list: the settings it leaves. -/
def resetSettings (settings : T → Termios) (ttyList : List (LoopyTTY T)) : T → Termios :=
  ttyList.foldl
    (fun settings tty =>
      if tty.origSaved then update settings tty.terminal tty.origTermios else settings)
    settings

/-- `loopyTTYResetAll`, where every `tcsetattr` succeeds. -/
def loopyTTYResetAll (w : World T) : World T :=
  { w with
    settings := resetSettings w.settings w.ttyList
    ttyList := w.ttyList.map fun tty =>
      if tty.origSaved then { tty with mode := .normal } else tty }

/-- `loopyTTYFree`, where `tcsetattr` succeeds. -/
def loopyTTYFree (tty : LoopyTTY T) (w : World T) : World T :=
  let w := if tty.origSaved then w.tcsetattr tty.terminal tty.origTermios else w
  { w with ttyList := ttyRemoveFromList tty.id w.ttyList }

end Loopy.TTY
