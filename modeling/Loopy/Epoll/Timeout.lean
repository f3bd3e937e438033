import Mathlib.Algebra.Group.Int.Defs
import Mathlib.Algebra.Group.Nat.Defs

/-!
# The timeout of a blocking poll

`loopyProcessEvents` waits for the nearest timer: it splits the distance to the deadline into seconds
and microseconds, and `loopyInternalPoll` of the epoll adapter turns the two into milliseconds. That
last value is an `int`, and everything before it is 64 bits wide, so the wait is right for distances
below `2 ^ 31` milliseconds and is the low 32 bits of the right one beyond.
-/

namespace Loopy.Epoll

/-- `struct timeval` of a 64-bit system. -/
structure Timeval where
  tv_sec : Int64 := 0
  tv_usec : Int64 := 0
deriving DecidableEq, Repr

/-- How long until the next timer event. -/
def untilTimerEvent (shortest nowUs : UInt64) : Timeval :=
  let startOffsetUs := shortest.toInt64 - nowUs.toInt64
  if 0 < startOffsetUs then
    { tv_sec := startOffsetUs / 1000000, tv_usec := startOffsetUs % 1000000 }
  else {}

/-- The timeout that `loopyProcessEvents` hands to `loopyInternalPoll`; `none` is `NULL`. -/
def processEventsTimeout (hasTimers nowait : Bool) (shortest nowUs : UInt64) : Option Timeval :=
  if hasTimers && !nowait then
    if 0 < shortest then some (untilTimerEvent shortest nowUs)
    else none
  else if nowait then some {}
  else none

/-- The timeout that `loopyInternalPoll` hands to `epoll_wait`. -/
def timeoutMs (tvp : Option Timeval) : Int32 :=
  match tvp with
  | some tv => (tv.tv_sec * 1000 + tv.tv_usec / 1000).toInt32
  | none => -1

/-- The milliseconds from `now` to the deadline `d`. -/
def remainingMs (d now : UInt64) : ℤ :=
  max 0 ((d.toNat : ℤ) - now.toNat) / 1000

/-! ## Poll without a deadline -/

/-! ## Poll up to a deadline -/

/-- The 64-bit difference of two instants less than `2 ^ 63` apart is the difference. -/
theorem toInt_startOffsetUs {d now : UInt64}
    (hrange : ((d.toNat : ℤ) - now.toNat).natAbs < 2 ^ 63) :
    (d.toInt64 - now.toInt64).toInt = (d.toNat : ℤ) - now.toNat := by
  have hd : d.toInt64.toInt = (d.toNat : ℤ).bmod (2 ^ 64) := BitVec.toInt_eq_toNat_bmod d.toBitVec
  have hnow : now.toInt64.toInt = (now.toNat : ℤ).bmod (2 ^ 64) :=
    BitVec.toInt_eq_toNat_bmod now.toBitVec
  rw [Int64.toInt_sub, hd, hnow, Int.sub_bmod_bmod, Int.bmod_sub_bmod]
  exact Int.bmod_eq_of_le (by omega) (by omega)

/-- The seconds and the microseconds of an offset, in milliseconds and without overflow. -/
theorem toInt_split {x : Int64} (hx : 0 ≤ x.toInt) :
    (x / 1000000 * 1000 + x % 1000000 / 1000).toInt = x.toInt / 1000 := by
  have hlt := x.toInt_lt
  have hsec : (x / 1000000).toInt = x.toInt / 1000000 := by
    rw [Int64.toInt_div_of_ne_right x 1000000 (by decide)]
    exact Int.tdiv_eq_ediv_of_nonneg hx
  have husec : (x % 1000000).toInt = x.toInt % 1000000 := by
    rw [Int64.toInt_mod]
    exact Int.tmod_eq_emod_of_nonneg hx
  have hthousand : (1000 : Int64).toInt = 1000 := rfl
  have hfromSec : (x / 1000000 * 1000).toInt = x.toInt / 1000000 * 1000 := by
    rw [Int64.toInt_mul, hsec, hthousand]
    exact Int.bmod_eq_of_le (by omega) (by omega)
  have hfromUsec : (x % 1000000 / 1000).toInt = x.toInt % 1000000 / 1000 := by
    rw [Int64.toInt_div_of_ne_right _ 1000 (by decide), husec]
    exact Int.tdiv_eq_ediv_of_nonneg (by omega)
  rw [Int64.toInt_add, hfromSec, hfromUsec]
  calc (x.toInt / 1000000 * 1000 + x.toInt % 1000000 / 1000).bmod (2 ^ 64)
      = x.toInt / 1000000 * 1000 + x.toInt % 1000000 / 1000 :=
        Int.bmod_eq_of_le (by omega) (by omega)
    _ = x.toInt / 1000 := by omega

/-- The timeout is the low half of the milliseconds that remain. -/
theorem toInt_timeoutMs {d now : UInt64} (hd : 0 < d)
    (hrange : ((d.toNat : ℤ) - now.toNat).natAbs < 2 ^ 63) :
    (timeoutMs (processEventsTimeout true false d now)).toInt
      = (remainingMs d now).bmod (2 ^ 32) := by
  have hoffset := toInt_startOffsetUs hrange
  have htv : processEventsTimeout true false d now = some (untilTimerEvent d now) := by
    simp [processEventsTimeout, hd]
  rw [htv]
  unfold untilTimerEvent
  dsimp only
  split
  case isTrue hpos =>
    have hpos : 0 < (d.toInt64 - now.toInt64).toInt := Int64.lt_iff_toInt_lt.mp hpos
    have hms : remainingMs d now = (d.toInt64 - now.toInt64).toInt / 1000 := by
      unfold remainingMs
      omega
    rw [timeoutMs, Int64.toInt_toInt32, toInt_split (Int.le_of_lt hpos), hms]
  case isFalse hpos =>
    have hpos : ¬ 0 < (d.toInt64 - now.toInt64).toInt := fun h =>
      hpos (Int64.lt_iff_toInt_lt.mpr h)
    have hms : remainingMs d now = 0 := by
      unfold remainingMs
      omega
    rw [hms]
    rfl

/-- For a deadline less than `2 ^ 63` microseconds away the timeout is a time no longer than what
remains exactly if bit 31 of the remaining milliseconds is clear, and it is what remains exactly if
that fits an `int`. -/
theorem timeout_sound (d now : UInt64) (hd : 0 < d)
    (hrange : ((d.toNat : ℤ) - now.toNat).natAbs < 2 ^ 63) :
    let t := (timeoutMs (processEventsTimeout true false d now)).toInt
    let ms := remainingMs d now
    (0 ≤ t ∧ t ≤ ms ↔ ms % 2 ^ 32 < 2 ^ 31) ∧ ((0 ≤ t ∧ t ≤ ms) ∧ t = ms ↔ ms < 2 ^ 31) := by
  intro t ms
  have ht : t = ms.bmod (2 ^ 32) := toInt_timeoutMs hd hrange
  have hms : 0 ≤ ms := by
    simp only [ms, remainingMs]
    omega
  rw [Int.bmod_def] at ht
  constructor
  · constructor <;> intro h <;> split at ht <;> omega
  · constructor <;> intro h <;> split at ht <;> omega

/-- A timer in half a second. -/
theorem timeout_sound_halfSecond :
    let t := (timeoutMs (processEventsTimeout true false 1500000 1000000)).toInt
    let ms := remainingMs 1500000 1000000
    ms = 500 ∧ (0 ≤ t ∧ t ≤ ms) ∧ t = ms :=
  have hsound := timeout_sound 1500000 1000000 (by decide) (by decide +kernel)
  ⟨by decide +kernel, hsound.2.mpr (by decide +kernel)⟩

/-- With `2 ^ 31` milliseconds to the deadline the poll blocks forever. -/
theorem timeout_negative :
    ¬ ∀ d now : UInt64, 0 < d → ((d.toNat : ℤ) - now.toNat).natAbs < 2 ^ 63 →
      0 ≤ (timeoutMs (processEventsTimeout true false d now)).toInt := by
  intro h
  have hnonneg := h 2147484648000 1000000 (by decide) (by decide +kernel)
  exact absurd hnonneg (by decide +kernel)

end Loopy.Epoll
