import Mathlib.Algebra.Order.Ring.Int
import Mathlib.Data.List.TakeWhile

/-!
# Text

A text is the list of the characters of a C string. `long` has 64 bits and `int` has 32; `atoi` is
`(int)strtol(s, NULL, 10)`, so a number that does not fit in a `long` is the nearest one that does,
and of that the `int` has the low 32 bits.
-/

namespace Loopy.Lib

/-! ## Reading a number -/

/-- `isspace`. -/
def isspace (c : Char) : Bool := c = ' ' || ('\t' ≤ c && c ≤ '\r')

/-- The number that the digits at the beginning of a text are. -/
def leadingNat (s : List Char) : ℕ := Nat.ofDigitChars 10 (s.takeWhile Char.isDigit) 0

/-- `strtol(s, NULL, 10)`. -/
def strtol (s : List Char) : ℤ :=
  match s.dropWhile isspace with
  | '-' :: s => max (-leadingNat s : ℤ) (-2 ^ 63)
  | '+' :: s => min (leadingNat s : ℤ) (2 ^ 63 - 1)
  | s => min (leadingNat s : ℤ) (2 ^ 63 - 1)

def atoi (s : List Char) : ℤ := (strtol s).bmod (2 ^ 32)

/-! ## Writing -/

/-- `"%d"`. -/
def decimal (n : ℤ) : List Char :=
  if n < 0 then '-' :: Nat.toDigits 10 n.natAbs else Nat.toDigits 10 n.natAbs

/-- `snprintf` of a text: its length, and what is in the buffer; a buffer without room is not
written. -/
def snprintf (bufLen : ℕ) (text : List Char) : ℕ × Option (List Char) :=
  (text.length, if bufLen = 0 then none else some (text.take (bufLen - 1)))

/-! ## The first place of a character -/

section places

variable {s h rest : List Char} {c : Char}

theorem takeWhile_until (hc : c ∉ h) : (h ++ c :: rest).takeWhile (· ≠ c) = h := by
  have hall : ∀ a ∈ h, decide (a ≠ c) = true := fun a ha => decide_eq_true fun heq => hc (heq ▸ ha)
  rw [List.takeWhile_append_of_pos hall, List.takeWhile_cons_of_neg, List.append_nil]
  simp

theorem dropWhile_until (hc : c ∉ h) : (h ++ c :: rest).dropWhile (· ≠ c) = c :: rest := by
  have hall : ∀ a ∈ h, decide (a ≠ c) = true := fun a ha => decide_eq_true fun heq => hc (heq ▸ ha)
  rw [List.dropWhile_append_of_pos hall, List.dropWhile_cons_of_neg]
  simp

/-- The first place of a character that a text has. -/
theorem exists_first (hc : c ∈ s) : ∃ h rest, s = h ++ c :: rest ∧ c ∉ h := by
  induction s with
  | nil => cases hc
  | cons a s ih =>
    by_cases ha : a = c
    · exact ⟨[], s, by rw [ha]; rfl, List.not_mem_nil⟩
    · obtain ⟨h, rest, heq, hnot⟩ := ih ((List.mem_cons.mp hc).resolve_left (Ne.symm ha))
      exact ⟨a :: h, rest, by rw [heq]; rfl, List.not_mem_cons_of_ne_of_not_mem (Ne.symm ha) hnot⟩

end places

/-! ## Digits -/

section digits

variable {s : List Char} {c : Char} {n : ℕ}

theorem isspace_of_isDigit (h : c.isDigit = true) : isspace c = false := by
  rw [Char.isDigit, Bool.and_eq_true, decide_eq_true_eq, decide_eq_true_eq] at h
  have hspace : c ≠ ' ' := by
    rintro rfl
    exact absurd h.1 (by decide)
  have hcontrol : ¬ c ≤ '\r' := fun hle => by
    have hchain : (48 : UInt32) ≤ 13 := UInt32.le_trans h.1 hle
    exact absurd hchain (by decide)
  rw [isspace, decide_eq_false hspace, decide_eq_false hcontrol, Bool.and_false, Bool.or_false]

theorem leadingNat_of_digits (h : ∀ c ∈ s, c.isDigit = true) :
    leadingNat s = Nat.ofDigitChars 10 s 0 := by
  rw [leadingNat, List.takeWhile_eq_self_iff.mpr h]

/-- A text that begins with a digit has neither space nor sign in front. -/
theorem strtol_of_isDigit (h : c.isDigit = true) :
    strtol (c :: s) = min (leadingNat (c :: s) : ℤ) (2 ^ 63 - 1) := by
  have hdrop : (c :: s).dropWhile isspace = c :: s := by
    rw [List.dropWhile_cons_of_neg]
    rw [isspace_of_isDigit h]
    exact Bool.false_ne_true
  unfold strtol
  rw [hdrop]
  split
  · next heq =>
    cases heq
    cases h
  · next heq =>
    cases heq
    cases h
  · rfl

/-- `atoi` of a decimal number that an `int` can hold. -/
theorem atoi_of_digits (hne : s ≠ []) (hdigits : ∀ c ∈ s, c.isDigit = true)
    (hint : Nat.ofDigitChars 10 s 0 < 2 ^ 31) : atoi s = Nat.ofDigitChars 10 s 0 := by
  cases s with
  | nil => exact absurd rfl hne
  | cons c s =>
    rw [atoi, strtol_of_isDigit (hdigits c List.mem_cons_self), leadingNat_of_digits hdigits]
    have hmin : min ((Nat.ofDigitChars 10 (c :: s) 0 : ℕ) : ℤ) (2 ^ 63 - 1) =
        (Nat.ofDigitChars 10 (c :: s) 0 : ℕ) := by
      omega
    rw [hmin]
    apply Int.bmod_eq_of_le <;> omega

theorem decimal_of_nonneg (n : ℕ) : decimal n = Nat.toDigits 10 n := by
  rw [decimal, if_neg (by omega), Int.natAbs_natCast]

theorem isDigit_of_mem_decimal (h : c ∈ decimal n) : c.isDigit = true := by
  rw [decimal_of_nonneg] at h
  exact Nat.isDigit_of_mem_toDigits (by omega) (by omega) h

theorem ofDigitChars_decimal : Nat.ofDigitChars 10 (decimal n) 0 = n := by
  rw [decimal_of_nonneg, Nat.ofDigitChars_ten_toDigits]

end digits

/-- A buffer with room for the text and its terminator. -/
theorem snprintf_fits {bufLen : ℕ} {text : List Char} (h : text.length < bufLen) :
    snprintf bufLen text = (text.length, some text) := by
  rw [snprintf, if_neg (by omega), List.take_of_length_le (by omega)]

end Loopy.Lib
