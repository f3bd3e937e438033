import Loopy.Net.Addr

/-!
# Addresses that are not rejected

`loopyNetParseAddr` returns `false` only for brackets that are wrong: a text for the port that is none
leaves the default port, and a host that is too long is cut off. `parse_strict_iff` says for which
addresses that makes no difference.
-/

namespace Loopy.Net

open Loopy.Lib

/-! ## The promise -/

/-- The text of a port is empty, or a decimal number between 1 and 65535. -/
def GoodPort : Option (List Char) → Prop
  | none => True
  | some [] => True
  | some p => (∀ c ∈ p, c.isDigit = true) ∧
    1 ≤ Nat.ofDigitChars 10 p 0 ∧ Nat.ofDigitChars 10 p 0 ≤ 65535

/-- The port that an address has. -/
def portOf (defaultPort : ℤ) : Option (List Char) → ℤ
  | none => defaultPort
  | some [] => defaultPort
  | some p => Nat.ofDigitChars 10 p 0

/-- The address is in one of the forms, its port is good, and the host fits in the buffer. -/
structure WellFormed (addr : List Char) (hostLen : ℕ) (host : List Char)
    (text : Option (List Char)) : Prop where
  written : Written addr host text
  port : GoodPort text
  fits : host.length < hostLen

/-- The parser accepts exactly the addresses that are well formed, with their host and their port. -/
structure Strict (addr : List Char) (hostLen : ℕ) (defaultPort : ℤ) (r : ParsedAddr) : Prop where
  accepts : r.ok = true ↔ ∃ host text, WellFormed addr hostLen host text
  outputs : ∀ host text, WellFormed addr hostLen host text →
    r.host = some host ∧ r.port = some (portOf defaultPort text)

/-! ## When it is kept -/

section strict

variable {addr host : List Char} {text : Option (List Char)} {hostLen : ℕ} {defaultPort : ℤ}

theorem parsePort_good (h : GoodPort text) : parsePort defaultPort text = portOf defaultPort text := by
  match text with
  | none => rfl
  | some [] => rfl
  | some (c :: p) =>
    obtain ⟨hdigits, hlow, hhigh⟩ := h
    exact parsePort_digits hdigits hlow hhigh

/-- The parser accepts every address that is in one of the forms. -/
theorem parse_ok_iff :
    (loopyNetParseAddr addr hostLen defaultPort).ok = true ↔
      hostLen ≠ 0 ∧ ∃ host text, Written addr host text := by
  unfold loopyNetParseAddr
  by_cases hzero : hostLen = 0
  · rw [if_pos hzero]
    exact iff_of_false Bool.false_ne_true fun h => h.1 hzero
  · rw [if_neg hzero, and_iff_right hzero]
    cases hsplit : splitAddr addr with
    | none =>
      refine iff_of_false Bool.false_ne_true ?_
      rintro ⟨host, text, hwritten⟩
      rw [written_iff.mp hwritten] at hsplit
      cases hsplit
    | some parts => exact iff_of_true rfl ⟨parts.1, parts.2, written_iff.mpr hsplit⟩

end strict

/-- **Malformed addresses are rejected** in exactly these cases: no address can be accepted, or the
one that is written has a good port and a host that fits. -/
theorem parse_strict_iff (addr : List Char) (hostLen : ℕ) (defaultPort : ℤ) :
    Strict addr hostLen defaultPort (loopyNetParseAddr addr hostLen defaultPort) ↔
      hostLen = 0 ∨ ∀ host text, Written addr host text → GoodPort text ∧ host.length < hostLen := by
  constructor
  · intro hstrict
    by_cases hzero : hostLen = 0
    · exact .inl hzero
    · refine .inr fun host text hwritten => ?_
      obtain ⟨host', text', hformed⟩ :=
        hstrict.accepts.mp (parse_ok_iff.mpr ⟨hzero, host, text, hwritten⟩)
      have hsame := (written_iff.mp hwritten).symm.trans (written_iff.mp hformed.written)
      cases hsame
      exact ⟨hformed.port, hformed.fits⟩
  · intro hall
    refine ⟨parse_ok_iff.trans ⟨?_, ?_⟩, fun host text hformed => ?_⟩
    · rintro ⟨hzero, host, text, hwritten⟩
      obtain ⟨hport, hfits⟩ := hall.resolve_left hzero host text hwritten
      exact ⟨host, text, hwritten, hport, hfits⟩
    · rintro ⟨host, text, hwritten, -, hfits⟩
      exact ⟨Nat.ne_of_gt (Nat.zero_lt_of_lt hfits), host, text, hwritten⟩
    · rw [parseAddr_of_written hformed.written hformed.fits, parsePort_good hformed.port]
      exact ⟨rfl, rfl⟩

/-- The port is too large: the parser returns `true` with the default port. -/
theorem parse_not_strict :
    loopyNetParseAddr "localhost:99999".toList 100 80 =
      ⟨true, some "localhost".toList, some 80⟩ ∧
    ¬ Strict "localhost:99999".toList 100 80 (loopyNetParseAddr "localhost:99999".toList 100 80) := by
  refine ⟨by decide, fun hstrict => ?_⟩
  have hwritten : Written "localhost:99999".toList "localhost".toList (some "99999".toList) :=
    written_iff.mpr (by decide)
  obtain ⟨host, text, hformed⟩ := hstrict.accepts.mp (by decide)
  have hsame := (written_iff.mp hwritten).symm.trans (written_iff.mp hformed.written)
  cases hsame
  exact absurd hformed.port.2.2 (by decide)

end Loopy.Net
