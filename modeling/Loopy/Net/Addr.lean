import Loopy.Lib.Text

/-!
# `loopyNet.c`: addresses as text

`loopyNetParseAddr` and `loopyNetFormatAddr`, for pointers that are not null. A text is shorter than
2^31, so that no `int` that counts characters overflows.

The forms of an address are in `Written`: a text has at most one of them (`written_iff`).
-/

namespace Loopy.Net

open Loopy.Lib

/-! ## Parsing -/

/-- What a call leaves in its result and in its outputs; `none` is an output that is not written. -/
structure ParsedAddr where
  ok : Bool
  host : Option (List Char)
  port : Option ℤ
deriving DecidableEq, Repr

/-- The loop that counts the colons: their number, and where the last one is. -/
def scanColons : (p : ℕ) → List Char → ℕ × ℕ → ℕ × ℕ
  | _, [], r => r
  | p, c :: cs, (colonCount, lastColon) =>
    scanColons (p + 1) cs (if c = ':' then (colonCount + 1, p) else (colonCount, lastColon))

/-- The text between `hostStart` and `hostEnd`, and the one at `portStart`; `none` is an early
return. -/
def splitAddr : List Char → Option (List Char × Option (List Char))
  | '[' :: hostStart =>
    -- `strchr` finds the end of the host
    match hostStart.dropWhile (· ≠ ']') with
    | [] => none
    | _ :: ':' :: portStart => some (hostStart.takeWhile (· ≠ ']'), some portStart)
    | [_] => some (hostStart.takeWhile (· ≠ ']'), none)
    | _ => none
  | addr =>
    match scanColons 0 addr (0, 0) with
    | (1, lastColon) => some (addr.take lastColon, some (addr.drop (lastColon + 1)))
    | _ => some (addr, none)

/-- The port, if there is a text for it. -/
def parsePort (defaultPort : ℤ) : Option (List Char) → ℤ
  | none => defaultPort
  | some [] => defaultPort
  | some portStart =>
    let p := atoi portStart
    if 0 < p ∧ p ≤ 65535 then p else defaultPort

def loopyNetParseAddr (addr : List Char) (hostLen : ℕ) (defaultPort : ℤ) : ParsedAddr :=
  if hostLen = 0 then ⟨false, none, none⟩
  else
    match splitAddr addr with
    | none => ⟨false, none, some defaultPort⟩
    | some (host, portStart) =>
      let len := if host.length ≥ hostLen then hostLen - 1 else host.length
      ⟨true, some (host.take len), some (parsePort defaultPort portStart)⟩

/-! ## Formatting -/

def loopyNetFormatAddr (bufLen : ℕ) (ip : List Char) (port : ℤ) : ℕ × Option (List Char) :=
  snprintf bufLen
    (if ':' ∈ ip then '[' :: ip ++ ']' :: ':' :: decimal port else ip ++ ':' :: decimal port)

/-! ## The forms of an address -/

/-- An address is written with this host and this text for the port. -/
inductive Written : List Char → List Char → Option (List Char) → Prop
  | host (h : List Char) (hcolon : ':' ∉ h) (hbracket : h.head? ≠ some '[') : Written h h none
  | hostPort (h p : List Char) (hcolon : ':' ∉ h) (hport : ':' ∉ p) (hbracket : h.head? ≠ some '[') :
      Written (h ++ ':' :: p) h (some p)
  | bare (h : List Char) (hcolon : 2 ≤ h.count ':') (hbracket : h.head? ≠ some '[') : Written h h none
  | bracket (h : List Char) (hbracket : ']' ∉ h) : Written ('[' :: h ++ [']']) h none
  | bracketPort (h p : List Char) (hbracket : ']' ∉ h) :
      Written ('[' :: h ++ ']' :: ':' :: p) h (some p)

section forms

variable {addr h p rest : List Char} {text : Option (List Char)}

/-- The loop over a text without colons. -/
theorem scanColons_none {n : ℕ} {r : ℕ × ℕ} (hcolon : ':' ∉ h) :
    scanColons n (h ++ rest) r = scanColons (n + h.length) rest r := by
  induction h generalizing n with
  | nil => rfl
  | cons c h ih =>
    rw [List.mem_cons, not_or] at hcolon
    rw [List.cons_append, scanColons, if_neg (Ne.symm hcolon.1), ih hcolon.2, List.length_cons]
    congr 1
    omega

theorem scanColons_count {n : ℕ} {r : ℕ × ℕ} :
    (scanColons n addr r).1 = r.1 + addr.count ':' := by
  induction addr generalizing n r with
  | nil => rfl
  | cons c addr ih =>
    rw [scanColons, ih]
    split_ifs with hc
    · rw [hc, List.count_cons_self]
      omega
    · rw [List.count_cons_of_ne hc]

/-- A text that does not begin with a bracket. -/
theorem splitAddr_plain (hbracket : addr.head? ≠ some '[') :
    splitAddr addr =
      match scanColons 0 addr (0, 0) with
      | (1, lastColon) => some (addr.take lastColon, some (addr.drop (lastColon + 1)))
      | _ => some (addr, none) := by
  unfold splitAddr
  split
  · next rest => exact absurd rfl hbracket
  · rfl

theorem splitAddr_many (hbracket : addr.head? ≠ some '[') (hcolon : addr.count ':' ≠ 1) :
    splitAddr addr = some (addr, none) := by
  rw [splitAddr_plain hbracket]
  have hcount : (scanColons 0 addr (0, 0)).1 ≠ 1 := by
    rw [scanColons_count]
    omega
  split
  · next heq =>
    rw [heq] at hcount
    exact absurd rfl hcount
  · rfl

theorem splitAddr_one (hbracket : h.head? ≠ some '[') (hh : ':' ∉ h) (hp : ':' ∉ p) :
    splitAddr (h ++ ':' :: p) = some (h, some p) := by
  have hend : scanColons (h.length + 1) p (1, h.length) = (1, h.length) := by
    have hnone : scanColons (h.length + 1) (p ++ []) (1, h.length) = _ := scanColons_none hp
    rw [List.append_nil] at hnone
    exact hnone
  have hscan : scanColons 0 (h ++ ':' :: p) (0, 0) = (1, h.length) := by
    rw [scanColons_none hh, scanColons, if_pos rfl, Nat.zero_add, hend]
  have hhead : (h ++ ':' :: p).head? ≠ some '[' := by
    cases h with
    | nil => exact fun heq => absurd (Option.some.inj heq) (by decide)
    | cons c h => exact hbracket
  rw [splitAddr_plain hhead, hscan]
  change some ((h ++ ':' :: p).take h.length, some ((h ++ ':' :: p).drop (h.length + 1))) = _
  rw [List.take_left, ← List.drop_drop, List.drop_left, List.drop_one, List.tail_cons]

/-- A text that begins with a bracket. -/
theorem splitAddr_bracket (hbracket : ']' ∉ h) :
    splitAddr ('[' :: h ++ ']' :: rest) =
      match rest with
      | [] => some (h, none)
      | ':' :: portStart => some (h, some portStart)
      | _ => none := by
  rw [List.cons_append, splitAddr, dropWhile_until hbracket, takeWhile_until hbracket]
  split
  · next heq => cases heq
  · next heq =>
    cases heq
    rfl
  · next heq =>
    cases heq
    rfl
  · next hport hend =>
    cases rest with
    | nil => exact absurd rfl (hend _)
    | cons c rest =>
      split
      · next heq => cases heq
      · next heq =>
        cases heq
        exact absurd rfl (hport _ _)
      · rfl

theorem splitAddr_open (hbracket : ']' ∉ h) : splitAddr ('[' :: h) = none := by
  have hall : ∀ c ∈ h, decide (c ≠ ']') = true :=
    fun c hc => decide_eq_true fun heq => hbracket (heq ▸ hc)
  rw [splitAddr, List.dropWhile_eq_nil_iff.mpr hall]

/-- The host and the text of the port are what the parser finds. -/
theorem written_iff : Written addr h text ↔ splitAddr addr = some (h, text) := by
  constructor
  · rintro (⟨h, hcolon, hbracket⟩ | ⟨h, p, hcolon, hport, hbracket⟩ | ⟨h, hcolon, hbracket⟩ |
      ⟨h, hbracket⟩ | ⟨h, p, hbracket⟩)
    · refine splitAddr_many hbracket ?_
      rw [List.count_eq_zero_of_not_mem hcolon]
      exact Nat.zero_ne_one
    · exact splitAddr_one hbracket hcolon hport
    · exact splitAddr_many hbracket (by omega)
    · exact splitAddr_bracket hbracket
    · exact splitAddr_bracket hbracket
  · intro hsplit
    by_cases hhead : addr.head? = some '['
    · obtain ⟨s, rfl⟩ : ∃ s, addr = '[' :: s := List.head?_eq_some_iff.mp hhead
      by_cases hend : ']' ∈ s
      · obtain ⟨host, rest, rfl, hhost⟩ := exists_first hend
        rw [← List.cons_append, splitAddr_bracket hhost] at hsplit
        split at hsplit
        · cases hsplit
          exact .bracket _ hhost
        · cases hsplit
          exact .bracketPort _ _ hhost
        · cases hsplit
      · rw [splitAddr_open hend] at hsplit
        cases hsplit
    · rcases Nat.lt_trichotomy (addr.count ':') 1 with hnone | hone | hmany
      · rw [splitAddr_many hhead (by omega)] at hsplit
        cases hsplit
        exact .host addr (List.count_eq_zero.mp (by omega)) hhead
      · have hmem : ':' ∈ addr := List.count_pos_iff.mp (by omega)
        obtain ⟨host, port, rfl, hhost⟩ := exists_first hmem
        have hport : ':' ∉ port := by
          rw [List.count_append, List.count_cons_self] at hone
          exact List.count_eq_zero.mp (by omega)
        have hbracket : host.head? ≠ some '[' := by
          cases host with
          | nil => exact nofun
          | cons c host => exact hhead
        rw [splitAddr_one hbracket hhost hport] at hsplit
        cases hsplit
        exact .hostPort _ _ hhost hport hbracket
      · rw [splitAddr_many hhead (by omega)] at hsplit
        cases hsplit
        exact .bare addr (by omega) hhead

end forms

/-! ## Parsing undoes formatting -/

/-- What is written for a host and a port has them. -/
theorem written_format {ip : List Char} {port : ℕ} (hip : ']' ∉ ip) (hbracket : ip.head? ≠ some '[') :
    Written (if ':' ∈ ip then '[' :: ip ++ ']' :: ':' :: decimal port else ip ++ ':' :: decimal port)
      ip (some (decimal port)) := by
  split_ifs with hcolon
  · exact .bracketPort ip _ hip
  · refine .hostPort ip _ hcolon (fun hmem => ?_) hbracket
    exact absurd (isDigit_of_mem_decimal hmem) (by decide)

/-- A decimal number in the range of ports. -/
theorem parsePort_digits {p : List Char} {defaultPort : ℤ} (hdigits : ∀ c ∈ p, c.isDigit = true)
    (hlow : 1 ≤ Nat.ofDigitChars 10 p 0) (hhigh : Nat.ofDigitChars 10 p 0 ≤ 65535) :
    parsePort defaultPort (some p) = Nat.ofDigitChars 10 p 0 := by
  cases p with
  | nil => exact absurd hlow (by decide)
  | cons c p =>
    have hatoi := atoi_of_digits (List.cons_ne_nil c p) hdigits (by omega)
    change (if 0 < atoi (c :: p) ∧ atoi (c :: p) ≤ 65535 then atoi (c :: p) else defaultPort) = _
    rw [hatoi, if_pos (by omega)]

theorem parsePort_decimal {port : ℕ} {defaultPort : ℤ} (hlow : 1 ≤ port) (hhigh : port ≤ 65535) :
    parsePort defaultPort (some (decimal port)) = port := by
  have hvalue : Nat.ofDigitChars 10 (decimal port) 0 = port := ofDigitChars_decimal
  rw [parsePort_digits (fun c hc => isDigit_of_mem_decimal hc) (by omega) (by omega), hvalue]

/-- The parser, when the address is in one of the forms and the host fits. -/
theorem parseAddr_of_written {addr host : List Char} {text : Option (List Char)} {hostLen : ℕ}
    {defaultPort : ℤ} (h : Written addr host text) (hfits : host.length < hostLen) :
    loopyNetParseAddr addr hostLen defaultPort =
      ⟨true, some host, some (parsePort defaultPort text)⟩ := by
  rw [loopyNetParseAddr, if_neg (by omega), written_iff.mp h]
  dsimp only
  rw [if_neg (by omega), List.take_length]

/-- **Parsing undoes formatting.** -/
theorem parse_format {bufLen hostLen : ℕ} {ip : List Char} {port : ℕ} {defaultPort : ℤ}
    (hip : ']' ∉ ip) (hbracket : ip.head? ≠ some '[') (hlow : 1 ≤ port) (hhigh : port ≤ 65535)
    (hbuf : (loopyNetFormatAddr bufLen ip port).1 < bufLen) (hhost : ip.length < hostLen) :
    ∃ buf, (loopyNetFormatAddr bufLen ip port).2 = some buf ∧
      loopyNetParseAddr buf hostLen defaultPort = ⟨true, some ip, some port⟩ := by
  refine ⟨_, congrArg Prod.snd (snprintf_fits hbuf), ?_⟩
  rw [parseAddr_of_written (written_format hip hbracket) hhost, parsePort_decimal hlow hhigh]

/-- A host with colons, and the empty one. -/
theorem parse_format_colons :
    (∃ buf, (loopyNetFormatAddr 100 ['a', ':', ':', '1'] (9000 : ℕ)).2 = some buf ∧
      loopyNetParseAddr buf 100 80 = ⟨true, some ['a', ':', ':', '1'], some (9000 : ℕ)⟩) ∧
    ∃ buf, (loopyNetFormatAddr 6 [] (8080 : ℕ)).2 = some buf ∧
      loopyNetParseAddr buf 1 80 = ⟨true, some [], some (8080 : ℕ)⟩ :=
  ⟨parse_format (by decide) (by decide) (by decide) (by decide) (by decide) (by decide),
    parse_format (by decide) (by decide) (by decide) (by decide) (by decide) (by decide)⟩

end Loopy.Net
