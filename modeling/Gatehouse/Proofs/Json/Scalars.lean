import Gatehouse.Json.Printer
import Gatehouse.Json.Read
import Gatehouse.Proofs.Json.Reading
import Gatehouse.Proofs.Text.Utf8

/-!
# Written strings and integers

A string that is written is read as that string, and an integer of the 64-bit ranges as that
integer.  A string ends by itself; an integer ends where no digit, point or exponent follows.
-/

namespace Gatehouse.Json

open Text.Utf8 (Spells encodeChars spells_utf8EncodeChar toNat_byte)

/-! ## Strings -/

theorem quotedBytes_skip (position : Nat) (skipped rest : List UInt8) :
    quotedBytes skipped.length position (skipped ++ rest) =
      quotedBytes 0 (position + skipped.length) rest := by
  induction skipped generalizing position with
  | nil => rfl
  | cons b skipped ih =>
      rw [List.length_cons, List.cons_append, quotedBytes, ih, Nat.add_right_comm, Nat.add_assoc]

/-- Bytes that stand for themselves are taken as they are. -/
theorem quotedBytes_plain {plain rest bytes : List UInt8} {position stop : Nat}
    (hplain : ∀ b ∈ plain, 32 ≤ b.toNat ∧ b ≠ 34 ∧ b ≠ 92)
    (h : quotedBytes 0 (position + plain.length) rest = .ok (bytes, stop)) :
    quotedBytes 0 position (plain ++ rest) = .ok (plain ++ bytes, stop) := by
  induction plain generalizing position with
  | nil => exact h
  | cons b plain ih =>
      obtain ⟨⟨hcontrol, hquote, hslash⟩, hrest⟩ := List.forall_mem_cons.mp hplain
      have hnot : ¬b < 32 := by
        rw [UInt8.lt_iff_toNat_lt]
        exact Nat.not_lt.mpr hcontrol
      rw [List.length_cons, Nat.add_comm plain.length, ← Nat.add_assoc] at h
      rw [List.cons_append, quotedBytes, if_neg hquote, if_neg hslash, if_neg hnot, ih hrest h]
      rfl

/-- An escape is taken as the character that it stands for. -/
theorem quotedBytes_escape {c : Char} {taken rest bytes : List UInt8} {position stop : Nat}
    (hescape : escape (taken ++ rest) = .ok (c.toNat, taken.length))
    (h : quotedBytes 0 (position + 1 + taken.length) rest = .ok (bytes, stop)) :
    quotedBytes 0 position (92 :: taken ++ rest) =
      .ok (String.utf8EncodeChar c ++ bytes, stop) := by
  rw [List.cons_append, quotedBytes, if_neg (by decide), if_pos rfl, hescape]
  simp only [quotedBytes_skip, h, Char.ofNat_toNat]
  rfl

def hexByte (n : Nat) : UInt8 := UInt8.ofNat (Text.Hex.digit n).toNat

theorem value?_hexByte {n : Nat} (h : n < 16) :
    Text.Hex.value? (hexByte n).toNat = some n := by
  decide +revert

theorem encodeChars_hex {m n : Nat} (hm : m < 16) (hn : n < 16) :
    encodeChars ['u', '0', '0', Text.Hex.digit m, Text.Hex.digit n] =
      [117, 48, 48, hexByte m, hexByte n] := by
  have hdigit {n : Nat} (h : n < 16) : (Text.Hex.digit n).toNat < 128 := by
    decide +revert
  apply Text.Utf8.encodeChars_of_ascii
  simp only [List.forall_mem_cons, List.not_mem_nil, false_implies, implies_true, and_true]
  exact ⟨by decide, by decide, by decide, hdigit hm, hdigit hn⟩

/-- A control character is read from its escape. -/
theorem escape_hex {n : Nat} (h : n < 32) (rest : List UInt8) :
    escape (117 :: 48 :: 48 :: hexByte (n / 16) :: hexByte (n % 16) :: rest) = .ok (n, 5) := by
  have hzero : Text.Hex.value? (UInt8.toNat 48) = some 0 := rfl
  have hvalue : 0 * 4096 + 0 * 256 + n / 16 * 16 + n % 16 = n := by omega
  simp only [escape, hexEscape, List.map_cons, List.map_nil, hzero,
    value?_hexByte (show n / 16 < 16 by omega), value?_hexByte (show n % 16 < 16 by omega), hvalue]
  rw [if_neg (by omega), if_pos (by omega)]

/-- A character is written as itself, or as an escape that stands for it. -/
theorem escapeChar_cases (c : Char) :
    (escapeChar c = [c] ∧ 32 ≤ c.toNat ∧ c ≠ '"' ∧ c ≠ '\\') ∨
      ∃ marks, escapeChar c = '\\' :: marks ∧ ∀ rest,
        escape (encodeChars marks ++ rest) = .ok (c.toNat, (encodeChars marks).length) := by
  unfold escapeChar
  split
  · next h => exact .inr ⟨_, rfl, fun rest => by subst h; rfl⟩
  split
  · next h => exact .inr ⟨_, rfl, fun rest => by subst h; rfl⟩
  split
  · next hcontrol =>
      right
      split
      · next h => exact ⟨_, rfl, fun rest => by subst h; rfl⟩
      split
      · next h => exact ⟨_, rfl, fun rest => by subst h; rfl⟩
      split
      · next h => exact ⟨_, rfl, fun rest => by subst h; rfl⟩
      split
      · next h => exact ⟨_, rfl, fun rest => by rw [h]; rfl⟩
      split
      · next h => exact ⟨_, rfl, fun rest => by rw [h]; rfl⟩
      · refine ⟨_, rfl, fun rest => ?_⟩
        rw [encodeChars_hex (by omega) (by omega)]
        exact escape_hex hcontrol rest
  · next hquote hslash hcontrol => exact .inl ⟨rfl, Nat.not_lt.mp hcontrol, hquote, hslash⟩

/-- The bytes of a character that is written as itself stand for themselves. -/
theorem plain_utf8EncodeChar {c : Char} (hcontrol : 32 ≤ c.toNat) (hquote : c ≠ '"')
    (hslash : c ≠ '\\') :
    ∀ b ∈ String.utf8EncodeChar c, 32 ≤ b.toNat ∧ b ≠ 34 ∧ b ≠ 92 := by
  have hquote' : c.toNat ≠ 34 := fun h => hquote (Char.toNat_inj.mp h)
  have hslash' : c.toNat ≠ 92 := fun h => hslash (Char.toNat_inj.mp h)
  have hspells := spells_utf8EncodeChar c
  generalize String.utf8EncodeChar c = bytes, c.toNat = v at *
  have hbyte {n : Nat} (h : n < 256) (hcontrol : 32 ≤ n) (hquote : n ≠ 34) (hslash : n ≠ 92) :
      32 ≤ (UInt8.ofNat n).toNat ∧ UInt8.ofNat n ≠ 34 ∧ UInt8.ofNat n ≠ 92 := by
    rw [ne_eq, ne_eq, ← UInt8.toNat_inj, ← UInt8.toNat_inj, toNat_byte h]
    exact ⟨hcontrol, hquote, hslash⟩
  cases hspells <;>
    simp only [List.forall_mem_cons, List.not_mem_nil, false_implies, implies_true, and_true]
  case one => exact hbyte (by omega) hcontrol hquote' hslash'
  case two => constructor <;> apply hbyte <;> omega
  case three => refine ⟨?_, ?_, ?_⟩ <;> apply hbyte <;> omega
  case four => refine ⟨?_, ?_, ?_, ?_⟩ <;> apply hbyte <;> omega

/-- A character inside a string is read as it was written. -/
theorem quotedBytes_escapeChar (c : Char) {rest bytes : List UInt8} {position stop : Nat}
    (h : quotedBytes 0 (position + (encodeChars (escapeChar c)).length) rest =
      .ok (bytes, stop)) :
    quotedBytes 0 position (encodeChars (escapeChar c) ++ rest) =
      .ok (String.utf8EncodeChar c ++ bytes, stop) := by
  obtain ⟨hwritten, hcontrol, hquote, hslash⟩ | ⟨marks, hwritten, hescape⟩ := escapeChar_cases c
  · have hplain : encodeChars [c] = String.utf8EncodeChar c := List.append_nil _
    rw [hwritten, hplain] at h ⊢
    exact quotedBytes_plain (plain_utf8EncodeChar hcontrol hquote hslash) h
  · have hbytes : encodeChars ('\\' :: marks) = 92 :: encodeChars marks := rfl
    rw [hwritten, hbytes] at h ⊢
    rw [List.length_cons, Nat.add_comm (encodeChars marks).length, ← Nat.add_assoc] at h
    exact quotedBytes_escape (hescape rest) h

/-- A string is read as it was written, up to its closing quote. -/
theorem quotedBytes_written (cs : List Char) (position : Nat) (rest : List UInt8) :
    quotedBytes 0 position (encodeChars (cs.flatMap escapeChar) ++ 34 :: rest) =
      .ok (encodeChars cs, position + (encodeChars (cs.flatMap escapeChar)).length + 1) := by
  induction cs generalizing position with
  | nil => rfl
  | cons c cs ih =>
      rw [List.flatMap_cons, Text.Utf8.encodeChars_append, List.append_assoc,
        quotedBytes_escapeChar c (ih _), List.length_append, ← Nat.add_assoc]
      rfl

def quotedRest (s : String) : List UInt8 := encodeChars (s.toList.flatMap escapeChar) ++ [34]

/-! ## Integers -/

def decimal (n : Nat) : List UInt8 := encodeChars (Nat.toDigits 10 n)

theorem digit_bounds {n : Nat} {c : Char} (h : c ∈ Nat.toDigits 10 n) :
    48 ≤ c.toNat ∧ c.toNat ≤ 57 := by
  have hdigit := Nat.isDigit_of_mem_toDigits (by decide) (by decide) h
  simp only [Char.isDigit, Bool.and_eq_true, decide_eq_true_eq] at hdigit
  exact hdigit

theorem decimal_eq (n : Nat) :
    decimal n = (Nat.toDigits 10 n).map fun c => UInt8.ofNat c.toNat :=
  Text.Utf8.encodeChars_of_ascii fun c hc => by
    have hbounds := digit_bounds hc
    omega

theorem toNat_digit {n : Nat} {c : Char} (h : c ∈ Nat.toDigits 10 n) :
    (UInt8.ofNat c.toNat).toNat = c.toNat := by
  have hbounds := digit_bounds h
  exact toNat_byte (by omega)

theorem isDigit_of_mem_decimal {n : Nat} {b : UInt8} (h : b ∈ decimal n) : isDigit b = true := by
  rw [decimal_eq] at h
  obtain ⟨c, hc, rfl⟩ := List.mem_map.mp h
  simpa only [isDigit, UInt8.le_iff_toNat_le, toNat_digit hc, UInt8.reduceToNat,
    Bool.and_eq_true, decide_eq_true_eq] using digit_bounds hc

theorem map_digitValue_decimal (n : Nat) :
    (decimal n).map digitValue = (Nat.toDigits 10 n).map fun c => c.toNat - 48 := by
  rw [decimal_eq, List.map_map]
  apply List.map_congr_left
  intro c hc
  rw [Function.comp_apply, digitValue, toNat_digit hc]

theorem le_ofDigitChars (cs : List Char) (significand : Nat) :
    significand ≤ Nat.ofDigitChars 10 cs significand := by
  induction cs generalizing significand with
  | nil => exact le_rfl
  | cons c cs ih =>
      rw [Nat.ofDigitChars_cons]
      calc significand
          ≤ 10 * significand + (c.toNat - '0'.toNat) := by omega
        _ ≤ Nat.ofDigitChars 10 cs (10 * significand + (c.toNat - '0'.toNat)) := ih _

/-- Digits whose value fits are all taken. -/
theorem takeInteger_digits {cs : List Char} {significand : Nat}
    (h : Nat.ofDigitChars 10 cs significand ≤ maxSignificand) :
    takeInteger significand (cs.map fun c => c.toNat - 48) =
      (Nat.ofDigitChars 10 cs significand, 0) := by
  induction cs generalizing significand with
  | nil => rfl
  | cons c cs ih =>
      have hsame : significand * 10 + (c.toNat - 48) = 10 * significand + (c.toNat - '0'.toNat) := by
        rw [Nat.mul_comm]
        rfl
      rw [Nat.ofDigitChars_cons] at h ⊢
      have hfits : ¬10 * significand + (c.toNat - '0'.toNat) > maxSignificand :=
        Nat.not_lt.mpr ((le_ofDigitChars cs _).trans h)
      rw [List.map_cons, takeInteger, hsame, if_neg hfits, ih h]

/-- Only zero is written with a zero in front. -/
theorem toDigits_eq_cons {n : Nat} (h : 0 < n) :
    ∃ c cs, Nat.toDigits 10 n = c :: cs ∧ c ≠ '0' := by
  induction n using Nat.strong_induction_on with
  | _ n ih =>
      by_cases hsmall : n < 10
      · have hdigit : ∀ n < 10, 0 < n → n.digitChar ≠ '0' := by decide
        exact ⟨_, _, Nat.toDigits_of_lt_base hsmall, hdigit n hsmall h⟩
      · obtain ⟨c, cs, hcs, hc⟩ := ih (n / 10) (by omega) (by omega)
        rw [Nat.toDigits_of_base_le (by decide) (by omega), hcs, List.cons_append]
        exact ⟨_, _, rfl, hc⟩

/-- The first digit of a number other than zero is not zero. -/
theorem decimal_eq_cons {n : Nat} (h : 0 < n) :
    ∃ b rest, decimal n = b :: rest ∧ isDigit b = true ∧ b ≠ 48 := by
  obtain ⟨c, cs, hcs, hc⟩ := toDigits_eq_cons h
  have hmem : c ∈ Nat.toDigits 10 n := by
    rw [hcs]
    exact List.mem_cons_self
  have hdecimal : decimal n = UInt8.ofNat c.toNat :: cs.map fun c => UInt8.ofNat c.toNat := by
    rw [decimal_eq, hcs, List.map_cons]
  refine ⟨_, _, hdecimal, isDigit_of_mem_decimal (hdecimal ▸ List.mem_cons_self), fun hzero => hc ?_⟩
  rw [← UInt8.toNat_inj, toNat_digit hmem] at hzero
  exact Char.toNat_inj.mp hzero

theorem decimal_begins (n : Nat) : ∃ b rest, decimal n = b :: rest ∧ isDigit b = true := by
  obtain rfl | hpos := Nat.eq_zero_or_pos n
  · exact ⟨48, [], rfl, rfl⟩
  · obtain ⟨b, rest, hdecimal, hdigit, -⟩ := decimal_eq_cons hpos
    exact ⟨b, rest, hdecimal, hdigit⟩

/-- A value ends where the text ends, or where a comma or a closing bracket follows. -/
def EndsValue (after : List UInt8) : Prop :=
  ∀ b, after.head? = some b → b = 44 ∨ b = 93 ∨ b = 125

namespace Reader

theorem spans_quoted (s : String) (after : List UInt8) :
    Spans quoted (quotedRest s ++ after) (quotedRest s).length s := by
  intro c hc
  rw [quotedRest, List.append_assoc] at hc
  rw [quoted, hc, List.singleton_append, quotedBytes_written, Nat.zero_add, quotedRest,
    List.length_append, List.length_singleton]
  dsimp only
  rw [← Text.Utf8.encode_eq, Text.Utf8.decode_encode]

variable {after : List UInt8}

theorem spans_digits {ds : List UInt8} (hds : ∀ b ∈ ds, isDigit b = true)
    (hafter : EndsValue after) : Spans digits (ds ++ after) ds.length (ds.map digitValue) := by
  have hstop : after.takeWhile isDigit = [] := by
    cases after with
    | nil => rfl
    | cons b rest =>
        have hb : isDigit b = false := by
          obtain rfl | rfl | rfl := hafter b rfl <;> rfl
        rw [List.takeWhile_cons, hb, if_neg Bool.false_ne_true]
  have htaken : (ds ++ after).takeWhile isDigit = ds := by
    rw [List.takeWhile_append_of_pos hds, hstop, List.append_nil]
  have hspans := Spans.takeWhile isDigit (ds ++ after)
  rw [htaken] at hspans
  exact hspans.bind (f := fun ds => pure (ds.map digitValue)) (.pure _ _)

def signed (positive : Bool) (n : Nat) : Int := if positive then n else -n

/-- Whether the magnitude is one that a sign stands in front of. -/
def Fits (positive : Bool) (n : Nat) : Prop :=
  if positive then n ≤ maxSignificand else 0 < n ∧ n ≤ Nat.pow 2 63

theorem Fits.le_maxSignificand {positive : Bool} {n : Nat} (h : Fits positive n) :
    n ≤ maxSignificand := by
  cases positive with
  | true => exact h
  | false => exact h.2.trans (by decide)

theorem spans_afterInteger {positive : Bool} {n : Nat} (h : Fits positive n)
    (hafter : EndsValue after) :
    Spans (afterInteger positive n 0) after 0 (.int (signed positive n)) := by
  have hends : after.head? = none ∨ after.head? = some 44 ∨ after.head? = some 93 ∨
      after.head? = some 125 := by
    cases hhead : after.head? with
    | none => exact .inl rfl
    | some b => obtain rfl | rfl | rfl := hafter b hhead <;> simp
  have hnumber : Spans (if 0 > 0 then finishDouble positive n 0
      else if positive then return .int n
      else if n = 0 ∨ n > Nat.pow 2 63 then return withSign false (Binary64.ofInt n)
      else return .int (-(n : Int))) after 0 (.int (signed positive n)) := by
    rw [if_neg (lt_irrefl 0)]
    cases positive with
    | true => exact .pure _ _
    | false =>
        obtain ⟨hpos, hle⟩ := h
        rw [if_neg Bool.false_ne_true, if_neg (not_or.mpr ⟨hpos.ne', Nat.not_lt.mpr hle⟩)]
        exact .pure _ _
  obtain hhead | hhead | hhead | hhead := hends
  all_goals exact Spans.ahead hhead hnumber

/-- An integer is read behind its sign. -/
theorem spans_number {positive : Bool} {n : Nat} (h : Fits positive n)
    (hafter : EndsValue after) :
    Spans (number positive) (decimal n ++ after) (decimal n).length
      (.int (signed positive n)) := by
  obtain rfl | hpos := Nat.eq_zero_or_pos n
  · change Spans _ (48 :: after) (1 + 0) _
    refine Spans.ahead rfl (.bind (.skip _) ?_)
    cases hhead : after.head? with
    | none => exact .ahead hhead (spans_afterInteger h hafter)
    | some b =>
        have hb : isDigit b = false := by
          obtain rfl | rfl | rfl := hafter b hhead <;> rfl
        refine .ahead hhead ?_
        dsimp only
        rw [hb, if_neg Bool.false_ne_true]
        exact spans_afterInteger h hafter
  · obtain ⟨b, rest, hdecimal, hdigit, hnonzero⟩ := decimal_eq_cons hpos
    have htaken : takeInteger 0 ((decimal n).map digitValue) = (n, 0) := by
      have hvalue := Nat.ofDigitChars_ten_toDigits (n := n)
      rw [map_digitValue_decimal, takeInteger_digits (hvalue.le.trans h.le_maxSignificand), hvalue]
    have hhead : (decimal n ++ after).head? = some b := by
      rw [hdecimal]
      rfl
    refine .ahead hhead ?_
    split
    · next hnone => cases hnone
    · next hzero => exact absurd (Option.some.inj hzero) hnonzero
    · next b' hsome =>
        obtain rfl := Option.some.inj hsome
        rw [hdigit, Bool.not_true, if_neg Bool.false_ne_true]
        have hspans : Spans digits (decimal n ++ after) (decimal n).length
            ((decimal n).map digitValue) :=
          spans_digits (fun _ hmem => isDigit_of_mem_decimal hmem) hafter
        refine hspans.bind (m := 0) ?_
        rw [htaken, List.drop_left]
        exact spans_afterInteger h hafter

end Reader

end Gatehouse.Json
