import Gatehouse.Json.Reader
import Gatehouse.Text.Hex
import Gatehouse.Text.Utf8

/-!
# Reading quoted strings

A string is unescaped byte by byte and then decoded as a whole, so bytes that are not UTF-8 are
found when the closing quote is.
-/

namespace Gatehouse.Json

/-- Four hexadecimal digits; a fault comes with the number of bytes read before it is raised. -/
def hexEscape : List UInt8 → Except (Cause × Nat) Nat
  | a :: b :: c :: d :: _ =>
    match [a, b, c, d].map (Text.Hex.value? ·.toNat) with
    | [some a, some b, some c, some d] => .ok (a * 4096 + b * 256 + c * 16 + d)
    | _ => .error (.invalidEscape, 4)
  | short => .error (.endInString, short.length)

/-- An escape, behind its backslash: the scalar value and the number of bytes it takes. -/
def escape : List UInt8 → Except (Cause × Nat) (Nat × Nat)
  | [] => .error (.endInString, 0)
  | 34 :: _ => .ok (34, 1)
  | 92 :: _ => .ok (92, 1)
  | 47 :: _ => .ok (47, 1)
  | 98 :: _ => .ok (8, 1)
  | 102 :: _ => .ok (12, 1)
  | 110 :: _ => .ok (10, 1)
  | 114 :: _ => .ok (13, 1)
  | 116 :: _ => .ok (9, 1)
  | 117 :: rest =>
    match hexEscape rest with
    | .error (cause, n) => .error (cause, n + 1)
    | .ok high =>
      if 0xDC00 ≤ high ∧ high ≤ 0xDFFF then .error (.loneSurrogate, 5)
      else if high < 0xD800 ∨ 0xDBFF < high then .ok (high, 5)
      else
        match rest.drop 4 with
        | [] => .error (.endInString, 5)
        | 92 :: [] => .error (.endInString, 6)
        | 92 :: 117 :: rest =>
          match hexEscape rest with
          | .error (cause, n) => .error (cause, n + 7)
          | .ok low =>
            if low < 0xDC00 ∨ 0xDFFF < low then .error (.loneSurrogate, 11)
            else .ok ((high - 0xD800) * 1024 + (low - 0xDC00) + 0x10000, 11)
        | 92 :: _ :: _ => .error (.unfinishedSurrogate, 7)
        | _ :: _ => .error (.unfinishedSurrogate, 6)
  | _ :: _ => .error (.invalidEscape, 1)

/-- The bytes of a string, and the number of bytes up to and with its closing quote.  `skip` bytes
belong to an escape already taken; a fault comes with the number of bytes before its place. -/
def quotedBytes (skip position : Nat) : List UInt8 → Except (Cause × Nat) (List UInt8 × Nat)
  | [] => .error (.endInString, position)
  | b :: rest =>
    match skip with
    | skip + 1 => quotedBytes skip (position + 1) rest
    | 0 =>
      if b = 34 then .ok ([], position + 1)
      else if b = 92 then
        match escape rest with
        | .error (cause, n) => .error (cause, position + 1 + n)
        | .ok (scalar, n) => do
          let (bytes, stop) ← quotedBytes n (position + 1) rest
          return (String.utf8EncodeChar (Char.ofNat scalar) ++ bytes, stop)
      else if b < 32 then .error (.controlCharacter, position + 1)
      else do
        let (bytes, stop) ← quotedBytes 0 (position + 1) rest
        return (b :: bytes, stop)

/-- A string; the reader stands behind its opening quote.  Bytes that are not UTF-8 are placed as
if the string were written without escapes. -/
def Reader.quoted : Reader String := fun c =>
  match quotedBytes 0 0 c.rest with
  | .error (cause, n) =>
    let c := c.advanceBy n
    .error (.fault (c.here cause)) c
  | .ok (bytes, n) =>
    let c := c.advanceBy n
    match Text.Utf8.decode bytes with
    | .ok s => .ok s c
    | .error bad =>
      .error (.fault ⟨.invalidCodePoint, ⟨c.line, c.column - bytes.length + bad.validUpTo⟩⟩) c

end Gatehouse.Json
