import Gatehouse.Text.Hex
import Gatehouse.Text.Utf8

/-!
# Percent coding

A byte may be written as `%` and two hexadecimal digits.  A `%` that is not followed by two digits
stands for itself.
-/

namespace Gatehouse.Http

/-- The byte that the two bytes after a `%` denote. -/
def escapedByte? : List UInt8 → Option UInt8
  | high :: low :: _ => do
    let high ← Text.Hex.value? high.toNat
    let low ← Text.Hex.value? low.toNat
    return UInt8.ofNat (high * 16 + low)
  | _ => none

/-- Decodes; `skip` bytes belong to an escape already taken. -/
def percentDecodeFrom (skip : Nat) : List UInt8 → List UInt8
  | [] => []
  | b :: rest =>
    match skip with
    | skip + 1 => percentDecodeFrom skip rest
    | 0 =>
      if b = 37 then
        match escapedByte? rest with
        | some byte => byte :: percentDecodeFrom 2 rest
        | none => b :: percentDecodeFrom 0 rest
      else b :: percentDecodeFrom 0 rest

def percentDecode (bytes : List UInt8) : List UInt8 := percentDecodeFrom 0 bytes

def upperHexDigit (n : Nat) : UInt8 :=
  if n < 10 then UInt8.ofNat (48 + n) else UInt8.ofNat (55 + n)

def percentEscape (b : UInt8) : List UInt8 :=
  [37, upperHexDigit (b.toNat / 16), upperHexDigit (b.toNat % 16)]

/-- Writes every byte that is not `plain` as an escape. -/
def percentEncode (plain : UInt8 → Bool) (bytes : List UInt8) : List UInt8 :=
  bytes.flatMap fun b => if plain b then [b] else percentEscape b

def isAlphanumericByte (b : UInt8) : Bool :=
  (48 ≤ b && b ≤ 57) || (65 ≤ b && b ≤ 90) || (97 ≤ b && b ≤ 122)

end Gatehouse.Http
