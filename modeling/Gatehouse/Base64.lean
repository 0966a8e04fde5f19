/-!
# Base64

Six bits to a symbol, four symbols to three bytes.  Decoding is canonical: the unused bits of the
last symbol are zero and the padding is exactly what the variant demands, so that a byte string has
one written form.
-/

namespace Gatehouse.Base64

/-- How the end of a text is padded. -/
inductive Padding where
  /-- With `=` to a multiple of four symbols. -/
  | required
  /-- Not at all. -/
  | forbidden
  deriving DecidableEq, Repr

/-- A variant: the symbols for 62 and 63, and the padding. -/
structure Variant where
  symbol62 : UInt8
  symbol63 : UInt8
  padding : Padding

/-- The variant of certificates and keys. -/
def standard : Variant := ⟨43, 47, .required⟩

/-- The variant of tokens. -/
def urlSafe : Variant := ⟨45, 95, .forbidden⟩

def pad : UInt8 := 61

def Variant.symbol (v : Variant) (n : Nat) : UInt8 :=
  if n < 26 then UInt8.ofNat (65 + n)
  else if n < 52 then UInt8.ofNat (71 + n)
  else if n < 62 then UInt8.ofNat (n - 4)
  else if n = 62 then v.symbol62
  else v.symbol63

def Variant.value? (v : Variant) (b : UInt8) : Option Nat :=
  if 65 ≤ b && b ≤ 90 then some (b.toNat - 65)
  else if 97 ≤ b && b ≤ 122 then some (b.toNat - 71)
  else if 48 ≤ b && b ≤ 57 then some (b.toNat + 4)
  else if b = v.symbol62 then some 62
  else if b = v.symbol63 then some 63
  else none

/-- Why a text is not base64. -/
inductive DecodeError where
  | invalidByte (position : Nat) (byte : UInt8)
  | invalidLength (length : Nat)
  | invalidLastSymbol (position : Nat) (byte : UInt8)
  | invalidPadding
  deriving DecidableEq, Repr

def DecodeError.message : DecodeError → String
  | .invalidByte position byte => s!"Invalid symbol {byte.toNat}, offset {position}."
  | .invalidLength length => s!"Invalid input length: {length}"
  | .invalidLastSymbol position byte => s!"Invalid last symbol {byte.toNat}, offset {position}."
  | .invalidPadding => "Invalid padding"

/-! ## Writing -/

/-- Pads the last group of a text. -/
def Variant.padded (v : Variant) (symbols : List UInt8) : List UInt8 :=
  match v.padding with
  | .required => symbols ++ List.replicate (4 - symbols.length) pad
  | .forbidden => symbols

def encode (v : Variant) : List UInt8 → List UInt8
  | [] => []
  | [a] =>
    v.padded [v.symbol (a.toNat / 4), v.symbol (a.toNat % 4 * 16)]
  | [a, b] =>
    v.padded [v.symbol (a.toNat / 4), v.symbol (a.toNat % 4 * 16 + b.toNat / 16),
      v.symbol (b.toNat % 16 * 4)]
  | a :: b :: c :: rest =>
    v.symbol (a.toNat / 4) :: v.symbol (a.toNat % 4 * 16 + b.toNat / 16) ::
      v.symbol (b.toNat % 16 * 4 + c.toNat / 64) :: v.symbol (c.toNat % 64) :: encode v rest

/-! ## Reading -/

def Variant.symbolAt (v : Variant) (position : Nat) (b : UInt8) : Except DecodeError Nat :=
  match v.value? b with
  | some n => .ok n
  | none => .error (.invalidByte position b)

/-- The numbers of the symbols before the padding, and the number of padding symbols.  `symbols`
of them were read before, and the padding may not begin among the first two. -/
def Variant.readGroup (v : Variant) (start : Nat) :
    Nat → List UInt8 → Except DecodeError (List Nat × Nat)
  | _, [] => .ok ([], 0)
  | symbols, b :: rest =>
    if b = pad then
      if symbols < 2 then .error (.invalidByte (start + symbols) b)
      else if rest.all (· == pad) then .ok ([], rest.length + 1)
      else .error (.invalidByte (start + symbols) pad)
    else do
      let n ← v.symbolAt (start + symbols) b
      let (ns, pads) ← readGroup v start (symbols + 1) rest
      return (n :: ns, pads)

/-- Reads the last group, of at most four symbols. -/
def Variant.readLast (v : Variant) (start : Nat) (group : List UInt8) :
    Except DecodeError (List UInt8) := do
  let (ns, pads) ← v.readGroup start 0 group
  if ns.length < 2 then
    if start = 0 ∧ group = [] then return []
    else throw (.invalidLength (start + ns.length))
  match v.padding with
  | .required => if (ns.length + pads) % 4 ≠ 0 then throw .invalidPadding
  | .forbidden => if pads > 0 then throw .invalidPadding
  let last := group.getD (ns.length - 1) 0
  match ns with
  | [a, b] =>
    if b % 16 ≠ 0 then throw (.invalidLastSymbol (start + 1) last)
    return [UInt8.ofNat (a * 4 + b / 16)]
  | [a, b, c] =>
    if c % 4 ≠ 0 then throw (.invalidLastSymbol (start + 2) last)
    return [UInt8.ofNat (a * 4 + b / 16), UInt8.ofNat (b % 16 * 16 + c / 4)]
  | [a, b, c, d] =>
    return [UInt8.ofNat (a * 4 + b / 16), UInt8.ofNat (b % 16 * 16 + c / 4),
      UInt8.ofNat (c % 4 * 64 + d)]
  | _ => throw (.invalidLength (start + ns.length))

/-- Reads group after group; only the last may be short or padded. -/
def Variant.readGroups (v : Variant) (start : Nat) :
    List UInt8 → Except DecodeError (List UInt8)
  | a :: b :: c :: d :: e :: rest => do
    let a ← v.symbolAt start a
    let b ← v.symbolAt (start + 1) b
    let c ← v.symbolAt (start + 2) c
    let d ← v.symbolAt (start + 3) d
    let bytes ← readGroups v (start + 4) (e :: rest)
    return UInt8.ofNat (a * 4 + b / 16) :: UInt8.ofNat (b % 16 * 16 + c / 4) ::
      UInt8.ofNat (c % 4 * 64 + d) :: bytes
  | group => v.readLast start group

/-- The byte string of a text.  A stray last symbol that is no symbol at all is reported first. -/
def decode (v : Variant) (text : List UInt8) : Except DecodeError (List UInt8) :=
  match text.getLast? with
  | some last =>
    if text.length % 4 = 1 ∧ last ≠ pad ∧ v.value? last = none then
      .error (.invalidByte (text.length - 1) last)
    else v.readGroups 0 text
  | none => .ok []

end Gatehouse.Base64
