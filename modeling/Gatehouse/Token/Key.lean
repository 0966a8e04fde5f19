import Gatehouse.Base64
import Gatehouse.Text.Blank
import Gatehouse.Text.Split
import Gatehouse.Text.Utf8
import Gatehouse.Token.Algorithm

/-!
# Public keys

A public key comes as an armoured block: a bare RSA key, or a structure (a key with its algorithm,
or a whole certificate) in which the first algorithm identifier tells the kind of key and the first
string of bits or octets is the key itself.
-/

namespace Gatehouse.Token

inductive KeyError where
  | format
  | noKeyBits
  deriving DecidableEq, Repr

def KeyError.message : KeyError → String
  | .format => "InvalidKeyFormat"
  | .noKeyBits => "InvalidEcdsaKey"

/-! ## Armour -/

/-- An armoured block. -/
structure Block where
  label : String
  content : List UInt8

/-- Finds `mark` by scanning forward: the text before it and the text behind it.  Where the mark
turns out not to be one, the scan starts over behind the character that differs. -/
def scanTo? (mark cs : List Char) : Option (List Char × List Char) :=
  go mark [] cs
where
  /-- `want` is left of the mark, `before` was read, backwards. -/
  go (want before : List Char) : List Char → Option (List Char × List Char)
    | [] => none
    | c :: rest =>
      let want := if want.head? = some c then want.tail else mark
      let before := c :: before
      if want.isEmpty then some ((before.drop mark.length).reverse, rest) else go want before rest

def isArmourBlank (c : Char) : Bool := c == ' ' || c == '\n' || c == '\r' || c == '\t'

/-- A body taken apart at the first empty line: the header lines and the data. -/
def bodyParts (body : List Char) : List Char × List Char :=
  (scanTo? ['\n', '\n'] body <|> scanTo? ['\r', '\n', '\r', '\n'] body).getD ([], body)

/-- Whether every header line names its header. -/
def areHeaders (headers : List Char) : Bool :=
  headers.isEmpty || (Text.splitChars '\n' headers).all (·.contains ':')

def Block.parse? (text : String) : Option Block := do
  let (_, cs) ← scanTo? "-----BEGIN ".toList text.toList
  let (label, cs) ← scanTo? "-----".toList cs
  let (body, cs) ← scanTo? "-----END ".toList (cs.dropWhile isArmourBlank)
  let (closing, _) ← scanTo? "-----".toList cs
  if label.isEmpty || label != closing then none
  let (headers, data) := bodyParts body
  if !areHeaders headers then none
  let symbols := data.filter fun c => !Text.isBlank c
  let content ← (Base64.decode Base64.standard (symbols.flatMap String.utf8EncodeChar)).toOption
  return ⟨String.ofList label, content⟩

/-! ## Structure -/

/-- The parts of a binary structure that matter for keys. -/
inductive Node where
  | sequence (nodes : List Node)
  | octets (bytes : List UInt8)
  /-- The first number stands for the first two arcs. -/
  | oid (arcs : List Nat)
  | other

/-- A number in base 128; the bytes behind it follow. -/
def readBase128 (acc : Nat) : List UInt8 → Option (Nat × List UInt8)
  | [] => none
  | b :: rest =>
    let acc := acc * 128 + b.toNat % 128
    if b < 0x80 then some (acc, rest) else readBase128 acc rest

/-- Numbers in base 128 up to the end; the last of them has to be complete. -/
def readArcs (acc : Nat) : List UInt8 → Option (List Nat)
  | [] => some []
  | b :: rest =>
    let acc := acc * 128 + b.toNat % 128
    if b < 0x80 then (readArcs 0 rest).map (acc :: ·)
    else if rest.isEmpty then none
    else readArcs acc rest

/-- A length of up to eight bytes; the bytes behind it follow. -/
def readLongLength : List UInt8 → Option (Nat × List UInt8)
  | [] => none
  | first :: rest =>
    if first < 0x80 then some (first.toNat, rest)
    else
      let count := first.toNat % 128
      if count > 8 ∨ rest.length < count then none
      else some ((rest.take count).foldl (fun n b => n * 256 + b.toNat) 0, rest.drop count)

def printableMarks : List Char := " '()+,-./:=?".toList

def isPrintable (b : UInt8) : Bool :=
  let c := Char.ofNat b.toNat
  c.isAlphanum || printableMarks.contains c

def isUtf8 (bytes : List UInt8) : Bool := (Text.Utf8.decode? bytes).isSome

def twoDigits? : List UInt8 → Option Nat
  | [a, b] =>
    if 48 ≤ a && a ≤ 57 && 48 ≤ b && b ≤ 57 then some ((a.toNat - 48) * 10 + (b.toNat - 48))
    else none
  | _ => none

def daysIn (year month : Nat) : Nat :=
  if month = 2 then (if year % 4 = 0 ∧ (year % 100 ≠ 0 ∨ year % 400 = 0) then 29 else 28)
  else if [4, 6, 9, 11].contains month then 30
  else 31

/-- Month, day, hour, minute and second of a year. -/
def isMoment (year : Nat) (bytes : List UInt8) : Bool :=
  let part (i : Nat) := (twoDigits? ((bytes.drop (2 * i)).take 2)).getD 99
  let month := part 0
  bytes.length == 10 && 1 ≤ month && month ≤ 12 && 1 ≤ part 1 && part 1 ≤ daysIn year month &&
    part 2 < 24 && part 3 < 60 && part 4 < 60

/-- The `Z` at the end of a date. -/
def zulu : UInt8 := 90

def isShortDate (bytes : List UInt8) : Bool :=
  match twoDigits? (bytes.take 2) with
  | some y =>
    isMoment (if y ≥ 50 then 1900 + y else 2000 + y) ((bytes.drop 2).take 10) &&
      bytes.drop 12 == [zulu]
  | none => false

/-- The end of a date with four digits for the year: up to nine digits behind a point. -/
def isFraction : List UInt8 → Bool
  | 46 :: digits =>
    digits.length ≤ 10 && digits.getLast? == some zulu &&
      digits.dropLast.all fun b => 48 ≤ b && b ≤ 57
  | bytes => bytes == [zulu]

def isLongDate (bytes : List UInt8) : Bool :=
  match twoDigits? (bytes.take 2), twoDigits? ((bytes.drop 2).take 2) with
  | some c, some y =>
    isMoment (c * 100 + y) ((bytes.drop 4).take 10) && isFraction (bytes.drop 14)
  | _, _ => false

/-- A universal element without parts, if its contents are well formed. -/
def readPlain (tag : Nat) (body : List UInt8) : Option Node :=
  match tag with
  | 1 => if body.length = 1 then some .other else none
  | 3 =>
    match body with
    | [] => some (.octets [])
    | unused :: bits => if unused.toNat ≤ bits.length * 8 then some (.octets bits) else none
  | 4 => some (.octets body)
  | 6 =>
    match body with
    | [] => none
    | first :: rest => (readArcs 0 rest).map fun arcs => .oid (first.toNat :: arcs)
  | 12 | 20 | 28 | 30 => if isUtf8 body then some .other else none
  | 19 => if body.all isPrintable then some .other else none
  | 22 => if body.all (· < 0x80) then some .other else none
  | 23 => if isShortDate body then some .other else none
  | 24 => if isLongDate body then some .other else none
  | _ => some .other

/-- Reads elements up to the end; there has to be at least one. -/
def readNodes : Nat → List UInt8 → Option (List Node)
  | 0, _ => none
  | _ + 1, [] => none
  | fuel + 1, first :: rest => do
    let low := first.toNat % 32
    let (tag, rest) ← if low = 31 then readBase128 0 rest else some (low, rest)
    let (length, rest) ← readLongLength rest
    if rest.length < length then none
    let body := rest.take length
    let node ←
      if first ≥ 0x40 then some .other
      else if tag = 16 then (readNodes fuel body).map .sequence
      else if tag = 17 then (readNodes fuel body).map fun _ => .other
      else readPlain tag body
    let rest := rest.drop length
    if rest.isEmpty then return [node]
    else return node :: (← readNodes fuel rest)

/-- The structure of a byte string. -/
def Node.parse? (bytes : List UInt8) : Option (List Node) := readNodes (bytes.length + 1) bytes

def keyKinds : List (List Nat × Family) := [
  ([1 * 40 + 2, 840, 10045, 2, 1], .ec),
  ([1 * 40 + 2, 840, 113549, 1, 1, 1], .rsa),
  ([1 * 40 + 3, 101, 112], .ed)]

/-- The kind of key that the first known identifier tells. -/
def kindOf? : List Node → Option Family
  | [] => none
  | .sequence nodes :: rest => kindOf? nodes <|> kindOf? rest
  | .oid arcs :: rest =>
    match keyKinds.lookup arcs with
    | some family => some family
    | none => kindOf? rest
  | _ :: rest => kindOf? rest

def firstOctets? : List Node → Option (List UInt8)
  | [] => none
  | .sequence nodes :: rest => firstOctets? nodes <|> firstOctets? rest
  | .octets bytes :: _ => some bytes
  | _ :: rest => firstOctets? rest

/-- The key of a family in an armoured text. -/
def loadKey (family : Family) (text : String) : Except KeyError (List UInt8) :=
  match Block.parse? text with
  | none => .error .format
  | some block =>
    match Node.parse? block.content with
    | none => .error .format
    | some nodes =>
      if block.label = "RSA PRIVATE KEY" ∨ block.label = "RSA PUBLIC KEY" then
        if family = .rsa then .ok block.content else .error .format
      else if ["PRIVATE KEY", "PUBLIC KEY", "CERTIFICATE"].contains block.label then
        match kindOf? nodes with
        | none => .error .format
        | some kind =>
          if kind ≠ family ∨ (block.label = "PRIVATE KEY" ∧ family ≠ .rsa) then .error .format
          else
            match firstOctets? nodes with
            | some key => .ok key
            | none => .error .noKeyBits
      else .error .format

end Gatehouse.Token
