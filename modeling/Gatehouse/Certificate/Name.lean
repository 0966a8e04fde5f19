import Gatehouse.Certificate.Der
import Gatehouse.Text.Split
import Gatehouse.Text.Utf8

/-!
# Distinguished names

A name is a list of attributes, each an object identifier and a text.  It is written as one line,
`/type=text` for each attribute.  A proxy certificate adds common names at the end, which are taken
off again to find whom the proxy stands for.
-/

namespace Gatehouse.Certificate

/-- One attribute of a name. -/
structure NameEntry where
  oid : List UInt8
  value : List UInt8
  deriving DecidableEq, Repr

def shortNames : List (List UInt8 × String) := [
  ([0x55, 0x04, 0x03], "CN"), ([0x55, 0x04, 0x06], "C"), ([0x55, 0x04, 0x07], "L"),
  ([0x55, 0x04, 0x08], "ST"), ([0x55, 0x04, 0x0A], "O"), ([0x55, 0x04, 0x0B], "OU"),
  ([0x2A, 0x86, 0x48, 0x86, 0xF7, 0x0D, 0x01, 0x09, 0x01], "emailAddress"),
  ([0x09, 0x92, 0x26, 0x89, 0x93, 0xF2, 0x2C, 0x64, 0x01, 0x19], "DC")]

/-- The arcs behind the first byte: seven bits to a byte, the high bit for those that go on.  An
arc is kept to 64 bits, and one that does not end is left out. -/
def oidArcs (acc : Nat) : List UInt8 → List Nat
  | [] => []
  | b :: rest =>
    let acc := (acc * 128 + b.toNat % 128) % Nat.pow 2 64
    if b.toNat < 128 then acc :: oidArcs 0 rest else oidArcs acc rest

/-- The dotted form of an object identifier. -/
def dotted : List UInt8 → String
  | [] => ""
  | first :: rest =>
    ".".intercalate ((first.toNat / 40 :: first.toNat % 40 :: oidArcs 0 rest).map toString)

/-- How an attribute type is called. -/
def attributeName (oid : List UInt8) : String :=
  (shortNames.lookup oid).getD (dotted oid)

def NameEntry.text (e : NameEntry) : String :=
  "/" ++ attributeName e.oid ++ "=" ++ Text.Utf8.decodeLossy e.value

/-- A name on one line. -/
def renderName (entries : List NameEntry) : String :=
  String.join (entries.map NameEntry.text)

def sequenceTag : UInt8 := 0x30
def setTag : UInt8 := 0x31
def oidTag : UInt8 := 0x06

def readEntry (content : List UInt8) : Except Der.Error NameEntry := do
  let (oid, rest) ← Der.expect oidTag content
  let value ← Der.read rest
  return ⟨oid, value.content⟩

/-- Reads a name: sets of attributes. -/
def readName (content : List UInt8) : Except Der.Error (List NameEntry) :=
  (Der.each setTag (Der.each sequenceTag readEntry) content).map List.flatten

/-! ## Proxies -/

def commonName : List Char := "/CN=".toList

/-- A common name that a proxy adds. -/
def isProxyName (name : List Char) : Bool :=
  name == "proxy".toList || name == "limited proxy".toList ||
    (!name.isEmpty && name.all Char.isDigit)

/-- Takes common names of proxies off the end, and says whether there were any. -/
def stripProxyChars (dn : List Char) : List Char × Bool :=
  match _h : Text.cutAtLast? commonName dn with
  | none => (dn, false)
  | some (before, name) =>
    if isProxyName name then ((stripProxyChars before).1, true) else (dn, false)
termination_by dn.length
decreasing_by
  have := congrArg List.length (Text.cutAtLast?_eq_some _h)
  simp only [List.length_append] at this
  have : commonName.length = 4 := rfl
  omega

/-- Takes common names of proxies off the end, and says whether there were any. -/
def stripProxy (dn : String) : String × Bool :=
  let (base, removed) := stripProxyChars dn.toList
  (String.ofList base, removed)

end Gatehouse.Certificate
