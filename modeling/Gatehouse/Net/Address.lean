import Gatehouse.Text.Hex
import Gatehouse.Text.Split

/-!
# Socket addresses

An IPv4 address is four decimal numbers without leading zeros.  An IPv6 address is eight groups of
hexadecimal digits, of which one run of zero groups may be left out, and the last two of which may
be written as an IPv4 address.  A socket address adds the port, and for IPv6 the brackets and
possibly a numeric scope.
-/

namespace Gatehouse.Net

inductive IpAddress where
  | v4 (octets : List Nat)
  | v6 (groups : List Nat)
  deriving DecidableEq, Repr

/-- An address with a port. -/
structure SocketAddress where
  ip : IpAddress
  port : Nat
  /-- The numeric scope of an IPv6 address, zero if there is none. -/
  scope : Nat := 0
  deriving DecidableEq, Repr

/-! ## Reading -/

abbrev Front (α : Type) := List Char → Option (α × List Char)

/-- The value of a digit in a base up to sixteen. -/
def digitIn? (base : Nat) (c : Char) : Option Nat :=
  (Text.Hex.value? c.toNat).filter (· < base)

/-- Reads up to `digits` digits; the second part counts them. -/
def readDigits (base : Nat) : Nat → Nat → List Char → Nat × Nat × List Char
  | 0, value, cs => (value, 0, cs)
  | _ + 1, value, [] => (value, 0, [])
  | n + 1, value, c :: cs =>
    match digitIn? base c with
    | none => (value, 0, c :: cs)
    | some d =>
      let (value, count, rest) := readDigits base n (value * base + d) cs
      (value, count + 1, rest)

/-- Reads a number of at most `digits` digits that is below `limit`.  A further digit refuses the
number, and so does a leading zero unless `zeros`. -/
def readNumber (base digits limit : Nat) (zeros : Bool) : Front Nat := fun cs =>
  let (value, count, rest) := readDigits base digits 0 cs
  let more : Bool := match rest with
    | c :: _ => (digitIn? base c).isSome
    | [] => false
  if count = 0 ∨ more ∨ value ≥ limit then none
  else if !zeros && count > 1 && cs.head? == some '0' then none
  else some (value, rest)

def readChar (c : Char) : Front Unit
  | d :: cs => if c = d then some ((), cs) else none
  | [] => none

def readV4 : Front (List Nat) := fun cs => do
  let (a, cs) ← readNumber 10 3 256 false cs
  let (_, cs) ← readChar '.' cs
  let (b, cs) ← readNumber 10 3 256 false cs
  let (_, cs) ← readChar '.' cs
  let (c, cs) ← readNumber 10 3 256 false cs
  let (_, cs) ← readChar '.' cs
  let (d, cs) ← readNumber 10 3 256 false cs
  return ([a, b, c, d], cs)

/-- Reads `p` behind a colon, or at once at the start. -/
def readSeparated (start : Bool) (p : Front α) : Front α := fun cs => do
  if start then p cs
  else
    let (_, cs) ← readChar ':' cs
    p cs

/-- Reads up to `limit` groups; the second part says whether the last two were an IPv4 address. -/
def readGroups (start : Bool) : Nat → List Char → List Nat × Bool × List Char
  | 0, cs => ([], false, cs)
  | left + 1, cs =>
    let embedded := if left > 0 then readSeparated start readV4 cs else none
    match embedded with
    | some ([a, b, c, d], rest) => ([a * 256 + b, c * 256 + d], true, rest)
    | _ =>
      match readSeparated start (readNumber 16 4 65536 true) cs with
      | none => ([], false, cs)
      | some (group, rest) =>
        let (groups, four, rest) := readGroups false left rest
        (group :: groups, four, rest)

/-- Reads eight groups, with at most one run of zero groups left out. -/
def readV6 : Front (List Nat) := fun cs =>
  let (head, four, rest) := readGroups true 8 cs
  if head.length = 8 then some (head, rest)
  else if four then none
  else do
    let (_, rest) ← readChar ':' rest
    let (_, rest) ← readChar ':' rest
    let (tail, _, rest) := readGroups true (8 - (head.length + 1)) rest
    return (head ++ List.replicate (8 - head.length - tail.length) 0 ++ tail, rest)

def readPort : Front Nat := fun cs => do
  let (_, cs) ← readChar ':' cs
  readNumber 10 cs.length 65536 true cs

def readScope : Front Nat := fun cs =>
  match readChar '%' cs with
  | none => some (0, cs)
  | some (_, cs) => readNumber 10 cs.length (Nat.pow 2 32) true cs

/-- The address that a text denotes. -/
def SocketAddress.parse? (s : String) : Option SocketAddress :=
  let cs := s.toList
  let four : Option SocketAddress := do
    let (octets, rest) ← readV4 cs
    let (port, rest) ← readPort rest
    if rest.isEmpty then some { ip := .v4 octets, port } else none
  four <|> do
    let (_, rest) ← readChar '[' cs
    let (groups, rest) ← readV6 rest
    let (scope, rest) ← readScope rest
    let (_, rest) ← readChar ']' rest
    let (port, rest) ← readPort rest
    if rest.isEmpty then some { ip := .v6 groups, port, scope } else none

def syntaxMessage : String := "invalid socket address syntax"

/-! ## Writing -/

def hexText (n : Nat) : String := String.ofList (Nat.toDigits 16 n)

def zeroRuns : List Nat → List Nat
  | [] => []
  | g :: rest =>
    let runs := zeroRuns rest
    (if g = 0 then runs.headD 0 + 1 else 0) :: runs

/-- The first longest run of zeros: position and length. -/
def longestRun (groups : List Nat) : Nat × Nat :=
  let runs := zeroRuns groups
  let longest := runs.foldl max 0
  (runs.findIdx (· == longest), longest)

namespace IpAddress

/-- The usual text: in IPv6 the first longest run of two or more zero groups is left out, and a
mapped IPv4 address is shown as one. -/
def text : IpAddress → String
  | .v4 octets => ".".intercalate (octets.map toString)
  | .v6 [0, 0, 0, 0, 0, 0xFFFF, a, b] =>
    "::ffff:" ++ ".".intercalate ([a / 256, a % 256, b / 256, b % 256].map toString)
  | .v6 groups =>
    let (start, length) := longestRun groups
    let join (part : List Nat) := ":".intercalate (part.map hexText)
    if length > 1 then join (groups.take start) ++ "::" ++ join (groups.drop (start + length))
    else join groups

end IpAddress

namespace SocketAddress

def unscopedText (a : SocketAddress) : String :=
  match a.ip with
  | .v4 _ => s!"{a.ip.text}:{a.port}"
  | .v6 _ => s!"[{a.ip.text}]:{a.port}"

def text (a : SocketAddress) : String :=
  match a.ip with
  | .v4 _ => s!"{a.ip.text}:{a.port}"
  | .v6 _ => if a.scope = 0 then a.unscopedText else s!"[{a.ip.text}%{a.scope}]:{a.port}"

end SocketAddress

end Gatehouse.Net
