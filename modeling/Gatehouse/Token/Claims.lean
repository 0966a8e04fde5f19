import Gatehouse.Token.Algorithm
import Gatehouse.Token.Jwk

/-!
# Token headers and registered claims

A header has to name its algorithm.  Registered claims are read leniently: one of an unexpected
type counts as absent.  Where such a claim is a list or an object its reader turns away at the
bracket, and the claims are read on from inside.
-/

namespace Gatehouse.Token

open Json (Decoder Document Misfit RecordShape Reader Slot)

/-- The part of a header that matters. -/
structure Header where
  algorithm : Algorithm

/-- A field that is checked and forgotten. -/
def checked (name : String) (d : Decoder α) : Slot (Option Algorithm) :=
  (Slot.of name (Json.decodeOption d) fun s _ => s).optional

def headerShape : RecordShape (Option Algorithm) where
  name := "Header"
  fields := [
    checked "typ" Json.decodeString,
    (Slot.of "alg" (Json.decodeChoice Algorithm.named) fun _ a => some a).require,
    checked "cty" Json.decodeString,
    checked "jku" Json.decodeString,
    checked "jwk" Jwk.decode,
    checked "kid" Json.decodeString,
    checked "x5u" Json.decodeString,
    checked "x5c" (Json.decodeList Json.decodeString),
    checked "x5t" Json.decodeString,
    checked "x5t#S256" Json.decodeString]
  others := .passed

/-- Reads a header; the algorithm is required, so a header that is read has one. -/
def readHeaderText : Reader Header := do
  match ← (headerShape.decode none).read with
  | some algorithm => return ⟨algorithm⟩
  | none => .refuse (.missingField "alg")

/-- The registered claims, as far as they have the expected type. -/
structure Claims where
  expires : Option Nat := none
  notBefore : Option Nat := none
  subject : Option String := none
  issuers : Option (List String) := none
  audiences : Option (List String) := none
  deriving DecidableEq, Repr

/-- A number of seconds; a double is rounded. -/
def seconds? : Document → Option Nat
  | .int i => if 0 ≤ i then some i.toNat else none
  | .float (.finite x) =>
    if (!x.negative || x.isZero) && !Binary64.le (Binary64.ofInt (Int.pow 2 64)) x then
      some x.roundHalfAway.toNat
    else none
  | _ => none

/-- A number of seconds.  A list or an object is entered before it is refused. -/
def decodeSeconds : Decoder (Option Nat) where
  take _ document := .ok (seconds? document)
  read :=
    let refused : Reader (Option Nat) := .refuse .notChoice
    .tolerant do
      match ← Reader.first with
      | 91 => .inList refused
      | 123 => .inObject refused
      | _ => return seconds? (← Reader.scalar)

def takeNames : Document → Except Misfit (List String)
  | .text s => .ok [s]
  | document => (Json.decodeList Json.decodeString).take .value document

/-- A text or a list of texts, read as a whole before it is judged. -/
def decodeNames : Decoder (Option (List String)) :=
  (Json.decodeOption (.ofDocument takeNames)).tolerant

def claimsShape : RecordShape Claims where
  name := "ClaimsForValidation"
  fields := [
    .of "exp" decodeSeconds fun c v => { c with expires := v },
    .of "nbf" decodeSeconds fun c v => { c with notBefore := v },
    (Slot.of "sub" (Json.decodeOption Json.decodeString).tolerant
      fun (c : Claims) v => { c with subject := v }).optional,
    (Slot.of "iss" decodeNames fun (c : Claims) v => { c with issuers := v }).optional,
    (Slot.of "aud" decodeNames fun (c : Claims) v => { c with audiences := v }).optional]
  others := .passed

def readClaims : Reader Claims := (claimsShape.decode {}).read

end Gatehouse.Token
