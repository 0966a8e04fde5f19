import Gatehouse.Base64
import Gatehouse.Json.Printer
import Gatehouse.Text.Split
import Gatehouse.Token.Claims
import Gatehouse.Token.Signature

/-!
# Compact tokens

A token is header, payload and signature, each in base64 and separated by points; the signature
covers the first two as they are written.  `verifyWith` checks the algorithm before the signature,
the signature before the payload is read, and the registered claims last.
-/

namespace Gatehouse.Token

/-- Why a token is refused. -/
inductive TokenError where
  | invalidToken
  | base64 (error : Base64.DecodeError)
  | json (error : Json.DecodeError)
  | invalidAlgorithm
  | invalidSignature
  | missingClaim (name : String)
  | expired
  | invalidIssuer
  | invalidAudience
  deriving DecidableEq, Repr

def TokenError.message : TokenError → String
  | .invalidToken => "InvalidToken"
  | .base64 error => s!"Base64 error: {error.message}"
  | .json error => s!"JSON error: {error.placedMessage}"
  | .invalidAlgorithm => "InvalidAlgorithm"
  | .invalidSignature => "InvalidSignature"
  | .missingClaim name => s!"Missing required claim: {name}"
  | .expired => "ExpiredSignature"
  | .invalidIssuer => "InvalidIssuer"
  | .invalidAudience => "InvalidAudience"

/-- The parts of a token, still encoded. -/
structure Parts where
  header : List Char
  payload : List Char
  signature : List Char

/-- What the signature covers. -/
def Parts.message (p : Parts) : List UInt8 :=
  (p.header ++ '.' :: p.payload).flatMap String.utf8EncodeChar

/-- Takes a token apart at its last two points. -/
def Parts.ofToken? (token : String) : Option Parts := do
  let (signed, signature) ← Text.cutAtLast? ['.'] token.toList
  let (header, payload) ← Text.cutAtLast? ['.'] signed
  return ⟨header, payload, signature⟩

def decodePart (part : List Char) : Except TokenError (List UInt8) :=
  (Base64.decode Base64.urlSafe (part.flatMap String.utf8EncodeChar)).mapError .base64

def readPart (reader : Json.Reader α) (bytes : List UInt8) : Except TokenError α :=
  (reader.run bytes).mapError .json

def readHeader (token : String) : Except TokenError (Parts × Header) :=
  match Parts.ofToken? token with
  | none => .error .invalidToken
  | some parts => do
    let header ← readPart readHeaderText (← decodePart parts.header)
    return (parts, header)

def Parts.claims (parts : Parts) : Except TokenError (Json × Claims) := do
  let bytes ← decodePart parts.payload
  let value ← readPart Json.Reader.value bytes
  let claims ← readPart readClaims bytes
  return (value, claims)

def encodePart (bytes : List UInt8) : List Char :=
  (Base64.encode Base64.urlSafe bytes).map fun b => Char.ofNat b.toNat

/-- A way to tell whether a signature of a message is that of a key. -/
abbrev SignatureCheck :=
  Algorithm → List UInt8 → List UInt8 → List Char → Except TokenError Bool

/-- Whether a signature of a message is that of a key.  Only keyed hashes and RSA signatures with
the older padding can be checked; any other signature is refused. -/
def checkSignature (algorithm : Algorithm) (key message : List UInt8) (signature : List Char) :
    Except TokenError Bool :=
  match algorithm with
  | .hs256 | .hs384 | .hs512 =>
    .ok (signature == encodePart (hmac algorithm.hash key message))
  | .rs256 | .rs384 | .rs512 => do
    let bytes ← decodePart signature
    match RsaKey.ofDer? key with
    | some rsa => return rsa.verifies algorithm.hash message bytes
    | none => return false
  | _ => do
    let _ ← decodePart signature
    return false

/-- What a token has to satisfy. -/
structure Validation where
  algorithm : Algorithm
  /-- Seconds by which clocks may differ. -/
  leeway : Nat
  /-- The accepted issuers. -/
  issuers : List String
  /-- The accepted audience, if it is checked. -/
  audience : Option String

/-- The earliest end of a token that is honoured at a time.  Seconds are counted in 64 bits, so on a
clock that reads less than the leeway the difference wraps. -/
def Validation.earliestEnd (v : Validation) (now : Nat) : Nat :=
  if v.leeway ≤ now then now - v.leeway else now + Nat.pow 2 64 - v.leeway

/-- Checks the registered claims at a time.  An issuer or an audience that is absent passes. -/
def Validation.check (v : Validation) (now : Nat) (claims : Claims) : Except TokenError Unit := do
  match claims.expires with
  | none => throw (.missingClaim "exp")
  | some expires => if expires < v.earliestEnd now then throw .expired
  match claims.issuers with
  | some issuers => if !issuers.any v.issuers.contains then throw .invalidIssuer
  | none => pure ()
  match v.audience, claims.audiences with
  | some audience, some audiences => if !audiences.contains audience then throw .invalidAudience
  | _, _ => pure ()

/-- The payload of a token that is signed by `key` and valid at time `now`. -/
def verifyWith (check : SignatureCheck) (v : Validation) (key : List UInt8) (now : Nat)
    (token : String) : Except TokenError Json := do
  let (parts, header) ← readHeader token
  if header.algorithm ≠ v.algorithm then throw .invalidAlgorithm
  if !(← check header.algorithm key parts.message parts.signature) then
    throw .invalidSignature
  let (payload, claims) ← parts.claims
  v.check now claims
  return payload

def verify (v : Validation) (key : List UInt8) (now : Nat) (token : String) :
    Except TokenError Json :=
  verifyWith checkSignature v key now token

/-- The payload of a token, whoever signed it. -/
def readUnverified (token : String) : Except TokenError Json := do
  let (parts, _) ← readHeader token
  let (payload, _) ← parts.claims
  return payload

def sign (algorithm : Algorithm) (secret : List UInt8) (payload : Json) : String :=
  let name := ((Algorithm.named.find? (·.2 == algorithm)).map Prod.fst).getD ""
  let header := Json.obj [("alg", .str name), ("typ", .str "JWT")]
  let parts : Parts := ⟨encodePart header.renderBytes, encodePart payload.renderBytes, []⟩
  let signature := encodePart (hmac algorithm.hash secret parts.message)
  String.ofList (parts.header ++ '.' :: parts.payload ++ '.' :: signature)

end Gatehouse.Token
