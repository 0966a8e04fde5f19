import Gatehouse.Json.Record

/-!
# Keys inside headers

A header may carry the public key of its signature.  The key is not used, but a header with a
malformed key is refused: first the attributes that every key may have are judged, in the order in
which they are written, and then what is left must make one of the four kinds of keys.
-/

namespace Gatehouse.Token.Jwk

open Json (Decoder Document Misfit RecordShape Slot)

def algorithmNames : List String := [
  "HS256", "HS384", "HS512", "ES256", "ES384", "RS256", "RS384", "RS512", "PS256", "PS384",
  "PS512", "EdDSA", "RSA1_5", "RSA-OAEP", "RSA-OAEP-256"]

def curveNames : List String := ["P-256", "P-384", "P-521", "Ed25519"]

def decodeName (names : List String) : Decoder Unit :=
  Json.decodeChoice (names.map fun name => (name, ()))

/-- The algorithm of a key.  An object may bind it to an empty object instead of nothing. -/
def decodeAlgorithm : Decoder Unit where
  take origin document :=
    match document with
    | .table [(name, .table [])] => (decodeName algorithmNames).take origin (.text name)
    | _ => (decodeName algorithmNames).take origin document
  read := (decodeName algorithmNames).read

/-- A field that is judged and forgotten. -/
def judged (name : String) (d : Decoder α) : Slot Unit := .of name d fun _ _ => ()

def attributes : RecordShape Unit where
  name := "CommonParameters"
  fields := [
    judged "use" (Json.decodeOption Json.decodeString),
    judged "key_ops" (Json.decodeOption (Json.decodeList Json.decodeString)),
    judged "alg" (Json.decodeOption decodeAlgorithm),
    judged "kid" (Json.decodeOption Json.decodeString),
    judged "x5u" (Json.decodeOption Json.decodeString),
    judged "x5c" (Json.decodeOption (Json.decodeList Json.decodeString)),
    judged "x5t" (Json.decodeOption Json.decodeString),
    judged "x5t#S256" (Json.decodeOption Json.decodeString)]
  others := .passed

def kind (name : String) (curved : Bool) (texts : List String) : RecordShape Unit where
  name := name
  fields := (judged "kty" (decodeName [name])).require ::
    ((if curved then [(judged "crv" (decodeName curveNames)).require] else []) ++
      texts.map fun text => (judged text Json.decodeString).require)
  others := .passed

def kinds : List (RecordShape Unit) := [
  kind "EC" true ["x", "y"], kind "RSA" false ["n", "e"], kind "oct" false ["k"],
  kind "OKP" true ["x"]]

def check (members : List (String × Document)) : Except Misfit Unit := do
  attributes.takeMembers .value [] () members
  let rest := members.filter fun (name, _) => !attributes.names.contains name
  if kinds.any fun kind => (kind.takeMembers .value [] () rest).isOk then return ()
  else throw (.noAlternative "AlgorithmParameters")

def decode : Decoder Unit where
  take _ document :=
    match document.members? with
    | some members => check members
    | none => Json.wrongType "struct Jwk" document
  read := do
    match ← Json.Reader.first with
    | 123 => Json.Reader.inObject do .accept (check (← Json.Reader.entries))
    | _ => (Json.refusing "struct Jwk").read

end Gatehouse.Token.Jwk
