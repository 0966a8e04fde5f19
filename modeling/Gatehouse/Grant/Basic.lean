import Gatehouse.Arguments
import Gatehouse.Certificate.Subject
import Gatehouse.Identity.Provider

/-!
# Grants

A grant is one way to find out who asks.  The certificate grant believes a chain that the
connection verified, and without one the headers of a front end that did; the bearer grant believes
a token that the provider of its issuer verifies; the visitor grant asks nothing.
-/

namespace Gatehouse

open Identity (GrantError Issuers)

/-- What grants look at. -/
structure GrantContext where
  headers : Http.Headers
  peerCertificates : Option (List String) := none
  arguments : Json.Object
  issuers : Issuers
  /-- The time, in seconds. -/
  now : Nat

namespace GrantContext

def verifiedChain (c : GrantContext) : Option String :=
  match c.peerCertificates with
  | some (first :: rest) => some (String.join (first :: rest))
  | _ => none

/-- Credentials that the caller adds on its own: the value that a text denotes, or else the text
itself. -/
def extraCredentials (c : GrantContext) : Option Json :=
  match Table.get? Arguments.extraCredentialsName c.arguments with
  | none | some .null => none
  | some (.str text) =>
    if text.isEmpty then none
    else
      match Json.readText text with
      | .ok value => some value
      | .error _ => some (.str text)
  | some value => some value

end GrantContext

/-- A way to authenticate. -/
structure Grant where
  authenticate : GrantContext → Except GrantError Credential

namespace Grant

/-! ## Certificates -/

abbrev ChainReader := String → Except Certificate.ChainError Credential

/-- The header in which a front end reports that it verified the client. -/
def verifyHeader : String := "x-ssl_client_verify"

/-- The header in which it passes the certificate on. -/
def certificateHeader : String := "x-ssl-cert"

def chainText (c : GrantContext) : Except GrantError String :=
  match c.verifiedChain with
  | some chain => .ok chain
  | none =>
    match c.headers.text? verifyHeader, c.headers.text? certificateHeader with
    | some "SUCCESS", some certificate =>
      if certificate.isEmpty then .error .certificateNotFound
      else
        (Text.Utf8.decode (Http.percentDecode (Text.Utf8.encode certificate))).mapError
          fun fault => .certificateInvalid fault.message
    | _, _ => .error .certificateNotFound

/-- Believes a verified certificate; `read` makes the record of a chain. -/
def certificateWith (read : String → Except GrantError Credential) : Grant where
  authenticate c := do
    let record ← read (← chainText c)
    match c.extraCredentials with
    | some extra => return { record with extra := some extra }
    | none => return record

/-- Believes a verified certificate.  A chain that cannot be read is no valid certificate. -/
def certificate (reader : ChainReader) : Grant :=
  certificateWith fun chain => (reader chain).mapError fun e => .certificateInvalid e.message

/-! ## Tokens -/

/-- The token in the authorization header: two words, the first of which is `bearer`. -/
def accessToken (c : GrantContext) : Except GrantError String :=
  match c.headers.text? "authorization" with
  | none => .error .tokenNotFound
  | some value =>
    match Text.words value with
    | [scheme, token] =>
      if Text.sameIgnoringCase scheme "bearer" then .ok token else .error .wrongTokenType
    | _ => .error .tokenNotFound

/-- The issuer that a token names.  Nothing else may be believed of it before it is verified. -/
def unverifiedIssuer (token : String) : Except GrantError String :=
  match Token.readUnverified token with
  | .error e => .error (.malformedToken e.message)
  | .ok claims =>
    match (claims.field? "iss").bind Json.str? with
    | some issuer => .ok (Identity.normalizeIssuer issuer)
    | none => .error (.malformedToken "no issuer claim")

/-- Believes a token that its issuer's provider verifies. -/
def bearerWith (check : Token.SignatureCheck) : Grant where
  authenticate c := do
    let token ← accessToken c
    let issuer ← unverifiedIssuer token
    match c.issuers.get? issuer with
    | none => throw (.unknownIssuer issuer)
    | some provider =>
      let claims ← provider.verifyWith check c.now token
      provider.resolveGroup claims

/-- Believes a token whose signature can be checked here. -/
def bearer : Grant := bearerWith Token.checkSignature

def visitor : Grant where
  authenticate _ := .ok {}

end Grant

end Gatehouse
