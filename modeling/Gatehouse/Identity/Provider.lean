import Gatehouse.Credential
import Gatehouse.Identity.Config
import Gatehouse.Log
import Gatehouse.Text.Blank
import Gatehouse.Token.Compact
import Gatehouse.Token.Key

/-!
# Identity providers

A provider stands for the tokens of one issuer: it verifies them with its key and turns their
claims into a credential record.  `Issuers` finds the provider of a token's issuer; issuers are
compared without the slashes at their end.
-/

namespace Gatehouse.Identity

open Token (Validation)

/-- An issuer without the slashes at its end. -/
def normalizeIssuer (issuer : String) : String :=
  String.ofList (Text.dropTrailing '/' issuer.toList)

/-- Why no record comes out of a grant. -/
inductive GrantError where
  | certificateNotFound
  | certificateInvalid (reason : String)
  | tokenNotFound
  | wrongTokenType
  | malformedToken (reason : String)
  | unknownIssuer (issuer : String)
  | verification (reason : String)
  | groupResolution (reason : String)
  | unsupported (name : String)
  | other (reason : String)
  deriving DecidableEq, Repr

def GrantError.message : GrantError → String
  | .certificateNotFound => "Valid certificate not found."
  | .certificateInvalid reason => s!"Invalid certificate chain: {reason}"
  | .tokenNotFound => "Not found a bearer access token."
  | .wrongTokenType => "Found a not bearer access token."
  | .malformedToken reason => s!"Malformed access token: {reason}"
  | .unknownIssuer issuer => s!"Identity provider for issuer {issuer} is not available."
  | .verification reason => s!"Token verification failed: {reason}"
  | .groupResolution reason => reason
  | .unsupported name => s!"{name} authentication type is not supported."
  | .other reason => reason

inductive ProviderError where
  | notFound (name : String)
  | unsupportedAlgorithm (name algorithm : String)
  | invalidKey (name reason : String)
  deriving DecidableEq, Repr

def ProviderError.message : ProviderError → String
  | .notFound name => s!"identity provider not found: {name}"
  | .unsupportedAlgorithm name algorithm =>
    s!"unsupported algorithm for provider {name}: {algorithm}"
  | .invalidKey name reason => s!"invalid key for provider {name}: {reason}"

/-- The verifier of one issuer's tokens. -/
structure Provider where
  name : String
  issuer : String
  key : List UInt8
  validation : Validation
  groupClaim : String
  defaultGroup : Option String

namespace Provider

/-- Seconds by which the issuer's clock may differ. -/
def leeway : Nat := 300

def loadKey (name : String) (algorithm : Token.Algorithm) (config : ProviderConfig) :
    Except ProviderError (List UInt8) :=
  match algorithm.family with
  | .hmac =>
    match config.secret with
    | some secret => .ok (Text.Utf8.encode secret)
    | none => .error (.invalidKey name "secret is required")
  | family =>
    match config.publicKeyPem with
    | some pem => (Token.loadKey family pem).mapError fun e => .invalidKey name e.message
    | none => .error (.invalidKey name "public_key_pem is required")

def ofConfig (name : String) (config : ProviderConfig) : Except ProviderError Provider :=
  match Token.Algorithm.ofName? config.algorithm with
  | none => .error (.unsupportedAlgorithm name config.algorithm)
  | some algorithm => do
    let key ← loadKey name algorithm config
    let issuer := normalizeIssuer config.issuer
    return {
      name, issuer, key
      validation := { algorithm, leeway, issuers := [issuer, issuer ++ "/"],
                      audience := config.audience }
      groupClaim := config.groupClaim
      defaultGroup := config.defaultGroup }

/-- The claims of a token, if it is genuine and valid at time `now`. -/
def verifyWith (check : Token.SignatureCheck) (p : Provider) (now : Nat) (token : String) :
    Except GrantError Json :=
  (Token.verifyWith check p.validation p.key now token).mapError fun e => .verification e.message

/-- The claims of a token, if its signature can be checked here. -/
def verify (p : Provider) (now : Nat) (token : String) : Except GrantError Json :=
  p.verifyWith Token.checkSignature now token

/-- The group that claims name: a text that is not empty, or the first item of a list if that is
a text. -/
def claimedGroup (p : Provider) (claims : Json) : Option String :=
  match claims.field? p.groupClaim with
  | some (.str group) => if group.isEmpty then none else some group
  | some (.arr (.str group :: _)) => some group
  | _ => none

def scopes (claims : Json) : List String :=
  match claims.field? "scope" with
  | some (.str scope) => Text.words scope
  | some (.arr items) => items.filterMap Json.str?
  | _ => []

/-- The record of a token's claims. -/
def resolveGroup (p : Provider) (claims : Json) : Except GrantError Credential :=
  match (claims.field? "sub").bind Json.str? with
  | none => .error (.groupResolution "Token has no subject.")
  | some subject =>
    match p.claimedGroup claims <|> p.defaultGroup with
    | none => .error (.groupResolution s!"No group found for {subject}.")
    | some group =>
      let username := ((claims.field? "preferred_username").bind Json.str?).getD subject
      .ok { id := some subject, username := some username, group := some group,
            properties := scopes claims }

end Provider

/-! ## Issuers -/

abbrev Issuers := Table Provider

namespace Issuers

def insert (issuers : Issuers) (provider : Provider) : Issuers :=
  Table.insert (normalizeIssuer provider.issuer) provider issuers

def get? (issuers : Issuers) (issuer : String) : Option Provider :=
  Table.get? (normalizeIssuer issuer) issuers

end Issuers

abbrev Registry := Table ProviderConfig

namespace Registry

/-- The category of providers whose tokens are accepted. -/
def idCategory : String := "Id"

def names (registry : Registry) (category : String) : List String :=
  registry.filterMap fun (name, config) =>
    if config.category = category then some name else none

def load (registry : Registry) (name : String) : Except ProviderError Provider :=
  match Table.get? name registry with
  | none => .error (.notFound name)
  | some config => Provider.ofConfig name config

def skipped (name : String) (e : ProviderError) : LogLine :=
  .warn "Identity provider skipped" [("provider", name), ("error", e.message)]

/-- Loads a category in order of names, passing over providers that cannot be used; of two with
one issuer the later wins. -/
def loadAll (registry : Registry) (category : String) : Issuers × Log :=
  (registry.names category).foldl (fun (issuers, log) name =>
    match registry.load name with
    | .ok provider => (issuers.insert provider, log)
    | .error e => (issuers, log ++ [skipped name e])) ([], [])

end Registry

end Gatehouse.Identity
