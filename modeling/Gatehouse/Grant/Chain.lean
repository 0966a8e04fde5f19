import Gatehouse.Grant.Basic
import Gatehouse.ServiceError
import Gatehouse.Text.Upper

/-!
# Grant chains

Grants are registered by name, without regard to case.  A chain tries the named grants in order;
the first record ends it, and if none comes, every position has given its reason.  How a grant is
asked is a parameter of the chain, so that what is asked can be observed.
-/

namespace Gatehouse

open Identity (GrantError)

/-- Grants by upper-case name, sorted. -/
abbrev GrantRegistry := Table Grant

namespace GrantRegistry

/-- Registers a grant, replacing an earlier one of the same name. -/
def register (registry : GrantRegistry) (name : String) (grant : Grant) : GrantRegistry :=
  Table.insert (Text.upper name) grant registry

def get? (registry : GrantRegistry) (name : String) : Option Grant :=
  Table.get? (Text.upper name) registry

def names (registry : GrantRegistry) : List String := Table.names registry

/-- The registry in which grants have been registered one after another. -/
def ofRegistrations (registrations : List (String × Grant)) : GrantRegistry :=
  registrations.foldl (fun registry (name, grant) => registry.register name grant) []

def builtin : GrantRegistry :=
  ofRegistrations [
    ("SSL", .certificate Certificate.readChain), ("CERT", .certificate Certificate.readChain),
    ("JWT", .bearer), ("TOKEN", .bearer), ("VISITOR", .visitor), ("ANONYMOUS", .visitor)]

end GrantRegistry

/-- Why no grant of a chain applied: a reason for each. -/
structure AuthenticationFailure where
  reasons : List String
  deriving DecidableEq, Repr

namespace AuthenticationFailure

def message (f : AuthenticationFailure) : String := "; ".intercalate f.reasons

/-- What the client is told, whatever the reasons. -/
def toServiceError (_ : AuthenticationFailure) : ServiceError :=
  .authentication "Unable to authenticate the request"

end AuthenticationFailure

/-- The reason that a position of a chain gives. -/
def grantReason (name : String) (e : GrantError) : String :=
  s!"{name} authentication: {e.message}"

namespace GrantRegistry

section

variable {m : Type → Type} [Monad m] (ask : String → Grant → m (Except GrantError Credential))
  (registry : GrantRegistry)

/-- Tries one grant; `ask` is how a registered grant is asked. -/
def tryGrant (name : String) : m (Except GrantError Credential) :=
  match registry.get? name with
  | some grant => ask name grant
  | none => return .error (.unsupported name)

def tryAll : List String → m (Except (List String) Credential)
  | [] => return .error []
  | name :: rest => do
    let name := Text.upper name
    match ← registry.tryGrant ask name with
    | .ok record => return .ok record
    | .error e => return (← tryAll rest).mapError (grantReason name e :: ·)

/-- The record of the first grant that applies.  Where no grant is named, anyone may come. -/
def resolveWith (grants : List String) : m (Except AuthenticationFailure Credential) := do
  if grants.isEmpty then return .ok {}
  return (← registry.tryAll ask grants).mapError .mk

end

def resolve (registry : GrantRegistry) (grants : List String) (c : GrantContext) :
    Except AuthenticationFailure Credential :=
  Id.run (registry.resolveWith (fun _ grant => return grant.authenticate c) grants)

end GrantRegistry

end Gatehouse
