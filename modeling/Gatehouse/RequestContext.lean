import Gatehouse.Credential
import Gatehouse.Net.Address
import Gatehouse.ServiceError

/-!
# Request contexts

What a method sees of its request: where it came from, who asks, with which arguments.  Arguments
are decoded on demand, and an argument that is missing or does not fit is the caller's fault.
-/

namespace Gatehouse

/-- The view that a method has of its request. -/
structure RequestContext where
  requestId : String := ""
  path : String
  peer : Option Net.SocketAddress := none
  method : String := ""
  args : List Json := []
  kwargs : Json.Object := []
  credentials : Credential := {}
  requiredProperties : Option (List String) := none
  rawContent : Bool := false

namespace RequestContext

def decodeArgument (c : RequestContext) (d : Json.Decoder α) (label : String) (value : Json) :
    Except ServiceError α :=
  (d.take .value value.toDocument).mapError fun e =>
    .badRequest s!"{c.method} argument {label}: {e.message .value}"

def arg (c : RequestContext) (d : Json.Decoder α) (index : Nat) : Except ServiceError α :=
  match c.args[index]? with
  | none =>
    .error (.badRequest s!"{c.method} expects argument {index}, got {c.args.length}")
  | some value => c.decodeArgument d (toString index) value

/-- A keyword argument, which may be absent. -/
def kwarg (c : RequestContext) (d : Json.Decoder α) (name : String) :
    Except ServiceError (Option α) :=
  match Table.get? name c.kwargs with
  | none => .ok none
  | some value => (c.decodeArgument d name value).map some

/-- Peer and caller, for the log. -/
def remoteCredentials (c : RequestContext) : String :=
  let peer := match c.peer with
    | some address => address.unscopedText
    | none => "unknown"
  s!"({peer}){c.credentials.formatted}"

end RequestContext

end Gatehouse
