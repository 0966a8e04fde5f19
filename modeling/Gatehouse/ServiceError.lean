import Gatehouse.Http.Status
import Gatehouse.Json.Basic

/-!
# Service errors

Every failure of a request is one of seven kinds.  The kind fixes the status, the code and the
category that the client sees in an error envelope; what the envelope says about internal and
initialization failures does not depend on their text.
-/

namespace Gatehouse

open Http (Status)

/-- What goes wrong in code that knows nothing of service errors: a text and the contexts that
callers put around it, the outermost first. -/
structure Trail where
  contexts : List String
  root : String
  deriving DecidableEq, Repr

namespace Trail

def texts (t : Trail) : List String := t.contexts ++ [t.root]

def outermost (t : Trail) : String := t.contexts.headD t.root

end Trail

/-- The public classes of failure. -/
inductive ErrorCategory where
  | initialization | authentication | authorization | notImplemented | badRequest | internal | http
  deriving DecidableEq, Repr

namespace ErrorCategory

def name : ErrorCategory → String
  | .initialization => "initialization"
  | .authentication => "authentication"
  | .authorization => "authorization"
  | .notImplemented => "not_implemented"
  | .badRequest => "bad_request"
  | .internal => "internal"
  | .http => "http"

def all : List ErrorCategory :=
  [.initialization, .authentication, .authorization, .notImplemented, .badRequest, .internal, .http]

def defaultStatus : ErrorCategory → Status
  | .initialization | .internal | .http => .internalServerError
  | .authentication => .unauthorized
  | .authorization => .forbidden
  | .notImplemented => .notImplemented
  | .badRequest => .badRequest

end ErrorCategory

/-- A failure of a request. -/
inductive ServiceError where
  | initialization (component message : String)
  | authentication (message : String)
  | authorization (method : Option String)
  | notImplemented (method : String)
  | badRequest (message : String)
  | internal (message : String) (source : Option Trail)
  | http (status : Status) (message : String)
  deriving DecidableEq, Repr

namespace ServiceError

def category : ServiceError → ErrorCategory
  | .initialization .. => .initialization
  | .authentication _ => .authentication
  | .authorization _ => .authorization
  | .notImplemented _ => .notImplemented
  | .badRequest _ => .badRequest
  | .internal .. => .internal
  | .http .. => .http

def status : ServiceError → Status
  | .http status _ => status
  | other => other.category.defaultStatus

/-- The full text, for the log. -/
def message : ServiceError → String
  | .initialization component message => s!"Initialization failed for {component}: {message}"
  | .authentication message => s!"Authentication error: {message}"
  | .authorization _ => "Unauthorized query"
  | .notImplemented method => s!"Method {method} is not implemented"
  | .badRequest message => s!"Bad request: {message}"
  | .internal message _ => s!"Internal error: {message}"
  | .http status message => s!"HTTP {status.text}: {message}"

/-- The same failure for another caller, without what caused it. -/
def replay : ServiceError → ServiceError
  | .internal message _ => .internal message none
  | other => other

def code : ServiceError → String
  | .initialization .. => "INITIALIZATION_ERROR"
  | .authentication _ => "AUTHENTICATION_ERROR"
  | .authorization _ => "AUTHORIZATION_DENIED"
  | .notImplemented _ => "NOT_IMPLEMENTED"
  | .badRequest _ => "BAD_REQUEST"
  | .internal .. => "INTERNAL_ERROR"
  | .http .. => "HTTP_ERROR"

/-- The text for the client. -/
def clientMessage : ServiceError → String
  | .internal .. => "Internal server error"
  | .initialization component _ => s!"Component {component} is not available"
  | other => other.message

def details : ServiceError → Option Json
  | .authorization (some method) | .notImplemented method =>
    some (.obj [("method", .str method)])
  | .http status _ => some (.obj [("status", .int status.code)])
  | _ => none

/-- What the client gets as the body of an error response. -/
def envelope (e : ServiceError) (requestId : Option String) : Json :=
  let detail := match e.details with
    | some d => [("details", d)]
    | none => []
  let error := Json.obj ([("category", .str e.category.name), ("code", .str e.code)] ++ detail ++
    [("message", .str e.clientMessage)])
  .obj (("error", error) :: match requestId with
    | some id => [("request_id", .str id)]
    | none => [])

end ServiceError

/-- What a hook or a method may raise: a service error that keeps its kind through any number of
contexts, or anything else. -/
inductive Raised where
  | typed (contexts : List String) (error : ServiceError)
  | untyped (trail : Trail)
  deriving DecidableEq, Repr

/-- Every text of the chain, the outermost first, each followed by what it is about. -/
def Raised.chain (r : Raised) : String :=
  ": ".intercalate <| match r with
    | .typed contexts (.internal message (some source)) =>
      contexts ++ (ServiceError.internal message none).message :: source.texts
    | .typed contexts error => contexts ++ [error.message]
    | .untyped trail => trail.texts

end Gatehouse
