import Gatehouse.Component.Setup
import Gatehouse.Request

/-!
# Handling a request

A request passes its stages in order: setup of the class, reading of the arguments, choice of the
method, authentication, authorization, decoding of the method's arguments, and the work itself.
The first stage that fails decides the response.  Every request ends in one finished response, one
line about its outcome and one count.
-/

namespace Gatehouse.Service

open Component (ClassState HandlerClass Method Runtime Services Setting)
open Response (Edit MethodResult Writer)

structure RequestCount where
  component : String
  method : String
  outcome : String
  deriving DecidableEq, Repr

/-- What handling a request works on. -/
structure Scene (σ : Type) where
  setting : Setting σ
  context : RequestContext
  counts : List RequestCount := []

/-- Stages of handling.  A stage that fails leaves what the stages before it have done. -/
abbrev Stage (σ : Type) := ExceptT ServiceError (StateM (Scene σ))

/-- The milliseconds of a time limit as a text: seconds from one second on. -/
def durationText (milliseconds : Nat) : String :=
  if milliseconds < 1000 then s!"{milliseconds}ms"
  else
    let fraction := (toString (1000 + milliseconds % 1000)).toList.drop 1
    match Text.dropTrailing '0' fraction with
    | [] => s!"{milliseconds / 1000}s"
    | digits => s!"{milliseconds / 1000}.{String.ofList digits}s"

/-- What an error that a method raised means to the client: a service error keeps its kind, and
anything else is an internal failure. -/
def normalizeError (component method : String) (e : Raised) : ServiceError × LogLine :=
  let fields (text : String) := [("component", component), ("method", method), ("error", text)]
  match e with
  | .typed _ error => (error, .warn "Method raised a typed error" (fields error.message))
  | .untyped trail =>
    (.internal "Exception serving request" (some trail),
      .error "Exception serving request" (fields e.chain))

section

variable {σ : Type} {m : Type → Type} [MonadState (Scene σ) m]

def report (line : LogLine) : m Unit :=
  modify fun s => { s with setting := { s.setting with log := s.setting.log ++ [line] } }

def updateState (change : ClassState σ → ClassState σ) : m Unit :=
  modify fun s => { s with setting := { s.setting with state := change s.setting.state } }

def updateContext (change : RequestContext → RequestContext) : m Unit :=
  modify fun s => { s with context := change s.context }

end

section

variable {σ : Type} (c : HandlerClass σ) (services : Services)

/-! ## Before the work -/

def runtimeFor (location : String) : Stage σ (Runtime σ) := do
  let scene ← get
  let (answer, setting) := (c.ensure services location).run scene.setting
  set { scene with setting }
  match answer with
  | .ok runtime => return runtime
  | .error (.failed e) => throw e
  | .error (.panicked _) =>
    report (.error "Initialization task failed" [("component", c.fullName)])
    throw (.internal "Initialization failed" none)

def resolveMethod (runtime : Runtime σ) (name : String) : Stage σ (Method σ) := do
  updateContext ({ · with method := name })
  match runtime.methods.resolve name with
  | some method =>
    let path := (← get).context.path
    updateState (·.monitorRequest path)
    return method
  | none =>
    report (.error "Invalid method" [("component", runtime.info.fullName), ("method", name)])
    throw (.notImplemented name)

/-- Finds out who asks. -/
def authenticate (runtime : Runtime σ) (grantContext : GrantContext) : Stage σ Unit := do
  match services.grants.resolve runtime.grants grantContext with
  | .ok credentials => updateContext ({ · with credentials })
  | .error failure =>
    let context := (← get).context
    report (.warn "Error gathering credentials" [("component", runtime.info.fullName),
      ("path", context.path), ("peer", context.remoteCredentials), ("reasons", failure.message)])
    throw failure.toServiceError

/-- Finds out whether the caller may.  The caller's record is completed on the way. -/
def authorize (runtime : Runtime σ) (method : Method σ) : Stage σ Unit := do
  let context := (← get).context
  let requiredProperties :=
    Policy.Gate.requiredProperties method.required runtime.defaultAuthorization
  let (answer, credentials, log) :=
    runtime.gate.check context.method context.path requiredProperties context.credentials
  log.forM report
  updateContext ({ · with credentials })
  liftM answer
  updateContext ({ · with requiredProperties })

/-- Takes a request from its arrival to the point where the work can begin. -/
def prepare (now : Nat) (request : Request) : Stage σ (Method σ) := do
  let runtime ← runtimeFor c services request.path
  let arguments ← liftM (Arguments.parse request)
  let name ← liftM (c.methodName arguments)
  let method ← resolveMethod runtime name
  authenticate services runtime {
    headers := request.headers
    peerCertificates := request.peerCertificates
    arguments := arguments.values
    issuers := runtime.issuers
    now }
  authorize runtime method
  let (args, kwargs) ← liftM (c.methodArguments arguments)
  updateContext ({ · with args, kwargs, rawContent := arguments.rawContent })
  return method

/-! ## The work -/

/-- Carries a method out.  Whatever it does, its view of the request replaces the context only if
it ends in time and does not break down. -/
def execute (method : Method σ) : Stage σ MethodResult := do
  let scene ← get
  let run := (c.onRequest.andThen fun () => method.call) scene.setting.instanceState scene.context
  set { scene with setting := { scene.setting with instanceState := run.state } }
  let fields := [("component", c.fullName), ("method", scene.context.method)]
  match services.workerTimeout.filter (· ≤ run.milliseconds) with
  | some limit =>
    report (.error "Method execution timed out" (fields ++ [("timeout", durationText limit)]))
    throw (.internal "Method execution timed out" none)
  | none =>
    match run.ending with
    | .returned result =>
      updateContext fun _ => run.context
      return result
    | .raised e =>
      updateContext fun _ => run.context
      let (error, line) := normalizeError c.fullName run.context.method e
      report line
      throw error
    | .panicked _ =>
      report (.error "Worker task failed" fields)
      throw (.internal "Method execution failed" none)

/-! ## The response -/

/-- Reports and counts how a request ended. -/
def recordOutcome (w : Writer) (structured : Option Json) : StateM (Scene σ) Unit := do
  let context := (← get).context
  let method := if context.method.isEmpty then "unknown" else context.method
  let outcome := Response.classify w.status structured
  let failed := w.status.code ≥ 400 || outcome.startsWith "ERROR"
  modify fun s => { s with
    counts := s.counts ++ [⟨c.fullName, method, if failed then "error" else "ok"⟩] }
  report {
    level := .info
    message := s!"{context.remoteCredentials} {c.fullName} {outcome}"
    fields := [("component", c.fullName), ("method", method),
      ("status", toString w.status.code)]
    timed := true }

def errorWriter (e : ServiceError) (requestId : Option String) : Writer :=
  ((Writer.new).edit (Response.finishError e requestId)).2

/-- The response to a request that failed. -/
def respondError (e : ServiceError) : StateM (Scene σ) Writer := do
  let w := errorWriter e (some (← get).context.requestId)
  recordOutcome c w none
  return w

/-- Completes a response by the method's own finisher or else by the rules for its result.  The
answer is the structured value that the rules have sent. -/
def complete (method : Method σ) (state : σ) (context : RequestContext) (result : MethodResult) :
    Edit (Option Json) := do
  match method.finisher with
  | some finisher =>
    finisher state context result.strip
    return none
  | none => result.finish context.rawContent

/-- The response to a request whose work returned.  If it cannot be completed, a response that was
finished before stands, and any other gives way to an internal failure. -/
def respond (method : Method σ) (result : MethodResult) : StateM (Scene σ) Writer := do
  let scene ← get
  let context := scene.context
  let (answer, w) :=
    (Writer.new).edit (complete method scene.setting.instanceState context result)
  match answer with
  | .ok structured =>
    let w := if w.finished then w else (w.edit (Edit.finish none)).2
    recordOutcome c w structured
    return w
  | .error e =>
    report (.error "Failed to complete response" [("component", c.fullName),
      ("method", context.method), ("error", e.message)])
    let w := if w.finished then w
      else errorWriter (.internal "Failed to complete response" (some ⟨[], e.message⟩))
        (some context.requestId)
    recordOutcome c w none
    return w

/-- Handles a request. -/
def handle (now : Nat) (request : Request) : StateM (Scene σ) Writer := do
  let work : Stage σ (Method σ × MethodResult) := do
    let method ← prepare c services now request
    return (method, ← execute c services method)
  match ← work.run with
  | .ok (method, result) => respond c method result
  | .error e => respondError c e

end

end Gatehouse.Service
