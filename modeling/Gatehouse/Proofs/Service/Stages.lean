import Gatehouse.Proofs.Component.Build
import Gatehouse.Proofs.Service.Response

/-!
# The stages of a request

Each stage by itself, as an equation: its answer and the scene that it leaves.  A request that is
stopped leaves the scene of the stage that stopped it, and one that passes all stages leaves the
scene in which its work is done.
-/

namespace Gatehouse.Service

open Component (ClassState HandlerClass Method Runtime Services Setting Work)
open Effect
open Response

variable {σ : Type}

/-! ## Scenes -/

def Scene.updated (s : Scene σ) (change : RequestContext → RequestContext) : Scene σ :=
  { s with context := change s.context }

def Scene.marked (s : Scene σ) : Scene σ :=
  { s with setting := { s.setting with state := s.setting.state.monitorRequest s.context.path } }

/-! ## Single stages -/

variable (c : HandlerClass σ) (services : Services)

/-- What the end of a first use means to a request. -/
def settled (s : Scene σ) : Except Component.Stop (Runtime σ) × Setting σ →
    Except ServiceError (Runtime σ) × Scene σ
  | (.ok runtime, setting) => (.ok runtime, { s with setting })
  | (.error (.failed e), setting) => (.error e, { s with setting })
  | (.error (.panicked _), setting) => (.error (.internal "Initialization failed" none),
      Scene.reported { s with setting }
        (.error "Initialization task failed" [("component", c.fullName)]))

theorem runtimeFor_run (location : String) (s : Scene σ) :
    (runtimeFor c services location).run s =
      settled c s ((c.ensure services location).run s.setting) := by
  rw [runtimeFor, run_bind_ok (run_get s)]
  rcases (c.ensure services location).run s.setting with ⟨(e | reason) | runtime, setting⟩ <;> rfl

def unknownMethodLine (runtime : Runtime σ) (name : String) : LogLine :=
  .error "Invalid method" [("component", runtime.info.fullName), ("method", name)]

theorem resolveMethod_run (runtime : Runtime σ) (name : String) (s : Scene σ) :
    (resolveMethod runtime name).run s =
      match runtime.methods.resolve name with
      | some method => (.ok method, (s.updated ({ · with method := name })).marked)
      | none => (.error (.notImplemented name),
          (s.updated ({ · with method := name })).reported (unknownMethodLine runtime name)) := by
  rw [resolveMethod]
  have hname : (updateContext ({ · with method := name }) : Stage σ Unit).run s =
      (.ok (), s.updated ({ · with method := name })) := rfl
  rw [run_bind_ok hname]
  cases runtime.methods.resolve name <;> rfl

def unauthenticatedLine (runtime : Runtime σ) (context : RequestContext)
    (failure : AuthenticationFailure) : LogLine :=
  .warn "Error gathering credentials" [("component", runtime.info.fullName),
    ("path", context.path), ("peer", context.remoteCredentials), ("reasons", failure.message)]

theorem authenticate_run (runtime : Runtime σ) (grantContext : GrantContext) (s : Scene σ) :
    (authenticate services runtime grantContext).run s =
      match services.grants.resolve runtime.grants grantContext with
      | .ok credentials => (.ok (), s.updated ({ · with credentials }))
      | .error failure => (.error failure.toServiceError,
          s.reported (unauthenticatedLine runtime s.context failure)) := by
  rw [authenticate]
  cases services.grants.resolve runtime.grants grantContext <;> rfl

section

variable {runtime : Runtime σ} {method : Method σ} {s : Scene σ} {record : Credential}

/-- The properties that a call of a method requires. -/
def requiredFor (runtime : Runtime σ) (method : Method σ) : Option (List String) :=
  Policy.Gate.requiredProperties method.required runtime.defaultAuthorization

theorem authorize_allowed
    (h : runtime.gate.engine.authorize s.context.method (requiredFor runtime method)
      s.context.credentials = (true, record)) :
    (authorize runtime method).run s =
      (.ok (), s.updated ({ · with
        credentials := record, requiredProperties := requiredFor runtime method })) := by
  rw [requiredFor] at h
  rw [authorize, run_bind_ok (run_get s)]
  simp only [Policy.Gate.check, h]
  rfl

theorem authorize_refused
    (h : runtime.gate.engine.authorize s.context.method (requiredFor runtime method)
      s.context.credentials = (false, record)) :
    (authorize runtime method).run s =
      (.error (.authorization (some s.context.method)),
        (s.reported (runtime.gate.refusal s.context.method s.context.path record)).updated
          ({ · with credentials := record })) := by
  rw [requiredFor] at h
  rw [authorize, run_bind_ok (run_get s)]
  simp only [Policy.Gate.check, h]
  rfl

end

/-! ## How far a request gets -/

/-- A request as it arrives at a class. -/
structure Visit (σ : Type) where
  handlerClass : HandlerClass σ
  services : Services
  now : Nat
  request : Request
  scene : Scene σ

namespace Visit

variable (a : Visit σ)

/-- The use of the class that the request begins with. -/
def setup : Except Component.Stop (Runtime σ) × Setting σ :=
  (a.handlerClass.ensure a.services a.request.path).run a.scene.setting

def afterSetup : Scene σ := { a.scene with setting := a.setup.2 }

def afterNaming (name : String) : Scene σ := a.afterSetup.updated ({ · with method := name })

def afterResolution (name : String) : Scene σ := (a.afterNaming name).marked

def afterAuthentication (name : String) (record : Credential) : Scene σ :=
  (a.afterResolution name).updated ({ · with credentials := record })

def afterAuthorization (name : String) (enriched : Credential)
    (required : Option (List String)) : Scene σ :=
  (a.afterResolution name).updated
    ({ · with credentials := enriched, requiredProperties := required })

def grantContext (runtime : Runtime σ) (arguments : Arguments) : GrantContext where
  headers := a.request.headers
  peerCertificates := a.request.peerCertificates
  arguments := arguments.values
  issuers := runtime.issuers
  now := a.now

end Visit

structure SetUp (a : Visit σ) (runtime : Runtime σ) : Prop where
  setup : a.setup.1 = .ok runtime

structure Parsed (a : Visit σ) (runtime : Runtime σ) (arguments : Arguments) : Prop
    extends SetUp a runtime where
  parsed : Arguments.parse a.request = .ok arguments

/-- They name a method. -/
structure Named (a : Visit σ) (runtime : Runtime σ) (arguments : Arguments) (name : String) :
    Prop extends Parsed a runtime arguments where
  named : a.handlerClass.methodName arguments = .ok name

structure Resolved (a : Visit σ) (runtime : Runtime σ) (arguments : Arguments) (name : String)
    (method : Method σ) : Prop extends Named a runtime arguments name where
  resolved : runtime.methods.resolve name = some method

/-- The grants of the class have found out who asks. -/
structure Authenticated (a : Visit σ) (runtime : Runtime σ) (arguments : Arguments)
    (name : String) (method : Method σ) (record : Credential) : Prop
    extends Resolved a runtime arguments name method where
  authenticated : a.services.grants.resolve runtime.grants (a.grantContext runtime arguments)
    = .ok record

/-- The engine of the class allows the call, with the properties that the method or else the class
requires, and completes the record. -/
structure Authorized (a : Visit σ) (runtime : Runtime σ) (arguments : Arguments) (name : String)
    (method : Method σ) (record enriched : Credential) : Prop
    extends Authenticated a runtime arguments name method record where
  authorized : runtime.gate.engine.authorize name (method.required <|> runtime.defaultAuthorization)
    record = (true, enriched)

/-- What has been found out of a request that passes all stages. -/
structure Admission (σ : Type) where
  runtime : Runtime σ
  arguments : Arguments
  name : String
  method : Method σ
  /-- The record as the grants have found it. -/
  record : Credential
  /-- The record as the engine has completed it. -/
  enriched : Credential
  args : List Json
  kwargs : Json.Object

/-- The request passes all stages. -/
structure Admitted (a : Visit σ) (d : Admission σ) : Prop
    extends Authorized a d.runtime d.arguments d.name d.method d.record d.enriched where
  decoded : a.handlerClass.methodArguments d.arguments = .ok (d.args, d.kwargs)

/-- The request passes some stages and fails at the next, which leaves an error and a scene. -/
inductive Stopped (a : Visit σ) : ServiceError → Scene σ → Prop where
  | setup {e : ServiceError} (h : a.setup.1 = .error (.failed e)) : Stopped a e a.afterSetup
  | brokenSetup {reason : String} (h : a.setup.1 = .error (.panicked reason)) :
      Stopped a (.internal "Initialization failed" none) (a.afterSetup.reported
        (.error "Initialization task failed" [("component", a.handlerClass.fullName)]))
  | arguments {runtime : Runtime σ} {e : ServiceError} (before : SetUp a runtime)
      (h : Arguments.parse a.request = .error e) : Stopped a e a.afterSetup
  | methodName {runtime : Runtime σ} {arguments : Arguments} {e : ServiceError}
      (before : Parsed a runtime arguments)
      (h : a.handlerClass.methodName arguments = .error e) : Stopped a e a.afterSetup
  | resolution {runtime : Runtime σ} {arguments : Arguments} {name : String}
      (before : Named a runtime arguments name) (h : runtime.methods.resolve name = none) :
      Stopped a (.notImplemented name)
        ((a.afterNaming name).reported (unknownMethodLine runtime name))
  | authentication {runtime : Runtime σ} {arguments : Arguments} {name : String}
      {method : Method σ} {failure : AuthenticationFailure}
      (before : Resolved a runtime arguments name method)
      (h : a.services.grants.resolve runtime.grants (a.grantContext runtime arguments)
        = .error failure) :
      Stopped a failure.toServiceError ((a.afterResolution name).reported
        (unauthenticatedLine runtime (a.afterResolution name).context failure))
  | authorization {runtime : Runtime σ} {arguments : Arguments} {name : String}
      {method : Method σ} {record enriched : Credential}
      (before : Authenticated a runtime arguments name method record)
      (h : runtime.gate.engine.authorize name (method.required <|> runtime.defaultAuthorization)
        record = (false, enriched)) :
      Stopped a (.authorization (some name))
        (((a.afterResolution name).reported
          (runtime.gate.refusal name a.scene.context.path enriched)).updated
            ({ · with credentials := enriched }))
  | methodArguments {runtime : Runtime σ} {arguments : Arguments} {name : String}
      {method : Method σ} {record enriched : Credential} {e : ServiceError}
      (before : Authorized a runtime arguments name method record enriched)
      (h : a.handlerClass.methodArguments arguments = .error e) :
      Stopped a e (a.afterAuthorization name enriched
        (method.required <|> runtime.defaultAuthorization))

/-- Every request passes all stages or is stopped by one. -/
theorem stopped_or_admitted (a : Visit σ) :
    (∃ e after, Stopped a e after) ∨ ∃ d, Admitted a d := by
  rcases hsetup : a.setup.1 with (e | reason) | runtime
  · exact .inl ⟨_, _, .setup hsetup⟩
  · exact .inl ⟨_, _, .brokenSetup hsetup⟩
  have setUp : SetUp a runtime := ⟨hsetup⟩
  rcases hparse : Arguments.parse a.request with e | arguments
  · exact .inl ⟨_, _, .arguments setUp hparse⟩
  have parsed : Parsed a runtime arguments := ⟨setUp, hparse⟩
  rcases hname : a.handlerClass.methodName arguments with e | name
  · exact .inl ⟨_, _, .methodName parsed hname⟩
  have named : Named a runtime arguments name := ⟨parsed, hname⟩
  rcases hresolve : runtime.methods.resolve name with _ | method
  · exact .inl ⟨_, _, .resolution named hresolve⟩
  have resolved : Resolved a runtime arguments name method := ⟨named, hresolve⟩
  rcases hgrants : a.services.grants.resolve runtime.grants (a.grantContext runtime arguments) with
    failure | record
  · exact .inl ⟨_, _, .authentication resolved hgrants⟩
  have authenticated : Authenticated a runtime arguments name method record := ⟨resolved, hgrants⟩
  rcases hengine : runtime.gate.engine.authorize name
    (method.required <|> runtime.defaultAuthorization) record with ⟨_ | _, enriched⟩
  · exact .inl ⟨_, _, .authorization authenticated hengine⟩
  have authorized : Authorized a runtime arguments name method record enriched :=
    ⟨authenticated, hengine⟩
  rcases hdecode : a.handlerClass.methodArguments arguments with e | ⟨args, kwargs⟩
  · exact .inl ⟨_, _, .methodArguments authorized hdecode⟩
  · exact .inr ⟨⟨runtime, arguments, name, method, record, enriched, args, kwargs⟩,
      authorized, hdecode⟩

end Gatehouse.Service
