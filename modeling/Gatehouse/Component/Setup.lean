import Gatehouse.Component.Class
import Gatehouse.Grant.Chain
import Gatehouse.Identity.Provider
import Gatehouse.Policy.Gate
import Gatehouse.Telemetry.Monitor

/-!
# Setup of a class

The first use of a class sets it up; a setup that succeeds or fails is final, and every later use
gets the same runtime or the same failure.  `ClassState` holds what is shared by all uses, and its
operations are the steps that a use takes under the lock of the class: count the attempt, publish
the runtime and declare it ready, or record the failure.
-/

namespace Gatehouse.Component

/-- A class that has been set up. -/
structure Runtime (σ : Type) where
  info : Info
  gate : Policy.Gate
  issuers : Identity.Issuers
  methods : MethodTable σ
  grants : List String
  defaultAuthorization : Option (List String)

/-- What all uses of a class share. -/
structure ClassState (σ : Type) where
  /-- Whether the runtime may be used without the lock. -/
  ready : Bool := false
  runtime : Option (Runtime σ) := none
  failure : Option ServiceError := none
  /-- How many setups have been begun. -/
  attempts : Nat := 0
  /-- Present from the first setup on. -/
  monitor : Option Telemetry.Monitor := none
  /-- How many requests have reached a method. -/
  requests : Nat := 0

namespace ClassState

variable {σ : Type}

/-- The runtime, once it is ready. -/
def usable? (s : ClassState σ) : Option (Runtime σ) := if s.ready then s.runtime else none

def hasFailed (s : ClassState σ) : Bool := s.failure.isSome

/-- Whether the setup ended well, if it ended. -/
def outcome? (s : ClassState σ) : Option Bool :=
  if s.ready then some true else if s.hasFailed then some false else none

def beginAttempt (s : ClassState σ) : ClassState σ := { s with attempts := s.attempts + 1 }

/-- Publishes a runtime, unless one is published already. -/
def publish (s : ClassState σ) (runtime : Runtime σ) : ClassState σ :=
  { s with runtime := s.runtime <|> some runtime }

def markReady (s : ClassState σ) : ClassState σ := { s with ready := true }

/-- Records a failure, unless one is recorded already. -/
def fail (s : ClassState σ) (e : ServiceError) : ClassState σ :=
  { s with failure := s.failure <|> some e }

/-- What a use finds without setting the class up: the runtime or the failure. -/
def settled? (s : ClassState σ) : Option (Except ServiceError (Runtime σ)) :=
  match s.usable?, s.failure with
  | some runtime, _ => some (.ok runtime)
  | none, some e => some (.error e.replay)
  | none, none => none

/-- Counts a request that has reached a method. -/
def monitorRequest (s : ClassState σ) (path : String) : ClassState σ :=
  let served := s.requests + 1
  { s with
    requests := served
    monitor := s.monitor.map fun m =>
      (({ m with location := path }).setExtra "queries" (.int served)).mark
        Telemetry.Activity.queries.name }

end ClassState

/-! ## Building a runtime -/

/-- What classes share with each other. -/
structure Services where
  options : Config.OptionSource := .tree .null
  providers : Identity.Registry := []
  grants : GrantRegistry := .builtin
  /-- The milliseconds after which a method is given up, if it ever is. -/
  workerTimeout : Option Nat := none

/-- What one setup works on. -/
structure Setting (σ : Type) where
  state : ClassState σ
  /-- The handler instance that runs the hooks. -/
  instanceState : σ
  policies : Policy.Source
  log : Log := []

/-- What ends a setup before it has a runtime. -/
inductive Stop where
  | failed (error : ServiceError)
  /-- A hook broke down. -/
  | panicked (reason : String)

/-- Steps of a setup.  What they have changed before they stop stays changed. -/
abbrev SetupM (σ : Type) := ExceptT Stop (StateM (Setting σ))

/-- The monitor of a component that is being set up. -/
def initialMonitor (info : Info) : Telemetry.Monitor :=
  let m : Telemetry.Monitor := {
    componentType := "service"
    componentName := s!"Hermes/{info.fullName}"
    location := info.location }
  (m.register Telemetry.Activity.queries).setExtra "version" (.str info.version)

/-- The failure of a hook. -/
def hookFailure (component hook : String) (e : Raised) : ServiceError :=
  .initialization component s!"{hook} failed: {e.chain}"

namespace HandlerClass

variable {σ : Type} (c : HandlerClass σ)

/-- What a setup reports of itself. -/
def info (location : String) : Info where
  fullName := c.fullName
  system := c.system
  handler := c.handler
  location := location
  version := version

def report (lines : Log) : SetupM σ Unit :=
  modify fun s => { s with log := s.log ++ lines }

def engine : SetupM σ Policy.Engine := do
  let s ← get
  let (answer, policies) := s.policies.engineFor c.policySection
  set { s with policies }
  match answer with
  | .ok engine => return engine
  | .error e => throw (.failed (.initialization c.fullName e.message))

def startMonitor (info : Info) : SetupM σ Unit :=
  modify fun s => { s with state := { s.state with monitor := some (initialMonitor info) } }

def runHook (name : String) (hook : Hook σ) (context : SetupContext) : SetupM σ Unit := do
  let s ← get
  let (ending, instanceState) := hook context s.instanceState
  set { s with instanceState }
  match ending with
  | .returned () => return
  | .raised e => throw (.failed (hookFailure context.info.fullName name e))
  | .panicked reason => throw (.panicked reason)

/-- Builds the runtime of a class: its engine, its hooks, its issuers, in this order. -/
def build (services : Services) (location : String) : SetupM σ (Runtime σ) := do
  let info := c.info location
  report [.info "First use, initializing"
    [("component", info.fullName), ("location", location)]]
  let engine ← c.engine
  startMonitor info
  let context : SetupContext := ⟨info, services.options⟩
  runHook "pre_initialize" c.onPrepare context
  runHook "initialize" c.onSetup context
  let (issuers, skipped) := services.providers.loadAll Identity.Registry.idCategory
  report skipped
  report [.info "Component initialized" [("component", info.fullName),
    ("methods", toString c.methods.length), ("issuers", toString issuers.length)]]
  return { info, issuers
           gate := ⟨info.fullName, engine⟩
           methods := c.methods
           grants := c.grants
           defaultAuthorization := c.defaultAuthorization }

/-- Makes a runtime the one that every use gets. -/
def settle (runtime : Runtime σ) (s : Setting σ) : Setting σ :=
  { s with state := (s.state.publish runtime).markReady }

/-- Makes a failure the answer that every use gets. -/
def refuse (e : ServiceError) (s : Setting σ) : Setting σ :=
  let line : LogLine :=
    .error "Error in initialization" [("component", c.fullName), ("error", e.message)]
  { s with state := s.state.fail e, log := s.log ++ [line] }

/-- Sets the class up and records how that ended.  A setup that broke down leaves no record except
in the count. -/
def setUp (services : Services) (location : String) : SetupM σ (Runtime σ) := fun s =>
  match c.build services location { s with state := s.state.beginAttempt } with
  | (.ok runtime, s) => (.ok runtime, settle runtime s)
  | (.error (.failed e), s) => (.error (.failed e.replay), c.refuse e s)
  | (.error (.panicked reason), s) => (.error (.panicked reason), s)

/-- The runtime of a class, which is set up if it has not been. -/
def ensure (services : Services) (location : String) : SetupM σ (Runtime σ) := do
  match (← get).state.settled? with
  | some (.ok runtime) => return runtime
  | some (.error e) => throw (.failed e)
  | none => c.setUp services location

end HandlerClass

end Gatehouse.Component
