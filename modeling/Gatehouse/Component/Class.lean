import Gatehouse.Component.Method
import Gatehouse.Component.Name
import Gatehouse.Config.Options
import Gatehouse.Arguments

/-!
# Handler classes

A class says everything that its handler instances share: the names and the section, how callers
authenticate, what is exported, and the hooks that run at setup and before each method.  `σ` is the
state of one instance.
-/

namespace Gatehouse.Component

/-- What is known of a component when it is set up. -/
structure Info where
  fullName : String
  system : String
  handler : String
  /-- The path of the request that caused the setup. -/
  location : String
  version : String
  deriving DecidableEq, Repr

def version : String := "0.1.0"

/-- What a setup hook can look at. -/
structure SetupContext where
  info : Info
  options : Config.OptionSource

def SetupContext.option (c : SetupContext) (name : String) (default : Json) : Json :=
  c.options.componentOption c.info.system c.info.handler name default

/-- A setup hook: how it ends, and the state it leaves. -/
abbrev Hook (σ : Type) := SetupContext → σ → Ending Unit × σ

def Hook.none {σ : Type} : Hook σ := fun _ state => (.returned (), state)

/-- The grants of a class that names none. -/
def defaultGrants : List String := ["SSL", "JWT"]

/-- A class of handlers. -/
structure HandlerClass (σ : Type) where
  system : String
  handler : String
  /-- The name of its rules. -/
  policySection : String := fullName system handler
  grants : List String := defaultGrants
  /-- The properties required by methods that declare none. -/
  defaultAuthorization : Option (List String) := .none
  methods : MethodTable σ
  onPrepare : Hook σ := Hook.none
  onSetup : Hook σ := Hook.none
  onRequest : Work σ Unit := Work.done ()
  methodName : Arguments → Except ServiceError String := Arguments.defaultMethod
  methodArguments : Arguments → Except ServiceError (List Json × Json.Object) :=
    Arguments.defaultArguments

/-- The name under which components of the class are known. -/
def HandlerClass.fullName {σ : Type} (c : HandlerClass σ) : String :=
  Component.fullName c.system c.handler

end Gatehouse.Component
