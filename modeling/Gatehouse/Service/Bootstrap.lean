import Gatehouse.Service.Fault
import Gatehouse.Service.Server

/-!
# Starting a service

A service starts from the defaults, the environment file, a settings file if there is one, and the
overrides of the environment, in this order.
-/

namespace Gatehouse.Service

open Config (LoadError Loader Settings)
open Telemetry (LogStyle Session)

/-- What the names of overriding variables begin with. -/
def environmentLead : String := "HERMES"

/-- The settings that a service starts with, and what was reported on the way. -/
def loadSettings (around : Config.Surroundings) (path : Option String) :
    Except LoadError Settings × Log :=
  let (around, log) := around.withDotenv
  let loader : Except LoadError Loader := match path with
    | some path => Loader.optionalFile {} around path
    | none => .ok {}
  (loader.bind fun loader => (loader.overridable environmentLead).load around, log)

def startTelemetry (session : Session) (settings : Settings) : Except StartFault Unit × Session :=
  let (answer, session) := session.install (.ofSettings settings.telemetry.logging)
    settings.telemetry.metrics
  (answer.mapError .telemetry, session)

/-- A server without endpoints, ready to be given some. -/
def bootstrap {σ : Type} (session : Session) (around : Config.Surroundings)
    (path : Option String) : Except StartFault (Server σ) × Session :=
  match (loadSettings around path).1 with
  | .error e => (.error (.settings e), session)
  | .ok settings =>
    let (answer, session) := startTelemetry session settings
    (answer.map fun () => .ofSettings settings, session)

end Gatehouse.Service
