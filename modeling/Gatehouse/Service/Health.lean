import Gatehouse.Json.Basic

/-!
# Health and readiness

A service that answers at all is healthy.  It is ready while it accepts requests and none of its
components has failed to set itself up; one that has not been used yet does no harm.
-/

namespace Gatehouse.Service

/-- What is known of a component's setup. -/
inductive Readiness where
  | ready | pending | failed
  deriving DecidableEq, Repr

namespace Readiness

/-- Readiness from whether the setup ended well, if it ended. -/
def ofSetup : Option Bool → Readiness
  | some true => .ready
  | some false => .failed
  | none => .pending

def name : Readiness → String
  | .ready => "ready"
  | .pending => "pending"
  | .failed => "failed"

end Readiness

/-- What a readiness probe is told: for each component name what is known of it, sorted. -/
structure ReadinessReport where
  ready : Bool
  components : Table Readiness
  deriving DecidableEq, Repr

namespace ReadinessReport

/-- The report over mounted components; of several with one name the last is reported. -/
def of (accepting : Bool) (components : List (String × Readiness)) : ReadinessReport :=
  let components := Table.ofList components
  ⟨accepting && components.all (·.2 ≠ .failed), components⟩

def toJson (r : ReadinessReport) : Json :=
  .obj [("ready", .bool r.ready),
    ("components", .obj (r.components.map fun (name, state) => (name, .str state.name)))]

end ReadinessReport

def healthReport (service version : String) (uptimeSeconds : Nat) : Json :=
  .obj [("status", .str "healthy"), ("service", .str service), ("version", .str version),
    ("uptime_seconds", .int uptimeSeconds)]

end Gatehouse.Service
