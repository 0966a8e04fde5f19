import Gatehouse.Json.Basic

/-!
# Component monitors

A monitor holds what a component reports of itself: type, name and location, the activities it
announces, how often each activity was marked, and further parameters.
-/

namespace Gatehouse.Telemetry

inductive ActivityKind where
  | rate | sum | mean
  deriving DecidableEq, Repr

namespace ActivityKind

def name : ActivityKind → String
  | .rate => "rate"
  | .sum => "sum"
  | .mean => "mean"

def ofName? (name : String) : Option ActivityKind :=
  [("rate", .rate), ("sum", .sum), ("mean", .mean)].lookup name

end ActivityKind

/-- Something that a component does and counts. -/
structure Activity where
  name : String
  description : String
  category : String
  unit : String
  kind : ActivityKind
  deriving DecidableEq, Repr

/-- The activity that every component announces. -/
def Activity.queries : Activity where
  name := "Queries"
  description := "Queries served"
  category := "Framework"
  unit := "queries"
  kind := .rate

def Activity.toJson (a : Activity) : Json :=
  .obj [("category", .str a.category), ("description", .str a.description),
    ("kind", .str a.kind.name), ("name", .str a.name), ("unit", .str a.unit)]

structure Monitor where
  componentType : String := ""
  componentName : String := ""
  location : String := ""
  /-- In order of announcement. -/
  activities : List Activity := []
  /-- How often each activity was marked. -/
  counts : Table Nat := []
  extra : Json.Object := []

namespace Monitor

def marks (m : Monitor) (activity : String) : Nat := (Table.get? activity m.counts).getD 0

def register (m : Monitor) (activity : Activity) : Monitor :=
  { m with activities := m.activities ++ [activity] }

def mark (m : Monitor) (activity : String) : Monitor :=
  { m with counts := Table.insert activity (m.marks activity + 1) m.counts }

def setExtra (m : Monitor) (name : String) (value : Json) : Monitor :=
  { m with extra := Table.insert name value m.extra }

def extra? (m : Monitor) (name : String) : Option Json := Table.get? name m.extra

end Monitor

end Gatehouse.Telemetry
