import Gatehouse.Table
import Gatehouse.Text.Split

/-!
# Metrics

A recorder counts requests and marks once it is installed, and renders what it has counted as lines
of text: for every metric its description, its type, and a value for each combination of labels.
-/

namespace Gatehouse.Telemetry

/-! ## Text format -/

/-- A metric's name: what is neither letter nor digit becomes an underscore, and so does a digit at
the start. -/
def metricName (name : String) : String :=
  let keep (first : Bool) (c : Char) : Char :=
    if c == '_' || c == ':' || c.isAlpha || (!first && c.isDigit) then c else '_'
  match name.toList with
  | [] => ""
  | c :: rest => String.ofList (keep true c :: rest.map (keep false))

/-- The text of a label's value.  A pair of backslashes stands for one, and so does one that is not
part of a pair; `pending` says that one was just read. -/
def escapeLabel (pending : Bool) : List Char → List Char
  | [] => if pending then ['\\', '\\'] else []
  | '\n' :: rest => '\\' :: 'n' :: escapeLabel pending rest
  | '"' :: rest => '\\' :: '"' :: escapeLabel false rest
  | '\\' :: rest =>
    if pending then '\\' :: '\\' :: escapeLabel false rest else escapeLabel true rest
  | c :: rest =>
    if pending then '\\' :: '\\' :: c :: escapeLabel false rest else c :: escapeLabel false rest

def labelText (labels : List (String × String)) : String :=
  let pairs := labels.map fun (name, value) =>
    s!"{name}=\"" ++ String.ofList (escapeLabel false value.toList) ++ "\""
  "\x7b" ++ ",".intercalate pairs ++ "\x7d"

/-- The text in lower case as far as a metric's name can show it: every other character outside
ASCII becomes an underscore whatever its case. -/
def lowerName (name : String) : String :=
  String.ofList (name.toList.flatMap fun c =>
    if c.toNat = 0x130 then ['i', '_'] else if c.toNat = 0x212A then ['k'] else [c.toLower])

def activityMetric (activity : String) : String :=
  metricName ("hermes_activity_" ++ lowerName activity)

/-! ## The recorder -/

/-- The labels of a counted series, and its count. -/
abbrev Series := List (List (String × String) × Nat)

/-- Counts once more under some labels. -/
def Series.count (labels : List (String × String)) : Series → Series
  | [] => [(labels, 1)]
  | (other, n) :: rest =>
    if other = labels then (other, n + 1) :: rest else (other, n) :: count labels rest

/-- What has been counted since the installation. -/
structure Recorder where
  /-- By the name of the metric. -/
  counters : Table Series := []
  /-- How many durations were recorded, by the name of the metric. -/
  summaries : Table Series := []

def requestsMetric : String := "hermes_requests_total"

def durationMetric : String := "hermes_request_duration_seconds"

def descriptionOf? (metric : String) : Option String :=
  if metric = requestsMetric then some "Total number of requests served"
  else if metric = durationMetric then
    some "Request duration from arrival to completion, in seconds"
  else none

namespace Recorder

def increment (r : Recorder) (metric : String) (labels : List (String × String)) : Recorder :=
  let series := (Table.get? metric r.counters).getD []
  { r with counters := Table.insert metric (Series.count labels series) r.counters }

def observe (r : Recorder) (metric : String) (labels : List (String × String)) : Recorder :=
  let series := (Table.get? metric r.summaries).getD []
  { r with summaries := Table.insert metric (Series.count labels series) r.summaries }

def recordRequest (r : Recorder) (component method outcome : String) : Recorder :=
  let labels := [("component", component), ("method", method)]
  (r.increment requestsMetric (labels ++ [("outcome", outcome)])).observe durationMetric labels

def recordMark (r : Recorder) (component activity : String) : Recorder :=
  r.increment (activityMetric activity) [("component", component)]

def metricLines (kind metric sampleEnd : String) (series : Series) : List String :=
  let help := (descriptionOf? metric).map fun text => s!"# HELP {metric} {text}"
  help.toList ++ s!"# TYPE {metric} {kind}" :: series.map fun (labels, n) =>
    metric ++ sampleEnd ++ labelText labels ++ s!" {n}"

/-- Every line that does not depend on how long requests took. -/
def lines (r : Recorder) : List String :=
  (r.counters.flatMap fun (metric, series) => metricLines "counter" metric "" series)
    ++ r.summaries.flatMap fun (metric, series) => metricLines "summary" metric "_count" series

end Recorder

end Gatehouse.Telemetry
