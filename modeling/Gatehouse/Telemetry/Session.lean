import Gatehouse.Config.Settings
import Gatehouse.Telemetry.Filter
import Gatehouse.Telemetry.Metrics

/-!
# Telemetry of a process

A process writes logs in one way and counts in one place.  Each is installed once: a second
installation is refused and changes nothing, and what is counted before the first is lost.
-/

namespace Gatehouse.Telemetry

structure LogStyle where
  enabled : Bool := true
  level : String := "info"
  json : Bool := true
  ansi : Bool := false
  threadIds : Bool := false
  deriving DecidableEq, Repr

namespace LogStyle

/-- A style to be read by machines. -/
def production : LogStyle := {}

/-- A style to be read by people. -/
def development : LogStyle :=
  { level := "debug", json := false, ansi := true, threadIds := true }

def ofSettings (s : Config.LoggingSettings) : LogStyle where
  enabled := s.enabled
  level := s.level
  json := s.format = .json
  ansi := s.ansi
  threadIds := s.format = .pretty

end LogStyle

inductive TelemetryError where
  | badFilter (filter : String) (fault : FilterFault)
  | logInstalled
  | badAddress (address : String)
  | recorderInstalled
  deriving DecidableEq, Repr

def TelemetryError.message : TelemetryError → String
  | .badFilter filter fault => s!"bad log filter {Text.quoted filter}: {fault.message}"
  | .logInstalled => "log subscriber already installed: " ++
    "a global default trace dispatcher has already been set"
  | .badAddress address =>
    s!"bad metrics listener address {Text.quoted address}: {Net.syntaxMessage}"
  | .recorderInstalled => "metrics recorder unavailable: " ++
    "failed to install exporter as global recorder: " ++
    "attempted to set a recorder after the metrics system was already initialized"

/-- What a process has installed. -/
structure Session where
  logging : Bool := false
  recorder : Option Recorder := none

namespace Session

def installLog (s : Session) (style : LogStyle) : Except TelemetryError Session :=
  if !style.enabled then .ok s
  else
    match checkFilter style.level with
    | .error fault => .error (.badFilter style.level fault)
    | .ok () => if s.logging then .error .logInstalled else .ok { s with logging := true }

/-- Installs the recorder, unless metrics are disabled. -/
def installMetrics (s : Session) (settings : Config.MetricsSettings) :
    Except TelemetryError Session :=
  if !settings.enabled then .ok s
  else if (Net.SocketAddress.parse? settings.address).isNone then
    .error (.badAddress settings.address)
  else if s.recorder.isSome then .error .recorderInstalled
  else .ok { s with recorder := some {} }

/-- Installs both, the log first; what was installed before a failure stays. -/
def install (s : Session) (style : LogStyle) (settings : Config.MetricsSettings) :
    Except TelemetryError Unit × Session :=
  match s.installLog style with
  | .error e => (.error e, s)
  | .ok s =>
    match s.installMetrics settings with
    | .error e => (.error e, s)
    | .ok s => (.ok (), s)

def count (s : Session) (change : Recorder → Recorder) : Session :=
  { s with recorder := s.recorder.map change }

end Session

end Gatehouse.Telemetry
