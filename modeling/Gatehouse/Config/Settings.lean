import Gatehouse.Config.Options
import Gatehouse.Identity.Config
import Gatehouse.Net.Address
import Gatehouse.Policy.Rules
import Gatehouse.Text.Upper

/-!
# Settings

Everything that a service can be configured with, its defaults, how it is read and written, and
which settings are coherent.  Members that no setting has are refused; members that are absent keep
their defaults.
-/

namespace Gatehouse.Config

open Identity (ProviderConfig)
open Policy (Rules)

/-- How a server listens and what it puts up with. -/
@[ext]
structure ServerSettings where
  address : String := "0.0.0.0:8443"
  shutdownSeconds : Nat := 30
  /-- How long the body of a request may take to arrive. -/
  requestMilliseconds : Nat := 30000
  /-- How long a method may take; zero means that it may take any time. -/
  workerMilliseconds : Nat := 0
  maxBodyBytes : Nat := 16777216
  deriving DecidableEq, Repr

inductive LogFormat where
  | json | pretty
  deriving DecidableEq, Repr

def LogFormat.name : LogFormat → String
  | .json => "json"
  | .pretty => "pretty"

@[ext]
structure LoggingSettings where
  enabled : Bool := true
  /-- The filter that lines have to pass. -/
  level : String := "info"
  format : LogFormat := .json
  ansi : Bool := false
  deriving DecidableEq, Repr

@[ext]
structure MetricsSettings where
  enabled : Bool := false
  address : String := "0.0.0.0:9090"
  deriving DecidableEq, Repr

@[ext]
structure TelemetrySettings where
  serviceName : String := "hermes"
  logging : LoggingSettings := {}
  metrics : MetricsSettings := {}
  deriving DecidableEq, Repr

/-- The settings of a service. -/
@[ext]
structure Settings where
  server : ServerSettings := {}
  telemetry : TelemetrySettings := {}
  /-- The rules of policy sections. -/
  authorization : Table Rules := []
  providers : Table ProviderConfig := []
  /-- The options of components. -/
  components : Json.Object := []

/-! ## Reading -/

open Json

def ServerSettings.shape : RecordShape ServerSettings where
  name := "ServerConfig"
  fields := [
    .of "http_addr" decodeString fun s v => { s with address := v },
    .of "shutdown_timeout_secs" (decodeUnsigned 64) fun s v => { s with shutdownSeconds := v },
    .of "request_timeout_ms" (decodeUnsigned 64) fun s v => { s with requestMilliseconds := v },
    .of "worker_timeout_ms" (decodeUnsigned 64) fun s v => { s with workerMilliseconds := v },
    .of "max_body_bytes" (decodeUnsigned 64) fun s v => { s with maxBodyBytes := v }]

def LogFormat.decode : Decoder LogFormat :=
  decodeChoice [("json", .json), ("pretty", .pretty)]

def LoggingSettings.shape : RecordShape LoggingSettings where
  name := "LoggingConfig"
  fields := [
    .of "enabled" decodeBool fun s v => { s with enabled := v },
    .of "level" decodeString fun s v => { s with level := v },
    .of "format" LogFormat.decode fun s v => { s with format := v },
    .of "ansi_enabled" decodeBool fun s v => { s with ansi := v }]

def MetricsSettings.shape : RecordShape MetricsSettings where
  name := "MetricsConfig"
  fields := [
    .of "enabled" decodeBool fun s v => { s with enabled := v },
    .of "addr" decodeString fun s v => { s with address := v }]

def TelemetrySettings.shape : RecordShape TelemetrySettings where
  name := "TelemetryConfigSection"
  fields := [
    .of "service_name" decodeString fun s v => { s with serviceName := v },
    .of "logging" (LoggingSettings.shape.decode {}) fun s v => { s with logging := v },
    .of "metrics" (MetricsSettings.shape.decode {}) fun s v => { s with metrics := v }]

namespace Settings

def shape : RecordShape Settings where
  name := "HermesConfig"
  fields := [
    .of "server" (ServerSettings.shape.decode {}) fun s v => { s with server := v },
    .of "telemetry" (TelemetrySettings.shape.decode {}) fun s v => { s with telemetry := v },
    .of "authorization" (decodeMap Rules.decode) fun s v => { s with authorization := v },
    .of "identity_providers" (decodeMap ProviderConfig.decode) fun s v =>
      { s with providers := v },
    .of "components" (decodeMap decodeValue) fun s v => { s with components := v }]

def decode : Decoder Settings := shape.decode {}

/-! ## Writing -/

/-- The structured form of the settings, in which every setting is present. -/
def toJson (s : Settings) : Json :=
  let logging := s.telemetry.logging
  let metrics := s.telemetry.metrics
  .obj [
    ("authorization", .obj (s.authorization.map fun (name, rules) => (name, rules.toJson))),
    ("components", .obj s.components),
    ("identity_providers", .obj (s.providers.map fun (name, p) => (name, p.toJson))),
    ("server", .obj [
      ("http_addr", .str s.server.address),
      ("max_body_bytes", .int s.server.maxBodyBytes),
      ("request_timeout_ms", .int s.server.requestMilliseconds),
      ("shutdown_timeout_secs", .int s.server.shutdownSeconds),
      ("worker_timeout_ms", .int s.server.workerMilliseconds)]),
    ("telemetry", .obj [
      ("logging", .obj [("ansi_enabled", .bool logging.ansi), ("enabled", .bool logging.enabled),
        ("format", .str logging.format.name), ("level", .str logging.level)]),
      ("metrics", .obj [("addr", .str metrics.address), ("enabled", .bool metrics.enabled)]),
      ("service_name", .str s.telemetry.serviceName)])]

/-! ## Presets -/

/-- Settings for work on a service: local, talkative, readable. -/
def development : Settings where
  server := { address := "127.0.0.1:8443" }
  telemetry := { logging := { level := "debug", format := .pretty, ansi := true } }

/-- Settings for a service in use: measured, and with a limit on every method. -/
def production : Settings where
  server := { workerMilliseconds := 120000 }
  telemetry := { metrics := { enabled := true } }

/-! ## Coherence -/

inductive Incoherence where
  | badAddress (field address : String)
  | badProvider (name reason : String)
  | badRules (name : String)
  deriving DecidableEq, Repr

/-- Whether a provider with this algorithm shares a secret with its issuer. -/
def sharesSecret (algorithm : String) : Bool := (Text.upper algorithm).startsWith "HS"

/-- What is wrong with a provider's settings, if anything is. -/
def providerFault? (p : ProviderConfig) : Option String :=
  if (Text.trim p.issuer).isEmpty then some "missing issuer"
  else if (if sharesSecret p.algorithm then p.secret else p.publicKeyPem).isNone then
    some s!"no key material for algorithm {p.algorithm}"
  else none

/-- The first thing that is wrong with the settings: addresses first, then providers and rules in
the order of their names. -/
def incoherence? (s : Settings) : Option Incoherence :=
  let address (field address : String) : Option Incoherence :=
    if (Net.SocketAddress.parse? address).isNone then some (.badAddress field address) else none
  let metrics := s.telemetry.metrics
  address "server.http_addr" s.server.address
    <|> (if metrics.enabled then address "telemetry.metrics.addr" metrics.address else none)
    <|> s.providers.findSome? (fun (name, p) => (providerFault? p).map (.badProvider name))
    <|> s.authorization.findSome? fun (name, rules) =>
      if rules.hasBlankProperty then some (.badRules name) else none

/-- The policy section of a component, if one is configured. -/
def rulesOf? (s : Settings) (component : String) : Option Rules :=
  Table.get? component s.authorization

def options (s : Settings) : OptionSource := .components s.components

end Settings

end Gatehouse.Config
