import Gatehouse.Proofs.Config.Overrides
import Gatehouse.Proofs.Effect
import Gatehouse.Proofs.Json.Attested
import Gatehouse.Proofs.Json.Parts

/-!
# Layers of settings

A layer says of each setting either nothing or what its value is: a list of variables by their
texts, a document by the part at the setting's path.  Reading a document into settings sets what the
document says and leaves the rest at its default, and applying variables sets what they say.
-/

namespace Gatehouse.Config

open Json
open Identity (ProviderConfig)
open Policy (Rules)

/-! ## Where settings stand -/

namespace Setting

def decoder : (setting : Setting) → Decoder setting.Value
  | address | serviceName | level | metricsAddress => decodeString
  | shutdownSeconds | requestMilliseconds | workerMilliseconds | maxBodyBytes => decodeUnsigned 64
  | loggingEnabled | ansi | metricsEnabled => decodeBool
  | format => LogFormat.decode

def path : Setting → List Key
  | address => [⟨"server", 0⟩, ⟨"http_addr", 0⟩]
  | shutdownSeconds => [⟨"server", 0⟩, ⟨"shutdown_timeout_secs", 1⟩]
  | requestMilliseconds => [⟨"server", 0⟩, ⟨"request_timeout_ms", 2⟩]
  | workerMilliseconds => [⟨"server", 0⟩, ⟨"worker_timeout_ms", 3⟩]
  | maxBodyBytes => [⟨"server", 0⟩, ⟨"max_body_bytes", 4⟩]
  | serviceName => [⟨"telemetry", 1⟩, ⟨"service_name", 0⟩]
  | loggingEnabled => [⟨"telemetry", 1⟩, ⟨"logging", 1⟩, ⟨"enabled", 0⟩]
  | level => [⟨"telemetry", 1⟩, ⟨"logging", 1⟩, ⟨"level", 1⟩]
  | format => [⟨"telemetry", 1⟩, ⟨"logging", 1⟩, ⟨"format", 2⟩]
  | ansi => [⟨"telemetry", 1⟩, ⟨"logging", 1⟩, ⟨"ansi_enabled", 3⟩]
  | metricsEnabled => [⟨"telemetry", 1⟩, ⟨"metrics", 2⟩, ⟨"enabled", 0⟩]
  | metricsAddress => [⟨"telemetry", 1⟩, ⟨"metrics", 2⟩, ⟨"addr", 1⟩]

end Setting

/-! ## Fields -/

theorem reads_server :
    let whole := ServerSettings.shape.decode {}
    Reads whole [⟨"http_addr", 0⟩] decodeString (·.address) "0.0.0.0:8443" ∧
    Reads whole [⟨"shutdown_timeout_secs", 1⟩] (decodeUnsigned 64) (·.shutdownSeconds) 30 ∧
    Reads whole [⟨"request_timeout_ms", 2⟩] (decodeUnsigned 64) (·.requestMilliseconds) 30000 ∧
    Reads whole [⟨"worker_timeout_ms", 3⟩] (decodeUnsigned 64) (·.workerMilliseconds) 0 ∧
    Reads whole [⟨"max_body_bytes", 4⟩] (decodeUnsigned 64) (·.maxBodyBytes) 16777216 := by
  have hnames : (ServerSettings.shape.fields.map (·.name)).Nodup := by simp [ServerSettings.shape]
  refine ⟨?_, ?_, ?_, ?_, ?_⟩
  all_goals
    refine RecordShape.HasField.reads ⟨rfl, hnames, trivial, fun _ _ => rfl, ?_⟩ {}
    simp [ServerSettings.shape, Slot.keeps_of]

theorem reads_logging :
    let whole := LoggingSettings.shape.decode {}
    Reads whole [⟨"enabled", 0⟩] decodeBool (·.enabled) true ∧
    Reads whole [⟨"level", 1⟩] decodeString (·.level) "info" ∧
    Reads whole [⟨"format", 2⟩] LogFormat.decode (·.format) .json ∧
    Reads whole [⟨"ansi_enabled", 3⟩] decodeBool (·.ansi) false := by
  have hnames : (LoggingSettings.shape.fields.map (·.name)).Nodup := by
    simp [LoggingSettings.shape]
  refine ⟨?_, ?_, ?_, ?_⟩
  all_goals
    refine RecordShape.HasField.reads ⟨rfl, hnames, trivial, fun _ _ => rfl, ?_⟩ {}
    simp [LoggingSettings.shape, Slot.keeps_of]

theorem reads_metrics :
    let whole := MetricsSettings.shape.decode {}
    Reads whole [⟨"enabled", 0⟩] decodeBool (·.enabled) false ∧
    Reads whole [⟨"addr", 1⟩] decodeString (·.address) "0.0.0.0:9090" := by
  have hnames : (MetricsSettings.shape.fields.map (·.name)).Nodup := by
    simp [MetricsSettings.shape]
  refine ⟨?_, ?_⟩
  all_goals
    refine RecordShape.HasField.reads ⟨rfl, hnames, trivial, fun _ _ => rfl, ?_⟩ {}
    simp [MetricsSettings.shape, Slot.keeps_of]

theorem reads_telemetry :
    let whole := TelemetrySettings.shape.decode {}
    Reads whole [⟨"service_name", 0⟩] decodeString (·.serviceName) "hermes" ∧
    Reads whole [⟨"logging", 1⟩] (LoggingSettings.shape.decode {}) (·.logging) {} ∧
    Reads whole [⟨"metrics", 2⟩] (MetricsSettings.shape.decode {}) (·.metrics) {} := by
  have hnames : (TelemetrySettings.shape.fields.map (·.name)).Nodup := by
    simp [TelemetrySettings.shape]
  refine ⟨?_, ?_, ?_⟩
  all_goals
    refine RecordShape.HasField.reads ⟨rfl, hnames, trivial, fun _ _ => rfl, ?_⟩ {}
    simp [TelemetrySettings.shape, Slot.keeps_of]

theorem reads_settings :
    Reads Settings.decode [⟨"server", 0⟩] (ServerSettings.shape.decode {}) (·.server) {} ∧
    Reads Settings.decode [⟨"telemetry", 1⟩] (TelemetrySettings.shape.decode {})
      (·.telemetry) {} := by
  have hnames : (Settings.shape.fields.map (·.name)).Nodup := by simp [Settings.shape]
  refine ⟨?_, ?_⟩
  all_goals
    refine RecordShape.HasField.reads ⟨rfl, hnames, trivial, fun _ _ => rfl, ?_⟩ {}
    simp [Settings.shape, Slot.keeps_of]

/-- A setting is made of the part of the document at its path, or else has its default. -/
theorem Setting.reads (setting : Setting) :
    Reads Settings.decode setting.path setting.decoder (get · setting) (get {} setting) := by
  obtain ⟨hserver, htelemetry⟩ := reads_settings
  obtain ⟨haddress, hshutdown, hrequest, hworker, hbody⟩ := reads_server
  obtain ⟨hname, hlogging, hmetrics⟩ := reads_telemetry
  obtain ⟨henabled, hlevel, hformat, hansi⟩ := reads_logging
  obtain ⟨hmetricsEnabled, hmetricsAddress⟩ := reads_metrics
  cases setting with
  | address => exact hserver.trans haddress rfl
  | shutdownSeconds => exact hserver.trans hshutdown rfl
  | requestMilliseconds => exact hserver.trans hrequest rfl
  | workerMilliseconds => exact hserver.trans hworker rfl
  | maxBodyBytes => exact hserver.trans hbody rfl
  | serviceName => exact htelemetry.trans hname rfl
  | loggingEnabled => exact htelemetry.trans (hlogging.trans henabled rfl) rfl
  | level => exact htelemetry.trans (hlogging.trans hlevel rfl) rfl
  | ansi => exact htelemetry.trans (hlogging.trans hansi rfl) rfl
  | format => exact htelemetry.trans (hlogging.trans hformat rfl) rfl
  | metricsEnabled => exact htelemetry.trans (hmetrics.trans hmetricsEnabled rfl) rfl
  | metricsAddress => exact htelemetry.trans (hmetrics.trans hmetricsAddress rfl) rfl

/-! ## Documents -/

/-- Settings that are read off a text are made of what the text says. -/
theorem attested_settings : Attested (Settings.decode.take .value) Settings.decode.read := by
  have hserver := ServerSettings.shape.attested_decode rfl (by simp [ServerSettings.shape]) {}
  have hformat : Attested (LogFormat.decode.take .value) LogFormat.decode.read :=
    attested_decodeChoice _
  have hlogging := LoggingSettings.shape.attested_decode rfl
    (by simp [LoggingSettings.shape, hformat]) {}
  have hmetrics := MetricsSettings.shape.attested_decode rfl (by simp [MetricsSettings.shape]) {}
  have htelemetry := TelemetrySettings.shape.attested_decode rfl
    (by simp [TelemetrySettings.shape, hlogging, hmetrics]) {}
  have hlist := attested_decodeString.decodeList
  have hrules : Attested (Rules.decode.take .value) Rules.decode.read :=
    Rules.shape.attested_decode rfl (by simp [Rules.shape, hlist]) {}
  have hprovider : Attested (ProviderConfig.decode.take .value) ProviderConfig.decode.read :=
    ProviderConfig.shape.attested_decode rfl (by simp [ProviderConfig.shape]) {}
  exact Settings.shape.attested_decode rfl
    (by simp [Settings.shape, hserver, htelemetry, hrules, hprovider]) {}

namespace Format

def document? (format : Format) (text : String) : Option Document :=
  match format with
  | .toml => Toml.read? text
  | .json => (Reader.document.run (Text.Utf8.encode text)).toOption

/-- How documents in the format are taken. -/
def origin : Format → Notation
  | .toml => .tables
  | .json => .value

/-- What is read in a format is made of what the text says in it. -/
theorem document?_of_read {format : Format} {text : String} {settings : Settings}
    (h : format.read text = .ok settings) : ∃ d, format.document? text = some d ∧
      Settings.decode.take format.origin d = .ok settings := by
  cases format with
  | toml =>
      rw [read] at h
      cases hread : Toml.read? text with
      | none =>
          rw [hread] at h
          cases h
      | some d =>
          rw [hread] at h
          exact ⟨d, hread, Effect.mapError_eq_ok.mp h⟩
  | json =>
      rw [read] at h
      obtain ⟨d, hrun, htake⟩ := attested_settings.run (Effect.mapError_eq_ok.mp h)
      refine ⟨d, ?_, htake⟩
      rw [document?, hrun]
      rfl

end Format

/-- What the file at a path says, and in which format. -/
def Surroundings.document? (around : Surroundings) (path : String) :
    Option (Format × Document) :=
  match around.find? path with
  | some (.file bytes) => do
    let format ← (extension? path).bind Format.ofName?
    let text ← Text.Utf8.decode? bytes
    let document ← format.document? text
    return (format, document)
  | _ => none

theorem Surroundings.document?_eq_none {around : Surroundings} {path : String}
    (h : around.find? path = none) : around.document? path = none := by
  rw [document?, h]

theorem Loader.document?_of_file {loader loaded : Loader} {around : Surroundings} {path : String}
    (h : loader.file around path = .ok loaded) :
    ∃ format d, around.document? path = some (format, d) ∧
      Settings.decode.take format.origin d = .ok loaded.settings := by
  rw [file] at h
  split at h
  · next bytes hfile =>
      split at h
      · cases h
      · next format hformat =>
          split at h
          · cases h
          · next text htext =>
              obtain ⟨settings, hread, rfl⟩ := Effect.map_eq_ok.mp h
              obtain ⟨d, hdocument, htake⟩ := Format.document?_of_read hread
              refine ⟨format, d, ?_, htake⟩
              rw [Surroundings.document?, hfile]
              simp [hformat, htext, hdocument]
  · cases h

/-! ## Layers -/

/-- What is said of settings: of some nothing, of others a value, or something that is none. -/
abbrev Layer := (setting : Setting) → Option (Option setting.Value)

namespace Layer

/-- The layer of variables whose names begin with a lead. -/
def ofVariables (lead : String) (vars : List (String × String)) : Layer := fun setting =>
  (textOf? lead vars setting).map fun text => setting.parse? text

def ofDocument (origin : Notation) (d : Document) : Layer := fun setting =>
  (d.at? setting.path).map fun part => (setting.decoder.take origin part).toOption

def silent : Layer := fun _ => none

/-- The layer of a file, if a path is given and there is a file. -/
def ofFile (around : Surroundings) (path : Option String) : Layer :=
  match path.bind around.document? with
  | some (format, d) => .ofDocument format.origin d
  | none => .silent

/-- The value of a setting is that of the first layer that says something of it, or its default. -/
def decide (layers : List Layer) (setting : Setting) : Option setting.Value :=
  (layers.findSome? fun layer => layer setting).getD (some (setting.get {}))

theorem decide_cons (layer : Layer) (layers : List Layer) (setting : Setting) :
    decide (layer :: layers) setting = (layer setting).getD (decide layers setting) := by
  rw [decide, List.findSome?_cons]
  cases layer setting with
  | none => rfl
  | some said => rfl

/-- The order of two layers makes no difference to a setting of which one says nothing. -/
theorem decide_swap {first second : Layer} {setting : Setting}
    (h : first setting = none ∨ second setting = none) (layers : List Layer) :
    decide (first :: second :: layers) setting = decide (second :: first :: layers) setting := by
  simp only [decide_cons]
  obtain hnone | hnone := h
  · rw [hnone, Option.getD_none, Option.getD_none]
  · rw [hnone, Option.getD_none, Option.getD_none]

end Layer

/-- A document that is read sets what it says and leaves the rest at the defaults. -/
theorem layer_of_take {origin : Notation} {d : Document} {settings : Settings}
    (h : Settings.decode.take origin d = .ok settings) (setting : Setting) :
    Layer.decide [.ofDocument origin d] setting = some (setting.get settings) := by
  have hmade := setting.reads origin d settings h
  rw [Layer.decide, List.findSome?_cons, Layer.ofDocument]
  cases hpart : d.at? setting.path with
  | none =>
      rw [hpart] at hmade
      exact congrArg some hmade.symm
  | some part =>
      rw [hpart] at hmade
      change setting.decoder.take origin part = _ at hmade
      simp [hmade, Except.toOption]

/-- A settings file sets what it says, and where there is none the defaults stay. -/
theorem layer_of_optionalFile {around : Surroundings} {path : String} {loader : Loader}
    (h : Loader.optionalFile {} around path = .ok loader) (setting : Setting) :
    Layer.decide [.ofFile around (some path)] setting = some (setting.get loader.settings) := by
  rw [Loader.optionalFile] at h
  rw [Layer.ofFile, Option.bind_some]
  split at h
  · obtain ⟨format, d, hdocument, htake⟩ := Loader.document?_of_file h
    rw [hdocument]
    exact layer_of_take htake setting
  · next hmissing =>
    cases h
    rw [Surroundings.document?_eq_none (by simpa using hmissing)]
    rfl

/-- Variables set what they say and leave the rest as it was. -/
theorem layer_of_patches {lead : String} {vars : List (String × String)} {s patched : Settings}
    (h : Patches s (textOf? lead vars) patched) {layers : List Layer} {setting : Setting}
    (hlayers : Layer.decide layers setting = some (setting.get s)) :
    Layer.decide (.ofVariables lead vars :: layers) setting = some (setting.get patched) := by
  rw [Layer.decide_cons, Layer.ofVariables]
  cases htext : textOf? lead vars setting with
  | none =>
      rw [h.kept setting htext]
      exact hlayers
  | some text =>
      have hvalue := Setting.parse?_eq_some_iff.mpr (h.set setting text htext)
      rw [Option.map_some, hvalue, Option.getD_some]

end Gatehouse.Config
