import Gatehouse.Config.Environment
import Gatehouse.Config.Surroundings
import Gatehouse.Config.Toml.Reader

/-!
# Loading settings

Settings are put together in layers: a preset or a document replaces all that was there, and
overrides from the environment are applied last, before the settings are checked.
-/

namespace Gatehouse.Config

/-- Why no settings are loaded. -/
inductive LoadError where
  | fileNotFound (path : String)
  | unreadable (path : String)
  /-- A document in TOML that is malformed, or that does not fit. -/
  | toml (misfit : Option Json.Misfit)
  | json (error : Json.DecodeError)
  | unsupportedFormat (what : String)
  | incoherent (what : Settings.Incoherence)
  | badVariable (bad : BadVariable)
  deriving DecidableEq, Repr

def malformedMessage : String := "malformed document"

def Settings.Incoherence.message : Settings.Incoherence → String
  | .badAddress field address =>
    s!"invalid configuration value for {field}: invalid socket address: {address}"
  | .badProvider name reason =>
    s!"invalid identity provider identity_providers.{name}: {reason}"
  | .badRules name =>
    s!"invalid authorization section {name}: {Policy.Rules.blankPropertyMessage}"

def LoadError.message : LoadError → String
  | .fileNotFound path => s!"configuration file not found: {path}"
  | .unreadable path => s!"failed to read configuration file: {path}"
  | .toml misfit =>
    "failed to parse TOML configuration: " ++ (misfit.map (·.message .tables)).getD malformedMessage
  | .json error => s!"failed to parse JSON configuration: {error.placedMessage}"
  | .unsupportedFormat what => s!"unsupported configuration format: {what}"
  | .incoherent what => what.message
  | .badVariable v => s!"failed to parse environment variable {v.name}: {v.reason}"

/-! ## Documents -/

inductive Format where
  | toml | json
  deriving DecidableEq, Repr

/-- The format of a name, without regard to case. -/
def Format.ofName? (name : String) : Option Format :=
  match Text.lowerAscii name with
  | "toml" => some .toml
  | "json" => some .json
  | _ => none

def Format.read (format : Format) (text : String) : Except LoadError Settings :=
  match format with
  | .toml =>
    match Toml.read? text with
    | none => .error (.toml none)
    | some document => (Settings.decode.take .tables document).mapError fun e => .toml (some e)
  | .json => (Settings.decode.run (Text.Utf8.encode text)).mapError .json

/-! ## The loader -/

/-- Settings being put together. -/
structure Loader where
  settings : Settings := {}
  /-- What the names of overriding variables begin with. -/
  lead : Option String := none

namespace Loader

def preset (loader : Loader) (settings : Settings) : Loader := { loader with settings }

def string (loader : Loader) (text format : String) : Except LoadError Loader :=
  match Format.ofName? format with
  | none => .error (.unsupportedFormat format)
  | some format => (format.read text).map loader.preset

def file (loader : Loader) (around : Surroundings) (path : String) : Except LoadError Loader :=
  match around.find? path with
  | some (.file bytes) =>
    match (extension? path).bind Format.ofName? with
    | none => .error (.unsupportedFormat path)
    | some format =>
      match Text.Utf8.decode? bytes with
      | none => .error (.unreadable path)
      | some text => (format.read text).map loader.preset
  | _ => .error (.fileNotFound path)

/-- Replaces the settings by a file, if there is one. -/
def optionalFile (loader : Loader) (around : Surroundings) (path : String) :
    Except LoadError Loader :=
  if (around.find? path).isSome then loader.file around path else .ok loader

/-- Lets variables with a prefix override settings. -/
def overridable (loader : Loader) (lead : String) : Loader :=
  { loader with lead := some (Text.upper lead) }

/-- The settings with the overrides, if they are coherent. -/
def load (loader : Loader) (around : Surroundings) : Except LoadError Settings := do
  let settings ← match loader.lead with
    | none => pure loader.settings
    | some lead =>
      (applyOverrides lead loader.settings (Table.ofList around.environment)).mapError
        .badVariable
  match settings.incoherence? with
  | some what => throw (.incoherent what)
  | none => return settings

end Loader

end Gatehouse.Config
