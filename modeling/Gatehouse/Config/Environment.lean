import Gatehouse.Config.Settings
import Gatehouse.Text.AsciiCase

/-!
# Overrides from the environment

A variable whose name is a prefix, two underscores and the name of a setting overrides that setting.
Other variables are passed over.  Variables are taken in the order of their names, so of several
that cannot be read the first by name is reported.
-/

namespace Gatehouse.Config

/-- How the text of a variable is read into the settings; an error says what was expected. -/
abbrev Override := String → Settings → Except String Settings

namespace Override

def text (put : Settings → String → Settings) : Override := fun value s => .ok (put s value)

/-- A setting that takes what is read of a text. -/
def parsed (parse? : String → Option α) (expected : String) (put : Settings → α → Settings) :
    Override := fun value s =>
  match parse? value with
  | some a => .ok (put s a)
  | none => .error expected

/-- What stands behind a plus, if there is one in front. -/
def unsigned : List Char → List Char
  | '+' :: rest => rest
  | cs => cs

/-- An integer below `2^64`, which may begin with a plus. -/
def number? (value : String) : Option Nat :=
  let digits := unsigned value.toList
  let n := digits.foldl (fun n c => n * 10 + (c.toNat - 48)) 0
  if digits.isEmpty || !digits.all Char.isDigit || n ≥ Nat.pow 2 64 then none else some n

def number : (Settings → Nat → Settings) → Override := parsed number? "expected integer"

/-- A truth value, without regard to case. -/
def flag? (value : String) : Option Bool :=
  let word := Text.lowerAscii value
  if word ∈ ["true", "1", "yes", "on"] then some true
  else if word ∈ ["false", "0", "no", "off"] then some false
  else none

def flag : (Settings → Bool → Settings) → Override := parsed flag? "expected boolean"

def format? (value : String) : Option LogFormat :=
  match Text.lowerAscii value with
  | "json" => some .json
  | "pretty" => some .pretty
  | _ => none

def format : (Settings → LogFormat → Settings) → Override :=
  parsed format? "expected json or pretty"

end Override

open Override in
/-- The settings that can be overridden, by the names of their variables without prefix. -/
def overrides : List (String × Override) :=
  let server (put : ServerSettings → Nat → ServerSettings) : Override :=
    number fun s n => { s with server := put s.server n }
  let telemetry (s : Settings) (change : TelemetrySettings → TelemetrySettings) : Settings :=
    { s with telemetry := change s.telemetry }
  [("SERVER__HTTP_ADDR", text fun s v => { s with server := { s.server with address := v } }),
    ("SERVER__SHUTDOWN_TIMEOUT_SECS", server fun s n => { s with shutdownSeconds := n }),
    ("SERVER__REQUEST_TIMEOUT_MS", server fun s n => { s with requestMilliseconds := n }),
    ("SERVER__WORKER_TIMEOUT_MS", server fun s n => { s with workerMilliseconds := n }),
    ("SERVER__MAX_BODY_BYTES", server fun s n => { s with maxBodyBytes := n }),
    ("TELEMETRY__SERVICE_NAME", text fun s v => telemetry s ({ · with serviceName := v })),
    ("TELEMETRY__LOGGING__ENABLED", flag fun s b =>
      telemetry s fun t => { t with logging := { t.logging with enabled := b } }),
    ("TELEMETRY__LOGGING__LEVEL", text fun s v =>
      telemetry s fun t => { t with logging := { t.logging with level := v } }),
    ("TELEMETRY__LOGGING__ANSI_ENABLED", flag fun s b =>
      telemetry s fun t => { t with logging := { t.logging with ansi := b } }),
    ("TELEMETRY__LOGGING__FORMAT", format fun s f =>
      telemetry s fun t => { t with logging := { t.logging with format := f } }),
    ("TELEMETRY__METRICS__ENABLED", flag fun s b =>
      telemetry s fun t => { t with metrics := { t.metrics with enabled := b } }),
    ("TELEMETRY__METRICS__ADDR", text fun s v =>
      telemetry s fun t => { t with metrics := { t.metrics with address := v } })]

def overrideOf? (lead name : String) : Option Override := do
  let rest ← Text.stripLead? (lead ++ "__").toList name.toList
  overrides.lookup (String.ofList rest)

/-- A variable that cannot be read, and why. -/
structure BadVariable where
  name : String
  reason : String
  deriving DecidableEq, Repr

def applyOverrides (lead : String) (settings : Settings) :
    List (String × String) → Except BadVariable Settings
  | [] => .ok settings
  | (name, value) :: rest =>
    match overrideOf? lead name with
    | none => applyOverrides lead settings rest
    | some override =>
      match override value settings with
      | .ok settings => applyOverrides lead settings rest
      | .error reason => .error ⟨name, reason⟩

end Gatehouse.Config
