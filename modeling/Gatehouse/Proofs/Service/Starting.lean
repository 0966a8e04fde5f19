import Gatehouse.Proofs.Config.Dotenv
import Gatehouse.Proofs.Config.Layers
import Gatehouse.Service.Bootstrap

/-!
# The layers that a service starts from

A service loads its settings file over the defaults, after the variables of the environment file
have been added to the environment, and applies all variables to what it has loaded.  So a variable
wins over the settings file wherever it comes from, and between the two files it is not the one read
last that counts.
-/

namespace Gatehouse.Service

open Config (Layer Loader LoadError Setting Settings Surroundings textOf?)

variable {around : Surroundings} {path : Option String} {settings : Settings}

theorem upper_environmentLead : Text.upper environmentLead = environmentLead := rfl

/-- The variables of the environment file stand behind those of the environment. -/
theorem decide_withDotenv (around : Surroundings) (layers : List Layer) (setting : Setting) :
    Layer.decide (.ofVariables environmentLead around.withDotenv.1.environment :: layers) setting =
      Layer.decide (.ofVariables environmentLead around.environment ::
        .ofVariables environmentLead around.assignments :: layers) setting := by
  simp only [Layer.decide_cons, Layer.ofVariables, textOf?, Surroundings.get?_withDotenv]
  cases Table.get? (setting.variableName environmentLead) around.environment with
  | none => rfl
  | some text => rfl

theorem ofFile_withDotenv (around : Surroundings) (path : Option String) :
    Layer.ofFile around.withDotenv.1 path = Layer.ofFile around path := by
  have hsame : around.withDotenv.1.document? = around.document? := by
    funext name
    rw [Surroundings.document?, Surroundings.document?, around.find?_withDotenv]
  rw [Layer.ofFile, Layer.ofFile, hsame]

/-- A service that gets its settings has a loader that has been given the settings file. -/
theorem exists_loader (h : (loadSettings around path).1 = .ok settings) : ∃ loader : Loader,
    (∀ setting, Layer.decide [.ofFile around path] setting = some (setting.get loader.settings)) ∧
    (loader.overridable environmentLead).load around.withDotenv.1 = .ok settings := by
  rw [loadSettings] at h
  cases path with
  | none => exact ⟨{}, fun _ => rfl, h⟩
  | some path =>
      dsimp only at h
      cases hloader : Loader.optionalFile {} around.withDotenv.1 path with
      | error e =>
          rw [hloader] at h
          cases h
      | ok loader =>
          rw [hloader] at h
          refine ⟨loader, fun setting => ?_, h⟩
          rw [← ofFile_withDotenv]
          exact Config.layer_of_optionalFile hloader setting

/-- A setting has the value of the first layer that says something of it: the environment, the
environment file, the settings file, the defaults.  So it has the value that the settings file says
before the environment file, unless both say something of it and the environment does not. -/
theorem first_layer_decides (hnames : (around.environment.map Prod.fst).Nodup)
    (h : (loadSettings around path).1 = .ok settings) (setting : Setting) :
    let environment := Layer.ofVariables environmentLead around.environment
    let environmentFile := Layer.ofVariables environmentLead around.assignments
    let settingsFile := Layer.ofFile around path
    Layer.decide [environment, environmentFile, settingsFile] setting =
      some (setting.get settings) ∧
    ((environment setting).isSome ∨ environmentFile setting = none ∨ settingsFile setting = none →
      Layer.decide [environment, settingsFile, environmentFile] setting =
        some (setting.get settings)) := by
  intro environment environmentFile settingsFile
  have hdecided : Layer.decide [environment, environmentFile, settingsFile] setting =
      some (setting.get settings) := by
    obtain ⟨loader, hfile, hload⟩ := exists_loader h
    have hloaded := Config.loaded_load loader environmentLead around.withDotenv.1
      (Surroundings.nodup_withDotenv around hnames)
    rw [hload, upper_environmentLead] at hloaded
    rw [← decide_withDotenv]
    exact Config.layer_of_patches (hloaded.patches rfl) (hfile setting)
  refine ⟨hdecided, fun hone => ?_⟩
  rw [Layer.decide_cons] at hdecided ⊢
  obtain hsaid | hsilent := hone
  · obtain ⟨said, hsaid⟩ := Option.isSome_iff_exists.mp hsaid
    rw [hsaid] at hdecided ⊢
    exact hdecided
  · rw [Layer.decide_swap hsilent.symm]
    exact hdecided

/-- Both files limit the time of a worker. -/
def twiceLimited : Surroundings where
  files := [(".env", .file (Text.Utf8.encode "HERMES__SERVER__WORKER_TIMEOUT_MS=250\n")),
    ("hermes.toml", .file (Text.Utf8.encode "[server]\nworker_timeout_ms = 500\n"))]

def limitedTo (milliseconds : Nat) : Settings where
  server := { workerMilliseconds := milliseconds }

theorem twiceLimited_read :
    let setting : Setting := .workerMilliseconds
    (loadSettings twiceLimited (some "hermes.toml")).1.toOption.map (setting.get ·) =
      some (setting.get (limitedTo 250)) ∧
    Layer.ofFile twiceLimited (some "hermes.toml") setting =
      some (some (setting.get (limitedTo 500))) := by
  decide +kernel

theorem twiceLimited_gets_first_limit :
    (twiceLimited.environment.map Prod.fst).Nodup ∧ ∃ settings,
      (loadSettings twiceLimited (some "hermes.toml")).1 = .ok settings ∧
      Layer.decide [.ofVariables environmentLead twiceLimited.environment,
        .ofVariables environmentLead twiceLimited.assignments,
        .ofFile twiceLimited (some "hermes.toml")] .workerMilliseconds =
          some settings.server.workerMilliseconds := by
  have hnames : (twiceLimited.environment.map Prod.fst).Nodup := List.nodup_nil
  have hread := twiceLimited_read.1
  cases h : (loadSettings twiceLimited (some "hermes.toml")).1 with
  | error e =>
      rw [h] at hread
      cases hread
  | ok settings =>
      exact ⟨hnames, settings, rfl, (first_layer_decides hnames h .workerMilliseconds).1⟩

/-- No variable of the environment sets the limit and the settings file does, but the value is not
that of the settings file. -/
theorem twiceLimited_passes_over_settings_file :
    let environment := Layer.ofVariables environmentLead twiceLimited.environment
    let environmentFile := Layer.ofVariables environmentLead twiceLimited.assignments
    let settingsFile := Layer.ofFile twiceLimited (some "hermes.toml")
    let setting : Setting := .workerMilliseconds
    (loadSettings twiceLimited (some "hermes.toml")).1.toOption.map (setting.get ·) =
      some (setting.get (limitedTo 250)) ∧
    environment setting = none ∧
    settingsFile setting = some (some (setting.get (limitedTo 500))) ∧
    Layer.decide [environment, settingsFile, environmentFile] setting =
      some (setting.get (limitedTo 500)) ∧
    setting.get (limitedTo 250) ≠ setting.get (limitedTo 500) := by
  intro environment environmentFile settingsFile setting
  have hsilent : environment setting = none := rfl
  have hfile : settingsFile setting = some (some (setting.get (limitedTo 500))) :=
    twiceLimited_read.2
  refine ⟨twiceLimited_read.1, hsilent, hfile, ?_, by decide⟩
  rw [Layer.decide_cons, hsilent, Layer.decide_cons, hfile]
  rfl

end Gatehouse.Service
