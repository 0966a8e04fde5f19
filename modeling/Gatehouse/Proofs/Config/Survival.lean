import Gatehouse.Proofs.Config.Keys
import Gatehouse.Proofs.Config.Written
import Gatehouse.Proofs.Json.Direct
import Gatehouse.Proofs.Json.Printed

/-!
# Settings survive their texts

Settings return from every text that says what is written of them, and what has been read off a text
without floating-point numbers is again of the kind that returns.
-/

namespace Gatehouse.Config

open Json
open Identity (ProviderConfig)
open Policy (Rules)

/-! ## Reading -/

/-- Settings that can be made of what a text says are read off it. -/
theorem direct_settings : Direct (Settings.decode.take .value) Settings.decode.read := by
  have hserver := ServerSettings.shape.direct_decode rfl (by simp [ServerSettings.shape]) {}
  have hformat : Direct (LogFormat.decode.take .value) LogFormat.decode.read :=
    direct_decodeChoice _
  have hlogging := LoggingSettings.shape.direct_decode rfl
    (by simp [LoggingSettings.shape, hformat]) {}
  have hmetrics := MetricsSettings.shape.direct_decode rfl (by simp [MetricsSettings.shape]) {}
  have htelemetry := TelemetrySettings.shape.direct_decode rfl
    (by simp [TelemetrySettings.shape, hlogging, hmetrics]) {}
  have hlist := direct_decodeString.decodeList
  have hrules : Direct (Rules.decode.take .value) Rules.decode.read :=
    Rules.shape.direct_decode rfl (by simp [Rules.shape, hlist]) {}
  have hprovider : Direct (ProviderConfig.decode.take .value) ProviderConfig.decode.read :=
    ProviderConfig.shape.direct_decode rfl (by simp [ProviderConfig.shape]) {}
  exact Settings.shape.direct_decode rfl
    (by simp [Settings.shape, hserver, htelemetry, hrules, hprovider]) {}

/-- What a text is read as in a format is what is made of its document. -/
theorem Format.read_eq_ok {format : Format} {text : String} {settings : Settings} :
    format.read text = .ok settings ↔ ∃ d, format.document? text = some d ∧
      Settings.decode.take format.origin d = .ok settings := by
  refine ⟨Format.document?_of_read, ?_⟩
  rintro ⟨d, hdocument, htake⟩
  cases format with
  | toml =>
      rw [read, show Toml.read? text = some d from hdocument]
      exact Effect.mapError_eq_ok.mpr htake
  | json =>
      rw [document?] at hdocument
      cases hrun : Reader.document.run (Text.Utf8.encode text) with
      | error e =>
          rw [hrun] at hdocument
          cases hdocument
      | ok d' =>
          rw [hrun] at hdocument
          obtain rfl := Option.some.inj hdocument
          exact Effect.mapError_eq_ok.mpr (direct_settings.run hrun htake)

theorem Loader.string_eq_ok {loader loaded : Loader} {text name : String} :
    loader.string text name = .ok loaded ↔ ∃ format settings, Format.ofName? name = some format ∧
      format.read text = .ok settings ∧ loader.preset settings = loaded := by
  rw [string]
  cases Format.ofName? name with
  | none =>
      constructor
      · intro h
        cases h
      · rintro ⟨_, _, h, -⟩
        cases h
  | some format =>
      refine Effect.map_eq_ok.trans ⟨?_, ?_⟩
      · rintro ⟨settings, hread, hloaded⟩
        exact ⟨format, settings, rfl, hread, hloaded⟩
      · rintro ⟨_, settings, ⟨rfl⟩, hread, hloaded⟩
        exact ⟨settings, hread, hloaded⟩

/-! ## What has been read -/

theorem hasOrder_of_take {origin : Notation} {d : Document} {rules : Rules}
    (h : Rules.decode.take origin d = .ok rules) : HasOrder rules := by
  obtain ⟨-, hmethods, hgroups⟩ := reads_rules
  exact ⟨(table_of_made (hmethods _ _ _ h)).1, (table_of_made (hgroups _ _ _ h)).1⟩

theorem hasCounters_of_take {origin : Notation} {d : Document} {settings : Settings}
    (h : Settings.decode.take origin d = .ok settings) : settings.server.HasCounters := by
  have hcounter (fallback : Nat) {n : Nat} {part : Option Document} (hfallback : IsCounter fallback)
      (hmade : Made ((decodeUnsigned 64).take origin) fallback part n) : IsCounter n := by
    cases part with
    | none => exact lt_of_eq_of_lt hmade hfallback
    | some part => exact lt_of_unsigned hmade
  exact {
    shutdownSeconds := hcounter 30 (by decide) (Setting.shutdownSeconds.reads _ _ _ h)
    requestMilliseconds := hcounter 30000 (by decide) (Setting.requestMilliseconds.reads _ _ _ h)
    workerMilliseconds := hcounter 0 (by decide) (Setting.workerMilliseconds.reads _ _ _ h)
    maxBodyBytes := hcounter 16777216 (by decide) (Setting.maxBodyBytes.reads _ _ _ h) }

/-- Settings that have been made of a plain document can be stored again. -/
theorem isStorable_of_take {d : Document} {settings : Settings}
    (h : Settings.decode.take .value d = .ok settings) (hplain : d.IsPlain maxDepth) :
    settings.IsStorable := by
  obtain ⟨hauthorization, hproviders, hcomponents⟩ := reads_tables
  obtain ⟨hrules, hruled⟩ := table_of_made (hauthorization _ _ _ h)
  obtain ⟨hnames, hoptions⟩ := table_of_made (hcomponents _ _ _ h)
  refine {
    counters := hasCounters_of_take h
    authorization := hrules
    rules := fun binding hmem => ?_
    providers := (table_of_made (hproviders _ _ _ h)).1
    components := hnames
    options := fun binding hmem => ?_ }
  · obtain ⟨_, _, _, -, -, -, htake⟩ := hruled binding hmem
    exact hasOrder_of_take htake
  · obtain ⟨part, members, value, hpart, hmembers, hvalue, htake⟩ := hoptions binding hmem
    obtain ⟨n, hn, hpartPlain⟩ := hplain.part ((Option.bind_fun_some _).symm.trans hpart)
    obtain ⟨m, hm, hvaluePlain⟩ := hpartPlain.member hmembers hvalue
    obtain ⟨hexact, hnesting⟩ : value.toJson.IsPlain m := hvaluePlain.toJson
    have hmade : value.toJson = binding.2 := Except.ok.inj htake
    rw [← hmade]
    exact ⟨hexact, by omega⟩

/-! ## There and back -/

/-- The text holds a document that has the value and names nothing twice; the members of its objects
may come in any order. -/
def Writes (text : String) (value : Json) : Prop :=
  ∃ d, Format.json.document? text = some d ∧ d.all Document.namesDiffer = true ∧ d.toJson = value

theorem document?_json {text : String} {d : Document} :
    Format.json.document? text = some d ↔
      Reader.document.run (Text.Utf8.encode text) = .ok d := by
  rw [Format.document?]
  cases Reader.document.run (Text.Utf8.encode text) with
  | error e =>
      constructor
      · intro h
        cases h
      · intro h
        cases h
  | ok d' =>
      constructor
      · intro h
        rw [Option.some.inj h]
      · intro h
        rw [Except.ok.inj h]
        rfl

theorem writes_render {value : Json} (h : value.IsPlain maxDepth) : Writes value.render value := by
  refine ⟨value.toDocument, document?_json.mpr ?_, ?_, toJson_toDocument value h.exact⟩
  · rw [encode_render]
    exact document_renderBytes value h.exact h.nesting
  · exact Document.namesDiffer_toDocument value (isSorted_of_isExact value h.exact)

/-- The settings can be written, and they are what any loader reads off any text of them. -/
def Survives (settings : Settings) : Prop :=
  Writes settings.toJson.render settings.toJson ∧ ∀ (loader : Loader) (text : String),
    Writes text settings.toJson → loader.string text "json" = .ok (loader.preset settings)

theorem survives_of_isStorable {settings : Settings} (h : settings.IsStorable) :
    Survives settings := by
  refine ⟨writes_render h.isPlain, fun loader text hwrites => ?_⟩
  obtain ⟨d, hdocument, hnames, hvalue⟩ := hwrites
  obtain ⟨hsayable, -⟩ := Reader.document_contents (document?_json.mp hdocument)
  have htake := Settings.returns h d ⟨hsayable, hnames, hvalue⟩
  exact Loader.string_eq_ok.mpr
    ⟨.json, settings, rfl, Format.read_eq_ok.mpr ⟨d, hdocument, htake⟩, rfl⟩

/-- What has been read off a text in JSON has been made of its document. -/
theorem take_of_string {loader loaded : Loader} {text : String} {d : Document}
    (hdocument : Format.json.document? text = some d) (h : loader.string text "json" = .ok loaded) :
    Settings.decode.take .value d = .ok loaded.settings := by
  obtain ⟨_, settings, ⟨rfl⟩, hread, rfl⟩ := Loader.string_eq_ok.mp h
  obtain ⟨d', hdocument', htake⟩ := Format.read_eq_ok.mp hread
  obtain rfl := Option.some.inj (hdocument.symm.trans hdocument')
  exact htake

/-- Storable settings survive being written and read.  So do all settings that have been read off a
text without floating-point numbers, while a text with an unknown key in any section is refused. -/
theorem settings_survive_their_texts :
    (∀ settings : Settings, settings.IsStorable → Survives settings) ∧
    (∀ (loader loaded : Loader) (text : String) (d : Document),
      Format.json.document? text = some d → d.all Document.notFloat = true →
        loader.string text "json" = .ok loaded → Survives loaded.settings) ∧
    ∀ (loader : Loader) (text : String) (d : Document),
      Format.json.document? text = some d → HasUnknownKey d →
        ∃ e, loader.string text "json" = .error e := by
  refine ⟨fun _ => survives_of_isStorable, ?_, ?_⟩
  · intro loader loaded text d hdocument hfloat hloaded
    obtain ⟨hsayable, hnesting⟩ := Reader.document_contents (document?_json.mp hdocument)
    apply survives_of_isStorable
    exact isStorable_of_take (take_of_string hdocument hloaded) ⟨hsayable, hfloat, hnesting⟩
  · intro loader text d hdocument hunknown
    cases hstring : loader.string text "json" with
    | error e => exact ⟨e, rfl⟩
    | ok loaded => exact absurd hunknown (not_hasUnknownKey (take_of_string hdocument hstring))

/-- For settings with options of a component, for settings that are read off a text with one key,
and for a text in which that key is misspelt. -/
theorem limited_settings_survive :
    Survives { Settings.production with
      components := [("Catalogue", .obj [("depth", .int 3), ("roots", .arr [.str "/"])])] } ∧
    Loader.string {} "\x7b\"server\":\x7b\"worker_timeout_ms\":250\x7d\x7d" "json" =
      .ok { settings := { server := { workerMilliseconds := 250 } } } ∧
    Survives { server := { workerMilliseconds := 250 } } ∧
    ∃ e, Loader.string {} "\x7b\"server\":\x7b\"worker_timeout\":250\x7d\x7d" "json" = .error e := by
  obtain ⟨hstorable, hread, hunknown⟩ := settings_survive_their_texts
  have hloaded : Loader.string {} "\x7b\"server\":\x7b\"worker_timeout_ms\":250\x7d\x7d" "json" =
      .ok { settings := { server := { workerMilliseconds := 250 } } } := rfl
  have hdocument : Format.json.document? "\x7b\"server\":\x7b\"worker_timeout_ms\":250\x7d\x7d" =
      some (.table [("server", .table [("worker_timeout_ms", .int 250)])]) := rfl
  have hmisspelt : Format.json.document? "\x7b\"server\":\x7b\"worker_timeout\":250\x7d\x7d" =
      some (.table [("server", .table [("worker_timeout", .int 250)])]) := rfl
  have hsurvives := hread _ _ _ _ hdocument rfl hloaded
  refine ⟨hstorable _ ?_, hloaded, hsurvives, hunknown _ _ _ hmisspelt ?_⟩
  · exact {
      counters := ⟨by decide, by decide, by decide, by decide⟩
      authorization := .nil
      rules := List.forall_mem_nil _
      providers := .nil
      components := List.pairwise_singleton _ _
      options := by decide }
  · refine ⟨.server, .table [("worker_timeout", .int 250)], [("worker_timeout", .int 250)],
      .server (.inl ⟨_, rfl, List.mem_singleton_self _⟩), rfl, _, List.mem_singleton_self _, ?_⟩
    decide

end Gatehouse.Config
