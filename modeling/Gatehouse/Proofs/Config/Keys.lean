import Gatehouse.Proofs.Config.Layers
import Gatehouse.Proofs.Json.Saying

/-!
# Keys of settings

Every section of the settings has its own keys.  Where settings have been made of a document, all
that is written in a section of it stands under keys of that section; this holds of every table of
rules and of every provider, whether or not it is kept.
-/

namespace Gatehouse.Config

open Json
open Identity (ProviderConfig)
open Policy (Rules)

/-! ## Parts of records and maps -/

/-- A part is bound to the name of the key, or stands in a list at the position of the key. -/
def HasPart (d : Document) (key : Key) (part : Document) : Prop :=
  (∃ members, d.members? = some members ∧ (key.name, part) ∈ members) ∨
    ∃ items, d = .list items ∧ items[key.position]? = some part

variable {α σ : Type} {origin : Notation}

/-- Of a record that has been accepted, every part for a field has been. -/
theorem taken_of_hasPart {shape : RecordShape σ} {key : Key} {d : Decoder α} {put : σ → α → σ}
    (hothers : shape.others = .refused) (hnames : (shape.fields.map (·.name)).Nodup)
    (hfield : shape.fields[key.position]? = some (Slot.of key.name d put)) {start s : σ}
    {doc part : Document} (htake : (shape.decode start).take origin doc = .ok s)
    (hpart : HasPart doc key part) : ∃ a, d.take origin part = .ok a := by
  obtain ⟨before, after, hstep⟩ :
      ∃ before after, (Slot.of key.name d put).take origin before part = .ok after := by
    obtain ⟨members, hmembers, hmem⟩ | ⟨items, rfl, hitem⟩ := hpart
    · obtain ⟨field, hfound, hstep⟩ := RecordShape.taken_of_takeMembers hothers
        (RecordShape.takeMembers_of_take htake hmembers) _ hmem
      have hsame : shape.field? key.name = some (Slot.of key.name d put) :=
        RecordShape.field?_of_getElem? hnames hfield
      obtain rfl := Option.some.inj (hfound.symm.trans hsame)
      exact hstep
    · exact RecordShape.taken_of_takeItems (RecordShape.takeItems_of_take htake) hfield hitem
  obtain ⟨a, ha, -⟩ := Slot.take_of_eq_ok hstep
  exact ⟨a, ha⟩

/-- Of a map that has been accepted, every member has been. -/
theorem taken_of_mem_map {d : Decoder α} {doc : Document} {table : Table α}
    (htake : (decodeMap d).take origin doc = .ok table) {members : List (String × Document)}
    (hmembers : doc.members? = some members) {member : String × Document}
    (hmem : member ∈ members) : ∃ a, d.take origin member.2 = .ok a := by
  obtain ⟨found, bindings, hfound, hbindings, -⟩ := decodeMap_eq_ok.mp htake
  obtain rfl := Option.some.inj (hfound.symm.trans hmembers)
  obtain ⟨n, hn, rfl⟩ := List.mem_iff_getElem.mp hmem
  have hlength := hbindings.length_eq
  exact ⟨_, (List.forall₂_iff_get.mp hbindings).2 n hn (hlength ▸ hn) |>.2⟩

/-! ## Sections -/

inductive Section where
  | root | server | telemetry | logging | metrics | rules | provider
  deriving DecidableEq, Repr

def Section.keys : Section → List String
  | .root => ["server", "telemetry", "authorization", "identity_providers", "components"]
  | .server => ["http_addr", "shutdown_timeout_secs", "request_timeout_ms", "worker_timeout_ms",
    "max_body_bytes"]
  | .telemetry => ["service_name", "logging", "metrics"]
  | .logging => ["enabled", "level", "format", "ansi_enabled"]
  | .metrics => ["enabled", "addr"]
  | .rules => ["default", "methods", "groups"]
  | .provider => ["category", "issuer", "algorithm", "secret", "public_key_pem", "audience",
    "group_claim", "default_group"]

/-- A part of a document stands for a section of the settings. -/
inductive Stands (d : Document) : Section → Document → Prop where
  | root : Stands d .root d
  | server {part : Document} (h : HasPart d ⟨"server", 0⟩ part) : Stands d .server part
  | telemetry {part : Document} (h : HasPart d ⟨"telemetry", 1⟩ part) : Stands d .telemetry part
  | logging {whole part : Document} (hwhole : HasPart d ⟨"telemetry", 1⟩ whole)
      (h : HasPart whole ⟨"logging", 1⟩ part) : Stands d .logging part
  | metrics {whole part : Document} (hwhole : HasPart d ⟨"telemetry", 1⟩ whole)
      (h : HasPart whole ⟨"metrics", 2⟩ part) : Stands d .metrics part
  | rules {whole : Document} {members : List (String × Document)} {member : String × Document}
      (hwhole : HasPart d ⟨"authorization", 2⟩ whole) (hmembers : whole.members? = some members)
      (h : member ∈ members) : Stands d .rules member.2
  | provider {whole : Document} {members : List (String × Document)} {member : String × Document}
      (hwhole : HasPart d ⟨"identity_providers", 3⟩ whole)
      (hmembers : whole.members? = some members) (h : member ∈ members) :
      Stands d .provider member.2

/-- Somewhere in a section stands a key that is none of the section's. -/
def HasUnknownKey (d : Document) : Prop :=
  ∃ which part members, Stands d which part ∧ part.members? = some members ∧
    ∃ member ∈ members, member.1 ∉ which.keys

/-! ## Accepted documents -/

section

variable {d part : Document} {settings : Settings}
  (htake : Settings.decode.take origin d = .ok settings)
include htake

theorem telemetry_of_take (h : HasPart d ⟨"telemetry", 1⟩ part) :
    ∃ telemetry, (TelemetrySettings.shape.decode {}).take origin part = .ok telemetry :=
  taken_of_hasPart rfl (by simp [Settings.shape]) rfl htake h

theorem authorization_of_take (h : HasPart d ⟨"authorization", 2⟩ part) :
    ∃ table, (decodeMap Rules.decode).take origin part = .ok table :=
  taken_of_hasPart rfl (by simp [Settings.shape]) rfl htake h

theorem providers_of_take (h : HasPart d ⟨"identity_providers", 3⟩ part) :
    ∃ table, (decodeMap ProviderConfig.decode).take origin part = .ok table :=
  taken_of_hasPart rfl (by simp [Settings.shape]) rfl htake h

/-- Settings are made only of documents whose sections have keys of their own. -/
theorem keys_known {which : Section} (hstands : Stands d which part)
    {members : List (String × Document)} (hmembers : part.members? = some members) :
    ∀ member ∈ members, member.1 ∈ which.keys := by
  cases hstands with
  | root => exact RecordShape.names_known rfl htake hmembers
  | server h =>
      obtain ⟨_, hserver⟩ : ∃ server,
          (ServerSettings.shape.decode {}).take origin part = .ok server :=
        taken_of_hasPart rfl (by simp [Settings.shape]) rfl htake h
      exact RecordShape.names_known rfl hserver hmembers
  | telemetry h =>
      obtain ⟨_, htelemetry⟩ := telemetry_of_take htake h
      exact RecordShape.names_known rfl htelemetry hmembers
  | logging hwhole h =>
      obtain ⟨_, htelemetry⟩ := telemetry_of_take htake hwhole
      obtain ⟨_, hlogging⟩ : ∃ logging,
          (LoggingSettings.shape.decode {}).take origin part = .ok logging :=
        taken_of_hasPart rfl (by simp [TelemetrySettings.shape]) rfl htelemetry h
      exact RecordShape.names_known rfl hlogging hmembers
  | metrics hwhole h =>
      obtain ⟨_, htelemetry⟩ := telemetry_of_take htake hwhole
      obtain ⟨_, hmetrics⟩ : ∃ metrics,
          (MetricsSettings.shape.decode {}).take origin part = .ok metrics :=
        taken_of_hasPart rfl (by simp [TelemetrySettings.shape]) rfl htelemetry h
      exact RecordShape.names_known rfl hmetrics hmembers
  | rules hwhole hinside h =>
      obtain ⟨_, htable⟩ := authorization_of_take htake hwhole
      obtain ⟨_, hrules⟩ := taken_of_mem_map htable hinside h
      exact RecordShape.names_known rfl hrules hmembers
  | provider hwhole hinside h =>
      obtain ⟨_, htable⟩ := providers_of_take htake hwhole
      obtain ⟨_, hprovider⟩ := taken_of_mem_map htable hinside h
      exact RecordShape.names_known rfl hprovider hmembers

theorem not_hasUnknownKey : ¬ HasUnknownKey d := by
  rintro ⟨which, part, members, hstands, hmembers, member, hmem, hunknown⟩
  exact hunknown (keys_known htake hstands hmembers member hmem)

end

end Gatehouse.Config
