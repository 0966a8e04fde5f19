import Gatehouse.Proofs.Config.Layers
import Gatehouse.Proofs.Json.Saying

/-!
# What is written of settings

Settings return from every document that says what is written of them, and a text can hold that
without loss, if they are settings as the program can hold them: counters have 64 bits, tables are
in the order of their names, and the options of components hold no floating-point numbers and do
not nest too deep.
-/

namespace Gatehouse.Config

open Json
open Identity (ProviderConfig)
open Policy (Rules)

/-! ## Fields of tables -/

theorem reads_rules :
    Reads Rules.decode [⟨"default", 0⟩] (decodeList decodeString) (·.default) [] ∧
    Reads Rules.decode [⟨"methods", 1⟩] (decodeMap (decodeList decodeString)) (·.methods) [] ∧
    Reads Rules.decode [⟨"groups", 2⟩] (decodeMap (decodeList decodeString)) (·.groups) [] := by
  have hnames : (Rules.shape.fields.map (·.name)).Nodup := by simp [Rules.shape]
  refine ⟨?_, ?_, ?_⟩
  all_goals
    refine RecordShape.HasField.reads ⟨rfl, hnames, trivial, fun _ _ => rfl, ?_⟩ {}
    simp [Rules.shape, Slot.keeps_of]

theorem reads_provider :
    Reads ProviderConfig.decode [⟨"category", 0⟩] decodeString (·.category) "Id" ∧
    Reads ProviderConfig.decode [⟨"issuer", 1⟩] decodeString (·.issuer) "" ∧
    Reads ProviderConfig.decode [⟨"algorithm", 2⟩] decodeString (·.algorithm) "HS256" ∧
    Reads ProviderConfig.decode [⟨"secret", 3⟩] (decodeOption decodeString) (·.secret) none ∧
    Reads ProviderConfig.decode [⟨"public_key_pem", 4⟩] (decodeOption decodeString)
      (·.publicKeyPem) none ∧
    Reads ProviderConfig.decode [⟨"audience", 5⟩] (decodeOption decodeString) (·.audience) none ∧
    Reads ProviderConfig.decode [⟨"group_claim", 6⟩] decodeString (·.groupClaim) "groups" ∧
    Reads ProviderConfig.decode [⟨"default_group", 7⟩] (decodeOption decodeString)
      (·.defaultGroup) none := by
  have hnames : (ProviderConfig.shape.fields.map (·.name)).Nodup := by
    simp [ProviderConfig.shape]
  refine ⟨?_, ?_, ?_, ?_, ?_, ?_, ?_, ?_⟩
  all_goals
    refine RecordShape.HasField.reads ⟨rfl, hnames, trivial, fun _ _ => rfl, ?_⟩ {}
    simp [ProviderConfig.shape, Slot.keeps_of]

theorem reads_tables :
    Reads Settings.decode [⟨"authorization", 2⟩] (decodeMap Rules.decode) (·.authorization) [] ∧
    Reads Settings.decode [⟨"identity_providers", 3⟩] (decodeMap ProviderConfig.decode)
      (·.providers) [] ∧
    Reads Settings.decode [⟨"components", 4⟩] (decodeMap decodeValue) (·.components) [] := by
  have hnames : (Settings.shape.fields.map (·.name)).Nodup := by simp [Settings.shape]
  refine ⟨?_, ?_, ?_⟩
  all_goals
    refine RecordShape.HasField.reads ⟨rfl, hnames, trivial, fun _ _ => rfl, ?_⟩ {}
    simp [Settings.shape, Slot.keeps_of]

/-! ## What is written -/

/-- A counter that is stored in 64 bits. -/
abbrev IsCounter (n : Nat) : Prop := n < 2 ^ 64

namespace ServerSettings

def written (s : ServerSettings) : Object := [
  ("http_addr", .str s.address), ("max_body_bytes", .int s.maxBodyBytes),
  ("request_timeout_ms", .int s.requestMilliseconds),
  ("shutdown_timeout_secs", .int s.shutdownSeconds),
  ("worker_timeout_ms", .int s.workerMilliseconds)]

structure HasCounters (s : ServerSettings) : Prop where
  shutdownSeconds : IsCounter s.shutdownSeconds
  requestMilliseconds : IsCounter s.requestMilliseconds
  workerMilliseconds : IsCounter s.workerMilliseconds
  maxBodyBytes : IsCounter s.maxBodyBytes

theorem returns {s : ServerSettings} (h : s.HasCounters) :
    Returns (shape.decode {}) (.obj s.written) s := by
  obtain ⟨haddress, hshutdown, hrequest, hworker, hbody⟩ := reads_server
  have hs := returns_unsigned h.shutdownSeconds
  have hr := returns_unsigned h.requestMilliseconds
  have hw := returns_unsigned h.workerMilliseconds
  have hb := returns_unsigned h.maxBodyBytes
  refine .record ?_ ?_ ?_
  · simp [written, shape, RecordShape.names]
  · simp only [shape, List.forall_mem_cons]
    refine ⟨⟨_, rfl, (returns_string _).accepts _ _⟩, ⟨_, rfl, hs.accepts _ _⟩,
      ⟨_, rfl, hr.accepts _ _⟩, ⟨_, rfl, hw.accepts _ _⟩, ⟨_, rfl, hb.accepts _ _⟩,
      List.forall_mem_nil _⟩
  · intro doc made hwritten htake
    have h₁ := haddress.said rfl (returns_string _) hwritten htake
    have h₂ := hshutdown.said rfl hs hwritten htake
    have h₃ := hrequest.said rfl hr hwritten htake
    have h₄ := hworker.said rfl hw hwritten htake
    have h₅ := hbody.said rfl hb hwritten htake
    cases made
    cases s
    congr

end ServerSettings

/-- A format returns from its name. -/
theorem LogFormat.returns (format : LogFormat) : Returns decode (.str format.name) format := by
  intro doc h
  rw [h.str]
  cases format <;> rfl

namespace LoggingSettings

def written (s : LoggingSettings) : Object := [
  ("ansi_enabled", .bool s.ansi), ("enabled", .bool s.enabled), ("format", .str s.format.name),
  ("level", .str s.level)]

theorem returns (s : LoggingSettings) : Returns (shape.decode {}) (.obj s.written) s := by
  obtain ⟨henabled, hlevel, hformat, hansi⟩ := reads_logging
  refine .record ?_ ?_ ?_
  · simp [written, shape, RecordShape.names]
  · simp only [shape, List.forall_mem_cons]
    exact ⟨⟨_, rfl, (returns_bool _).accepts _ _⟩, ⟨_, rfl, (returns_string _).accepts _ _⟩,
      ⟨_, rfl, (LogFormat.returns _).accepts _ _⟩, ⟨_, rfl, (returns_bool _).accepts _ _⟩,
      List.forall_mem_nil _⟩
  · intro doc made hwritten htake
    have h₁ := henabled.said rfl (returns_bool _) hwritten htake
    have h₂ := hlevel.said rfl (returns_string _) hwritten htake
    have h₃ := hformat.said rfl (LogFormat.returns _) hwritten htake
    have h₄ := hansi.said rfl (returns_bool _) hwritten htake
    cases made
    cases s
    congr

end LoggingSettings

namespace MetricsSettings

def written (s : MetricsSettings) : Object := [
  ("addr", .str s.address), ("enabled", .bool s.enabled)]

theorem returns (s : MetricsSettings) : Returns (shape.decode {}) (.obj s.written) s := by
  obtain ⟨henabled, haddress⟩ := reads_metrics
  refine .record ?_ ?_ ?_
  · simp [written, shape, RecordShape.names]
  · simp only [shape, List.forall_mem_cons]
    exact ⟨⟨_, rfl, (returns_bool _).accepts _ _⟩, ⟨_, rfl, (returns_string _).accepts _ _⟩,
      List.forall_mem_nil _⟩
  · intro doc made hwritten htake
    have h₁ := henabled.said rfl (returns_bool _) hwritten htake
    have h₂ := haddress.said rfl (returns_string _) hwritten htake
    cases made
    cases s
    congr

end MetricsSettings

namespace TelemetrySettings

def written (s : TelemetrySettings) : Object := [
  ("logging", .obj s.logging.written), ("metrics", .obj s.metrics.written),
  ("service_name", .str s.serviceName)]

theorem returns (s : TelemetrySettings) : Returns (shape.decode {}) (.obj s.written) s := by
  obtain ⟨hname, hlogging, hmetrics⟩ := reads_telemetry
  refine .record ?_ ?_ ?_
  · simp [written, shape, RecordShape.names]
  · simp only [shape, List.forall_mem_cons]
    exact ⟨⟨_, rfl, (returns_string _).accepts _ _⟩, ⟨_, rfl, s.logging.returns.accepts _ _⟩,
      ⟨_, rfl, s.metrics.returns.accepts _ _⟩, List.forall_mem_nil _⟩
  · intro doc made hwritten htake
    have h₁ := hname.said rfl (returns_string _) hwritten htake
    have h₂ := hlogging.said rfl s.logging.returns hwritten htake
    have h₃ := hmetrics.said rfl s.metrics.returns hwritten htake
    cases made
    cases s
    congr

end TelemetrySettings

theorem returns_strings (items : List String) :
    Returns (decodeList decodeString) (Json.ofStrings items) items := by
  apply Returns.list
  rw [List.forall₂_map_left_iff, List.forall₂_same]
  exact fun item _ => returns_string item

/-- The tables of the rules are in the order of their names. -/
structure HasOrder (rules : Rules) : Prop where
  methods : Table.Ordered rules.methods
  groups : Table.Ordered rules.groups

theorem returns_rules {rules : Rules} (h : HasOrder rules) :
    Returns Rules.decode rules.toJson rules := by
  obtain ⟨hdefault, hmethods, hgroups⟩ := reads_rules
  have hlists {table : Table (List String)} (hordered : Table.Ordered table) :=
    Returns.map Json.ofStrings hordered fun binding _ => returns_strings binding.2
  have hm := hlists h.methods
  have hg := hlists h.groups
  refine .record ?_ ?_ ?_
  · simp [Rules.shape, RecordShape.names]
  · simp only [Rules.shape, List.forall_mem_cons]
    exact ⟨⟨_, rfl, (returns_strings _).accepts _ _⟩, ⟨_, rfl, hm.accepts _ _⟩,
      ⟨_, rfl, hg.accepts _ _⟩, List.forall_mem_nil _⟩
  · intro doc made hwritten htake
    have h₁ := hdefault.said rfl (returns_strings _) hwritten htake
    have h₂ := hmethods.said rfl hm hwritten htake
    have h₃ := hgroups.said rfl hg hwritten htake
    cases made
    cases rules
    congr

/-- A text that may be left open returns, as null if it is open. -/
theorem returns_optional (text : Option String) :
    Returns (decodeOption decodeString) ((text.map Json.str).getD .null) text := by
  cases text with
  | none => exact returns_none _
  | some s => exact (returns_string s).option (by simp)

theorem returns_provider (provider : ProviderConfig) :
    Returns ProviderConfig.decode provider.toJson provider := by
  obtain ⟨hcategory, hissuer, halgorithm, hsecret, hkey, haudience, hclaim, hgroup⟩ :=
    reads_provider
  refine .record ?_ ?_ ?_
  · simp [ProviderConfig.shape, RecordShape.names]
  · simp only [ProviderConfig.shape, List.forall_mem_cons]
    exact ⟨⟨_, rfl, (returns_string _).accepts _ _⟩,
      ⟨_, rfl, ((returns_string _).accepts _ _).require⟩,
      ⟨_, rfl, (returns_string _).accepts _ _⟩, ⟨_, rfl, (returns_optional _).accepts _ _⟩,
      ⟨_, rfl, (returns_optional _).accepts _ _⟩, ⟨_, rfl, (returns_optional _).accepts _ _⟩,
      ⟨_, rfl, (returns_string _).accepts _ _⟩, ⟨_, rfl, (returns_optional _).accepts _ _⟩,
      List.forall_mem_nil _⟩
  · intro doc made hwritten htake
    have h₁ := hcategory.said rfl (returns_string _) hwritten htake
    have h₂ := hissuer.said rfl (returns_string _) hwritten htake
    have h₃ := halgorithm.said rfl (returns_string _) hwritten htake
    have h₄ := hsecret.said rfl (returns_optional _) hwritten htake
    have h₅ := hkey.said rfl (returns_optional _) hwritten htake
    have h₆ := haudience.said rfl (returns_optional _) hwritten htake
    have h₇ := hclaim.said rfl (returns_string _) hwritten htake
    have h₈ := hgroup.said rfl (returns_optional _) hwritten htake
    cases made
    cases provider
    congr

/-! ## Whole settings -/

namespace Settings

/-- Settings as the program can hold them, of which a text can say all: counters have 64 bits, every
table is in the order of its names, and the options hold no floating-point numbers and nest no
deeper than is read two levels down. -/
structure IsStorable (s : Settings) : Prop where
  counters : s.server.HasCounters
  authorization : Table.Ordered s.authorization
  rules : ∀ binding ∈ s.authorization, HasOrder binding.2
  providers : Table.Ordered s.providers
  components : Table.Ordered s.components
  options : ∀ binding ∈ s.components, binding.2.isExact = true ∧ binding.2.nesting + 2 ≤ maxDepth

theorem returns {s : Settings} (h : s.IsStorable) : Returns decode s.toJson s := by
  obtain ⟨hserver, htelemetry⟩ := reads_settings
  obtain ⟨hauthorization, hproviders, hcomponents⟩ := reads_tables
  have hs := ServerSettings.returns h.counters
  have ht := s.telemetry.returns
  have ha := Returns.map Rules.toJson h.authorization
    fun binding hmem => returns_rules (h.rules binding hmem)
  have hp := Returns.map ProviderConfig.toJson h.providers
    fun binding _ => returns_provider binding.2
  have hc := Returns.map id h.components fun binding _ => returns_value binding.2
  have hsame : s.components.map (fun binding => (binding.1, id binding.2)) = s.components :=
    List.map_id _
  rw [hsame] at hc
  refine .record ?_ ?_ ?_
  · simp [shape, RecordShape.names]
  · simp only [shape, List.forall_mem_cons]
    exact ⟨⟨_, rfl, hs.accepts _ _⟩, ⟨_, rfl, ht.accepts _ _⟩, ⟨_, rfl, ha.accepts _ _⟩,
      ⟨_, rfl, hp.accepts _ _⟩, ⟨_, rfl, hc.accepts _ _⟩, List.forall_mem_nil _⟩
  · intro doc made hwritten htake
    have h₁ := hserver.said rfl hs hwritten htake
    have h₂ := htelemetry.said rfl ht hwritten htake
    have h₃ := hauthorization.said rfl ha hwritten htake
    have h₄ := hproviders.said rfl hp hwritten htake
    have h₅ := hcomponents.said rfl hc hwritten htake
    cases made
    cases s
    congr

/-! ## The written value -/

theorem isPlain_server {s : ServerSettings} (h : s.HasCounters) : IsPlain 1 (.obj s.written) := by
  have hcounter {n : Nat} (hn : IsCounter n) : IsPlain 0 (.int n) :=
    .int (Reader.intInRange_ofNat (Nat.le_sub_one_of_lt hn))
  apply IsPlain.obj (Table.ordered_of_names ["http_addr", "max_body_bytes", "request_timeout_ms",
    "shutdown_timeout_secs", "worker_timeout_ms"] rfl (by decide))
  simp only [ServerSettings.written, List.forall_mem_cons]
  exact ⟨.str _, hcounter h.maxBodyBytes, hcounter h.requestMilliseconds,
    hcounter h.shutdownSeconds, hcounter h.workerMilliseconds, List.forall_mem_nil _⟩

theorem isPlain_telemetry (s : TelemetrySettings) : IsPlain 2 (.obj s.written) := by
  have hlogging : IsPlain 1 (.obj s.logging.written) := by
    apply IsPlain.obj (Table.ordered_of_names ["ansi_enabled", "enabled", "format", "level"] rfl
      (by decide))
    simp only [LoggingSettings.written, List.forall_mem_cons]
    exact ⟨.bool _, .bool _, .str _, .str _, List.forall_mem_nil _⟩
  have hmetrics : IsPlain 1 (.obj s.metrics.written) := by
    apply IsPlain.obj (Table.ordered_of_names ["addr", "enabled"] rfl (by decide))
    simp only [MetricsSettings.written, List.forall_mem_cons]
    exact ⟨.str _, .bool _, List.forall_mem_nil _⟩
  apply IsPlain.obj (Table.ordered_of_names ["logging", "metrics", "service_name"] rfl (by decide))
  simp only [TelemetrySettings.written, List.forall_mem_cons]
  exact ⟨hlogging, hmetrics, .str _, List.forall_mem_nil _⟩

theorem isPlain_rules {rules : Rules} (h : HasOrder rules) : IsPlain 3 rules.toJson := by
  have hstrings (items : List String) : IsPlain 1 (Json.ofStrings items) := by
    apply IsPlain.arr
    rw [List.forall_mem_map]
    exact fun item _ => .str item
  apply IsPlain.obj (Table.ordered_of_names ["default", "groups", "methods"] rfl (by decide))
  simp only [List.forall_mem_cons]
  exact ⟨(hstrings _).mono (by decide), .table Json.ofStrings h.groups fun _ _ => hstrings _,
    .table Json.ofStrings h.methods fun _ _ => hstrings _, List.forall_mem_nil _⟩

theorem isPlain_provider (provider : ProviderConfig) : IsPlain 1 provider.toJson := by
  have hoption (text : Option String) : IsPlain 0 ((text.map Json.str).getD .null) := by
    cases text with
    | none => exact .null
    | some s => exact .str s
  apply IsPlain.obj (Table.ordered_of_names ["algorithm", "audience", "category", "default_group",
    "group_claim", "issuer", "public_key_pem", "secret"] rfl (by decide))
  simp only [List.forall_mem_cons]
  exact ⟨.str _, hoption _, .str _, hoption _, .str _, .str _, hoption _, hoption _,
    List.forall_mem_nil _⟩

theorem IsStorable.isPlain {s : Settings} (h : s.IsStorable) : IsPlain maxDepth s.toJson := by
  have hcomponents : IsPlain 126 (.obj s.components) :=
    .obj h.components fun binding hmem =>
      ⟨(h.options binding hmem).1, Nat.le_of_add_le_add_right (h.options binding hmem).2⟩
  have hauthorization := IsPlain.table Rules.toJson h.authorization
    fun binding hmem => isPlain_rules (h.rules binding hmem)
  have hproviders := IsPlain.table ProviderConfig.toJson h.providers
    fun binding _ => isPlain_provider binding.2
  refine IsPlain.obj (n := 126) (Table.ordered_of_names ["authorization", "components",
    "identity_providers", "server", "telemetry"] rfl (by decide)) ?_
  simp only [List.forall_mem_cons]
  exact ⟨hauthorization.mono (by decide), hcomponents, hproviders.mono (by decide),
    (isPlain_server h.counters).mono (by decide), (isPlain_telemetry s.telemetry).mono (by decide),
    List.forall_mem_nil _⟩

end Settings

end Gatehouse.Config
