import Gatehouse.Config.Loader
import Gatehouse.Proofs.Config.Values
import Gatehouse.Proofs.Table
import Gatehouse.Proofs.Text.Utf8

/-!
# What overrides change

Every setting that an override may change has one variable.  If each variable of a setting has a
text that stands for one of the setting's values, the overrides change these settings to these
values and nothing else; otherwise the least of the variables that have not is reported, and nothing
is loaded.
-/

namespace Gatehouse.Config

/-! ## Variables of settings -/

namespace Setting

def name : Setting → String
  | address => "SERVER__HTTP_ADDR"
  | shutdownSeconds => "SERVER__SHUTDOWN_TIMEOUT_SECS"
  | requestMilliseconds => "SERVER__REQUEST_TIMEOUT_MS"
  | workerMilliseconds => "SERVER__WORKER_TIMEOUT_MS"
  | maxBodyBytes => "SERVER__MAX_BODY_BYTES"
  | serviceName => "TELEMETRY__SERVICE_NAME"
  | loggingEnabled => "TELEMETRY__LOGGING__ENABLED"
  | level => "TELEMETRY__LOGGING__LEVEL"
  | ansi => "TELEMETRY__LOGGING__ANSI_ENABLED"
  | format => "TELEMETRY__LOGGING__FORMAT"
  | metricsEnabled => "TELEMETRY__METRICS__ENABLED"
  | metricsAddress => "TELEMETRY__METRICS__ADDR"

def all : List Setting :=
  [address, shutdownSeconds, requestMilliseconds, workerMilliseconds, maxBodyBytes, serviceName,
    loggingEnabled, level, ansi, format, metricsEnabled, metricsAddress]

def variableName (lead : String) (setting : Setting) : String := lead ++ "__" ++ setting.name

end Setting

/-- What is read of a text is set, or else the text is refused. -/
theorem parsed_cases (setting : Setting) {expected : String}
    (h : setting.expected? = some expected) (text : String) (s : Settings) :
    let override := Override.parsed (fun text => setting.parse? text) expected fun s value =>
      setting.put s value
    (∃ value, setting.parse? text = some value ∧ override text s = .ok (setting.put s value)) ∨
    ∃ reason, setting.parse? text = none ∧ setting.expected? = some reason ∧
      override text s = .error reason := by
  intro override
  simp only [override, Override.parsed]
  cases setting.parse? text with
  | some value => exact .inl ⟨value, rfl, rfl⟩
  | none => exact .inr ⟨expected, rfl, h, rfl⟩

/-- The override of a setting takes what is read of a text, and refuses the text if that is
nothing. -/
theorem lookup_name (setting : Setting) : ∃ override : Override,
    overrides.lookup setting.name = some override ∧ ∀ text s,
      (∃ value, setting.parse? text = some value ∧ override text s = .ok (setting.put s value)) ∨
      ∃ reason, setting.parse? text = none ∧ setting.expected? = some reason ∧
        override text s = .error reason := by
  cases setting with
  | address | serviceName | level | metricsAddress =>
      exact ⟨_, rfl, fun text s => .inl ⟨text, rfl, rfl⟩⟩
  | _ => exact ⟨_, rfl, parsed_cases _ rfl⟩

theorem exists_name_of_lookup {rest : String} {override : Override}
    (h : overrides.lookup rest = some override) : ∃ setting : Setting, rest = setting.name := by
  have hnames : overrides.map Prod.fst = Setting.all.map Setting.name := rfl
  obtain ⟨before, after, hsplit, -⟩ := List.lookup_eq_some_iff.mp h
  have hmem : rest ∈ overrides.map Prod.fst := by
    rw [hsplit, List.map_append]
    exact List.mem_append_right _ List.mem_cons_self
  rw [hnames] at hmem
  obtain ⟨setting, -, rfl⟩ := List.mem_map.mp hmem
  exact ⟨setting, rfl⟩

theorem Setting.name_injective : Function.Injective Setting.name := by
  have hfound (setting : Setting) : all.find? (·.name == setting.name) = some setting := by
    cases setting <;> rfl
  intro setting other h
  apply Option.some.inj
  calc some setting
      = all.find? (·.name == setting.name) := (hfound setting).symm
    _ = all.find? (·.name == other.name) := congrArg (fun name => all.find? (·.name == name)) h
    _ = some other := hfound other

theorem Setting.toList_variableName (lead : String) (setting : Setting) :
    (setting.variableName lead).toList = (lead ++ "__").toList ++ setting.name.toList :=
  String.toList_append

theorem Setting.variableName_injective (lead : String) :
    Function.Injective (variableName lead) := by
  intro setting other h
  have hlists := congrArg String.toList h
  rw [toList_variableName, toList_variableName] at hlists
  exact name_injective (String.toList_inj.mp (List.append_cancel_left hlists))

/-- A variable overrides a setting if its name is that of the setting's variable. -/
theorem overrideOf?_eq_some_iff {lead name : String} {override : Override} :
    overrideOf? lead name = some override ↔ ∃ setting : Setting,
      name = setting.variableName lead ∧ overrides.lookup setting.name = some override := by
  rw [overrideOf?, Option.bind_eq_bind, Option.bind_eq_some_iff]
  constructor
  · rintro ⟨rest, hrest, hlookup⟩
    obtain ⟨setting, hname⟩ := exists_name_of_lookup hlookup
    refine ⟨setting, ?_, hname ▸ hlookup⟩
    apply String.toList_inj.mp
    rw [Text.stripLead?_eq_some hrest, Setting.toList_variableName, ← hname,
      String.toList_ofList]
  · rintro ⟨setting, rfl, hlookup⟩
    refine ⟨setting.name.toList, ?_, ?_⟩
    · rw [Setting.toList_variableName]
      exact Text.stripLead?_append _ _
    · rwa [String.ofList_toList]

/-! ## All variables -/

/-- The settings with those set for which there is a text, each to the value that its text stands
for. -/
structure Patches (base : Settings) (text? : Setting → Option String) (s : Settings) : Prop where
  set : ∀ setting text, text? setting = some text → setting.Denotes text (setting.get s)
  kept : ∀ setting, text? setting = none → setting.get s = setting.get base
  authorization : s.authorization = base.authorization
  providers : s.providers = base.providers
  components : s.components = base.components

/-- The text that the variables hold for a setting. -/
def textOf? (lead : String) (vars : List (String × String)) (setting : Setting) : Option String :=
  Table.get? (setting.variableName lead) vars

/-- The text that there is for a setting stands for none of its values. -/
inductive Refused (lead : String) (text? : Setting → Option String) : BadVariable → Prop where
  | intro {setting : Setting} {text reason : String} (htext : text? setting = some text)
      (hnone : ∀ value, ¬ setting.Denotes text value)
      (hreason : setting.expected? = some reason) :
      Refused lead text? ⟨setting.variableName lead, reason⟩

namespace Patches

variable {lead : String} {base s other : Settings} {text? extra? : Setting → Option String}

theorem nothing (s : Settings) : Patches s (fun _ => none) s :=
  ⟨nofun, fun _ _ => rfl, rfl, rfl, rfl⟩

/-- Texts of different settings may be set one behind the other. -/
theorem trans (h : Patches base text? s) (hextra : Patches s extra? other)
    (hone : ∀ setting, text? setting = none ∨ extra? setting = none) :
    Patches base (fun setting => (text? setting).or (extra? setting)) other where
  set setting text htext := by
    obtain hfirst | ⟨-, hsecond⟩ := Option.or_eq_some_iff.mp htext
    · have hnone : extra? setting = none :=
        (hone setting).resolve_left (ne_of_eq_of_ne hfirst (Option.some_ne_none text))
      rw [hextra.kept setting hnone]
      exact h.set setting text hfirst
    · exact hextra.set setting text hsecond
  kept setting hnone := by
    obtain ⟨hfirst, hsecond⟩ := Option.or_eq_none_iff.mp hnone
    rw [hextra.kept setting hsecond, h.kept setting hfirst]
  authorization := hextra.authorization.trans h.authorization
  providers := hextra.providers.trans h.providers
  components := hextra.components.trans h.components

theorem unique (h : Patches base text? s) (hother : Patches base text? other) : s = other := by
  have hget (setting : Setting) : setting.get s = setting.get other := by
    cases htext : text? setting with
    | none => rw [h.kept setting htext, hother.kept setting htext]
    | some text => exact (h.set setting text htext).unique (hother.set setting text htext)
  apply Settings.ext_get hget
  · rw [h.authorization, hother.authorization]
  · rw [h.providers, hother.providers]
  · rw [h.components, hother.components]

theorem not_refused (h : Patches base text? s) (bad : BadVariable) :
    ¬ Refused lead text? bad := by
  rintro ⟨htext, hnone, -⟩
  exact hnone _ (h.set _ _ htext)

end Patches

section

variable {lead : String} {v : String × String} {rest : List (String × String)}

theorem textOf?_cons (lead : String) (v : String × String) (rest : List (String × String)) :
    textOf? lead (v :: rest) = fun setting =>
      (textOf? lead [v] setting).or (textOf? lead rest setting) := by
  funext setting
  simp only [textOf?, Table.get?]
  split
  · rfl
  · rfl

theorem textOf?_disjoint (h : Table.Ordered (v :: rest)) (setting : Setting) :
    textOf? lead [v] setting = none ∨ textOf? lead rest setting = none := by
  obtain ⟨hfirst, hrest⟩ := List.pairwise_cons.mp h
  by_cases hname : v.1 = setting.variableName lead
  · right
    apply Option.eq_none_iff_forall_ne_some.mpr
    intro value hvalue
    have hlt := hfirst _ (Table.Ordered.mem_iff hrest |>.mpr hvalue)
    exact absurd hname hlt.ne
  · left
    exact if_neg hname

theorem refused_cons (h : Table.Ordered (v :: rest)) {bad : BadVariable} :
    Refused lead (textOf? lead (v :: rest)) bad ↔
      Refused lead (textOf? lead [v]) bad ∨ Refused lead (textOf? lead rest) bad := by
  rw [textOf?_cons]
  constructor
  · rintro ⟨htext, hnone, hreason⟩
    obtain hfirst | ⟨-, hrest⟩ := Option.or_eq_some_iff.mp htext
    · exact .inl ⟨hfirst, hnone, hreason⟩
    · exact .inr ⟨hrest, hnone, hreason⟩
  · rintro (⟨htext, hnone, hreason⟩ | ⟨htext, hnone, hreason⟩)
    · exact ⟨Option.or_eq_some_iff.mpr (.inl htext), hnone, hreason⟩
    · have hfirst := (textOf?_disjoint h _).resolve_right
        (ne_of_eq_of_ne htext (Option.some_ne_none _))
      exact ⟨Option.or_eq_some_iff.mpr (.inr ⟨hfirst, htext⟩), hnone, hreason⟩

theorem textOf?_variable (lead : String) (setting other : Setting) (text : String) :
    textOf? lead [(setting.variableName lead, text)] other =
      if other = setting then some text else none := by
  rw [textOf?, Table.get?]
  by_cases hsame : other = setting
  · rw [if_pos hsame, hsame, if_pos rfl]
  · rw [if_neg hsame, if_neg fun h => hsame (Setting.variableName_injective lead h.symm)]
    rfl

/-- The variable of a setting sets this setting. -/
theorem patches_put {setting : Setting} {text : String} {value : setting.Value}
    (h : setting.Denotes text value) (s : Settings) :
    Patches s (textOf? lead [(setting.variableName lead, text)]) (setting.put s value) where
  set other text' htext := by
    rw [textOf?_variable] at htext
    obtain ⟨rfl, ⟨⟩⟩ := Option.ite_none_right_eq_some.mp htext
    rwa [Setting.get_put_self]
  kept other hnone := by
    apply Setting.get_put_of_ne
    rintro rfl
    rw [textOf?_variable, if_pos rfl] at hnone
    cases hnone
  authorization := by cases setting <;> rfl
  providers := by cases setting <;> rfl
  components := by cases setting <;> rfl

/-- A variable stops the overrides if its text stands for no value of its setting; otherwise the
setting, if there is one, is set. -/
theorem applyOverrides_cons (lead : String) (s : Settings) (v : String × String)
    (rest : List (String × String)) :
    (∃ bad, Refused lead (textOf? lead [v]) bad ∧ bad.name = v.1 ∧
      applyOverrides lead s (v :: rest) = .error bad) ∨
    ∃ patched, Patches s (textOf? lead [v]) patched ∧
      applyOverrides lead s (v :: rest) = applyOverrides lead patched rest := by
  obtain ⟨name, text⟩ := v
  rw [applyOverrides]
  cases hoverride : overrideOf? lead name with
  | none =>
      have hnothing : textOf? lead [(name, text)] = fun _ => none := by
        funext setting
        apply if_neg
        rintro rfl
        obtain ⟨override, hlookup, -⟩ := lookup_name setting
        rw [overrideOf?_eq_some_iff.mpr ⟨setting, rfl, hlookup⟩] at hoverride
        cases hoverride
      rw [hnothing]
      exact .inr ⟨s, .nothing s, rfl⟩
  | some override =>
      obtain ⟨setting, rfl, hlookup⟩ := overrideOf?_eq_some_iff.mp hoverride
      obtain ⟨_, hlookup', happly⟩ := lookup_name setting
      obtain rfl := Option.some.inj (hlookup.symm.trans hlookup')
      dsimp only
      obtain ⟨value, hvalue, hset⟩ | ⟨reason, hnone, hreason, herror⟩ := happly text s
      · rw [hset]
        exact .inr ⟨_, patches_put (Setting.parse?_eq_some_iff.mp hvalue) s, rfl⟩
      · rw [herror]
        have htext := textOf?_variable lead setting setting text
        rw [if_pos rfl] at htext
        refine .inl ⟨_, ⟨htext, fun value hvalue => ?_, hreason⟩, rfl, rfl⟩
        rw [Setting.parse?_eq_some_iff.mpr hvalue] at hnone
        cases hnone

/-- What the overrides come to. -/
inductive Applied (lead : String) (s : Settings) (text? : Setting → Option String) :
    Except BadVariable Settings → Prop where
  | refused {bad : BadVariable} (h : Refused lead text? bad)
      (least : ∀ other, Refused lead text? other → other.name ≠ bad.name →
        bad.name < other.name) : Applied lead s text? (.error bad)
  | patched {patched : Settings} (h : Patches s text? patched) : Applied lead s text? (.ok patched)

/-- Variables in the order of their names are applied, or the least that is refused is reported. -/
theorem applied_applyOverrides (lead : String) {vars : List (String × String)}
    (h : Table.Ordered vars) (s : Settings) :
    Applied lead s (textOf? lead vars) (applyOverrides lead s vars) := by
  induction vars generalizing s with
  | nil =>
      rw [applyOverrides]
      exact .patched (.nothing s)
  | cons v rest ih =>
      obtain ⟨hfirst, hrest⟩ := List.pairwise_cons.mp h
      obtain ⟨bad, hbad, hname, herror⟩ | ⟨next, hnext, hstep⟩ := applyOverrides_cons lead s v rest
      · rw [herror]
        -- The first variable has the least name of all.
        apply Applied.refused ((refused_cons h).mpr (.inl hbad))
        rintro _ ⟨htext, -⟩ hother
        rw [hname] at hother ⊢
        have hmem := (Table.Ordered.mem_iff h).mpr htext
        obtain rfl | hmem := List.mem_cons.mp hmem
        · exact absurd rfl hother
        · have hlt := hfirst _ hmem
          exact hlt
      · rw [hstep]
        -- What is refused is refused further on, and what is set here is not set again.
        have hlater {bad : BadVariable} (hbad : Refused lead (textOf? lead (v :: rest)) bad) :
            Refused lead (textOf? lead rest) bad :=
          ((refused_cons h).mp hbad).resolve_left (hnext.not_refused bad)
        generalize hresult : applyOverrides lead next rest = result
        have happlied := hresult ▸ ih hrest next
        cases happlied with
        | refused hbad hleast =>
            apply Applied.refused ((refused_cons h).mpr (.inr hbad))
            exact fun other hother => hleast other (hlater hother)
        | patched hpatched =>
            rw [textOf?_cons]
            exact .patched (hnext.trans hpatched (textOf?_disjoint h))

end

/-! ## Loading -/

def Settings.checked (s : Settings) : Except LoadError Settings :=
  match s.incoherence? with
  | some what => .error (.incoherent what)
  | none => .ok s

theorem Settings.incoherence?_of_checked {s loaded : Settings} (h : s.checked = .ok loaded) :
    loaded.incoherence? = none := by
  unfold checked at h
  split at h
  · cases h
  · next hcoherent =>
      cases h
      exact hcoherent

theorem Settings.eq_of_checked {s loaded : Settings} (h : s.checked = .ok loaded) :
    loaded = s := by
  unfold checked at h
  split at h
  · cases h
  · cases h
    rfl

theorem Settings.checked_ne_badVariable (s : Settings) (bad : BadVariable) :
    s.checked ≠ .error (.badVariable bad) := by
  unfold checked
  split
  · nofun
  · nofun

/-- Of the variables that are refused, the one whose name is the least byte by byte. -/
structure LeastRefused (lead : String) (text? : Setting → Option String) (bad : BadVariable) :
    Prop where
  refused : Refused lead text? bad
  least : ∀ other, Refused lead text? other → other.name ≠ bad.name →
    Text.Utf8.encode bad.name < Text.Utf8.encode other.name

/-- A variable is refused for one reason. -/
theorem Refused.unique {lead : String} {text? : Setting → Option String} {bad other : BadVariable}
    (h : Refused lead text? bad) (hother : Refused lead text? other)
    (hname : bad.name = other.name) : bad = other := by
  obtain ⟨-, -, hreason⟩ := h
  obtain ⟨-, -, hreason'⟩ := hother
  obtain rfl := Setting.variableName_injective lead hname
  rw [Option.some.inj (hreason.symm.trans hreason')]

theorem LeastRefused.unique {lead : String} {text? : Setting → Option String}
    {bad other : BadVariable} (h : LeastRefused lead text? bad)
    (hother : LeastRefused lead text? other) : bad = other := by
  apply h.refused.unique hother.refused
  by_contra hname
  have hlt := Text.Utf8.encode_lt_encode_iff.mp (h.least _ hother.refused (Ne.symm hname))
  have hgt := Text.Utf8.encode_lt_encode_iff.mp (hother.least _ h.refused hname)
  exact lt_asymm hlt hgt

/-- What loading comes to. -/
inductive Loaded (lead : String) (base : Settings) (text? : Setting → Option String) :
    Except LoadError Settings → Prop where
  | refused {bad : BadVariable} (h : LeastRefused lead text? bad) :
      Loaded lead base text? (.error (.badVariable bad))
  | checked {patched : Settings} (h : Patches base text? patched) :
      Loaded lead base text? patched.checked

namespace Loaded

variable {lead : String} {base : Settings} {text? : Setting → Option String}
variable {result other : Except LoadError Settings} {bad : BadVariable}

/-- Nothing but the texts of the settings counts. -/
theorem unique (h : Loaded lead base text? result) (hother : Loaded lead base text? other) :
    result = other := by
  cases h with
  | refused hbad =>
      cases hother with
      | refused hbad' => rw [hbad.unique hbad']
      | checked hpatched => exact absurd hbad.refused (hpatched.not_refused _)
  | checked hpatched =>
      cases hother with
      | refused hbad => exact absurd hbad.refused (hpatched.not_refused _)
      | checked hother => rw [hpatched.unique hother]

theorem leastRefused (h : Loaded lead base text? result)
    (hresult : result = .error (.badVariable bad)) : LeastRefused lead text? bad := by
  cases h with
  | refused hbad =>
      cases hresult
      exact hbad
  | checked _ => exact absurd hresult (Settings.checked_ne_badVariable _ bad)

theorem exists_of_refused (h : Loaded lead base text? result) (hbad : Refused lead text? bad) :
    ∃ least, result = .error (.badVariable least) := by
  cases h with
  | refused _ => exact ⟨_, rfl⟩
  | checked hpatched => exact absurd hbad (hpatched.not_refused bad)

theorem exists_patched (h : Loaded lead base text? result)
    (hnone : ∀ bad, ¬ Refused lead text? bad) :
    ∃ patched, Patches base text? patched ∧ result = patched.checked := by
  cases h with
  | refused hbad => exact absurd hbad.refused (hnone _)
  | checked hpatched => exact ⟨_, hpatched, rfl⟩

/-- What is loaded is what the texts make of the settings. -/
theorem patches (h : Loaded lead base text? result) {settings : Settings}
    (hresult : result = .ok settings) : Patches base text? settings := by
  cases h with
  | refused _ => cases hresult
  | checked hpatched => rwa [Settings.eq_of_checked hresult]

theorem coherent (h : Loaded lead base text? result) {settings : Settings}
    (hresult : result = .ok settings) : settings.incoherence? = none := by
  cases h with
  | refused _ => cases hresult
  | checked _ => exact Settings.incoherence?_of_checked hresult

end Loaded

theorem loaded_load (loader : Loader) (lead : String) (around : Surroundings)
    (hnames : (around.environment.map Prod.fst).Nodup) :
    Loaded (Text.upper lead) loader.settings (textOf? (Text.upper lead) around.environment)
      ((loader.overridable lead).load around) := by
  have happlied := applied_applyOverrides (Text.upper lead)
    (Table.ordered_ofList around.environment) loader.settings
  have htexts : textOf? (Text.upper lead) (Table.ofList around.environment) =
      textOf? (Text.upper lead) around.environment :=
    funext fun setting => Table.get?_ofList_eq_of_nodup hnames _
  rw [htexts] at happlied
  rw [Loader.load, Loader.overridable]
  dsimp only
  generalize applyOverrides _ _ _ = result at happlied
  cases happlied with
  | refused h least =>
      apply Loaded.refused
      exact ⟨h, fun other hother hne => Text.Utf8.encode_lt_encode_iff.mpr (least other hother hne)⟩
  | patched h => exact .checked h

/-- If the text of a setting's variable stands for no value of the setting, the least such variable
is reported.  Otherwise the settings that have a variable are set to the values that their texts
stand for and no others, and the result is loaded if it is coherent.  Other variables and the order
of the variables count for nothing. -/
theorem overrides_set_what_they_name (loader : Loader) (lead : String) (around : Surroundings)
    (hnames : (around.environment.map Prod.fst).Nodup) :
    let marker := Text.upper lead
    let text? := textOf? marker around.environment
    let result := (loader.overridable lead).load around
    ((∃ bad, result = .error (.badVariable bad)) ↔ ∃ bad, Refused marker text? bad) ∧
    (∀ bad, result = .error (.badVariable bad) → LeastRefused marker text? bad) ∧
    ((∀ bad, ¬ Refused marker text? bad) →
      ∃ patched, Patches loader.settings text? patched ∧ result = patched.checked) ∧
    (∀ settings, result = .ok settings → settings.incoherence? = none) ∧
    ∀ other : Surroundings, (other.environment.map Prod.fst).Nodup →
      textOf? marker other.environment = text? → (loader.overridable lead).load other = result := by
  intro marker text? result
  have hloaded : Loaded marker loader.settings text? result :=
    loaded_load loader lead around hnames
  refine ⟨⟨?_, ?_⟩, ?_, ?_, ?_, ?_⟩
  · rintro ⟨bad, hresult⟩
    exact ⟨bad, (hloaded.leastRefused hresult).refused⟩
  · rintro ⟨bad, hbad⟩
    exact hloaded.exists_of_refused hbad
  · exact fun bad hresult => hloaded.leastRefused hresult
  · exact fun hnone => hloaded.exists_patched hnone
  · exact fun settings hresult => hloaded.coherent hresult
  · intro other hother htexts
    have hsame := loaded_load loader lead other hother
    rw [htexts] at hsame
    exact hsame.unique hloaded

/-- Two variables that are refused, one that is not and one of no setting. -/
def crowded : Surroundings where
  environment := [("HERMES__TELEMETRY__LOGGING__FORMAT", "xml"), ("PATH", "/bin"),
    ("HERMES__SERVER__MAX_BODY_BYTES", "1k"), ("HERMES__SERVER__HTTP_ADDR", "[::1]:80")]

/-- A number behind a plus and a zero, and a truth value in capitals. -/
def limited : Surroundings where
  environment := [("HERMES__SERVER__WORKER_TIMEOUT_MS", "+0250"), ("PATH", "/bin"),
    ("HERMES__TELEMETRY__LOGGING__ENABLED", "OFF")]

theorem least_of_crowded_is_reported :
    let load := ((Loader.mk {} none).overridable "hermes").load
    let texts (around : Surroundings) := textOf? (Text.upper "hermes") around.environment
    (crowded.environment.map Prod.fst).Nodup ∧
    (∃ bad, load crowded = .error (.badVariable bad) ∧
      LeastRefused (Text.upper "hermes") (texts crowded) bad) ∧
    (limited.environment.map Prod.fst).Nodup ∧
    ∃ settings, load limited = .ok settings ∧ Patches {} (texts limited) settings ∧
      settings.server.workerMilliseconds = 250 ∧ settings.telemetry.logging.enabled = false := by
  intro load texts
  have hcrowded : (crowded.environment.map Prod.fst).Nodup := by decide
  have hlimited : (limited.environment.map Prod.fst).Nodup := by decide
  obtain ⟨hiff, hleast, -⟩ := overrides_set_what_they_name ⟨{}, none⟩ "hermes" crowded hcrowded
  obtain ⟨hiff', -, hpatches, -⟩ :=
    overrides_set_what_they_name ⟨{}, none⟩ "hermes" limited hlimited
  have hnone : ∀ value, ¬ Setting.maxBodyBytes.Denotes "1k" value := by
    intro value hvalue
    cases Setting.parse?_eq_some_iff.mpr hvalue
  have htext : texts crowded .maxBodyBytes = some "1k" := rfl
  obtain ⟨bad, hresult⟩ := hiff.mpr ⟨_, htext, hnone, rfl⟩
  have hread : (load limited).toOption.map (fun settings =>
      (settings.server.workerMilliseconds, settings.telemetry.logging.enabled)) =
      some (250, false) := by
    decide +kernel
  cases hload : load limited with
  | error e =>
      rw [hload] at hread
      cases hread
  | ok settings =>
      rw [hload] at hread
      obtain ⟨hnumber, hflag⟩ := Prod.mk.inj (Option.some.inj hread)
      have haccepted : ∀ bad, ¬ Refused (Text.upper "hermes") (texts limited) bad := by
        intro bad hbad
        obtain ⟨bad, hresult⟩ := hiff'.mpr ⟨bad, hbad⟩
        cases hload.symm.trans hresult
      obtain ⟨patched, hpatched, hchecked⟩ := hpatches haccepted
      obtain rfl := Settings.eq_of_checked (hchecked.symm.trans hload)
      exact ⟨hcrowded, ⟨bad, hresult, hleast bad hresult⟩, hlimited, settings, rfl, hpatched,
        hnumber, hflag⟩

end Gatehouse.Config
