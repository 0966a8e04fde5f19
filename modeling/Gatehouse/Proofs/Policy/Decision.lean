import Gatehouse.Policy.Rules
import Gatehouse.Proofs.Text.Spelling
import Mathlib

/-!
# Decisions by properties

A call is judged on the completed record of its caller, and what is left behind is that record,
whether the call is allowed or not.  Completing a record a second time adds nothing, and of the
properties that govern a method only the set counts, so neither asking again nor listing them in
another way changes a decision.
-/

namespace Gatehouse.Policy

/-! ## What a decision rests on -/

def conditionWords : List String := ["all", "any", "authenticated", "visitor"]

/-- A required property opens a method to a caller. -/
inductive Opens (c : Credential) (property : String) : Prop where
  | everyone (word : Text.IsSpelling "all" property ∨ Text.IsSpelling "any" property)
  | identified (word : Text.IsSpelling "authenticated" property)
      (known : c.username ≠ none ∨ c.id ≠ none ∨ c.dn ≠ none)
  | unidentified (word : Text.IsSpelling "visitor" property)
      (unknown : c.username = none ∧ c.id = none ∧ c.dn = none)
  | held (name : ∀ word ∈ conditionWords, ¬ Text.IsSpelling word property)
      (held : property ∈ c.properties)

/-- The record of a caller with what the rules add to it. -/
structure Completed (r : Rules) (c completed : Credential) : Prop where
  dn : completed.dn = c.dn
  id : completed.id = c.id
  group : completed.group = c.group
  extra : completed.extra = c.extra
  attributes : completed.attributes = c.attributes
  ownName : ∀ name, c.username = some name → completed.username = some name
  idAsName : c.username = none → completed.username = c.id
  ownProperties : c.properties ≠ [] → completed.properties = c.properties
  ofGroup : c.properties = [] → ∀ group properties, c.group = some group →
    Table.get? group r.groups = some properties → completed.properties = properties
  ofNoGroup : c.properties = [] → (∀ group, c.group = some group →
    Table.get? group r.groups = none) → completed.properties = []

/-- The properties of which one is needed: those that the rules list for the method, or else those
required of the call, and where that makes none those that the rules need everywhere. -/
inductive Governs (r : Rules) (method : String) (required : Option (List String)) :
    List String → Prop where
  | listed {properties : List String} (entry : Table.get? method r.methods = some properties)
      (nonempty : properties ≠ []) : Governs r method required properties
  | required {properties : List String} (unlisted : Table.get? method r.methods = none)
      (call : required = some properties) (nonempty : properties ≠ []) :
      Governs r method required properties
  | listedEmpty (entry : Table.get? method r.methods = some []) :
      Governs r method required r.default
  | unnamed (unlisted : Table.get? method r.methods = none)
      (call : required = none ∨ required = some []) : Governs r method required r.default

/-- Exactly one list governs a method. -/
theorem governs_iff {r : Rules} {method : String} {required : Option (List String)}
    {properties : List String} :
    Governs r method required properties ↔ properties = r.needed method required := by
  rw [Rules.needed]
  constructor
  · intro h
    cases h with
    | listed entry nonempty => simp [entry, nonempty]
    | required unlisted call nonempty => simp [unlisted, call, nonempty]
    | listedEmpty entry => simp [entry]
    | unnamed unlisted call => rcases call with rfl | rfl <;> simp [unlisted]
  · rintro rfl
    rcases hentry : Table.get? method r.methods with _ | _ | ⟨first, rest⟩
    · rcases required with _ | _ | ⟨first, rest⟩
      · exact .unnamed hentry (.inl rfl)
      · exact .unnamed hentry (.inr rfl)
      · exact .required hentry rfl (List.cons_ne_nil first rest)
    · exact .listedEmpty hentry
    · exact .listed hentry (List.cons_ne_nil first rest)

/-! ## Completing a record -/

theorem completed_enrich (r : Rules) (c : Credential) : Completed r c (r.enrich c) where
  dn := rfl
  id := rfl
  group := rfl
  extra := rfl
  attributes := rfl
  ownName name h := by simp [Rules.enrich, h]
  idAsName h := by simp [Rules.enrich, h]
  ownProperties h := by simp [Rules.enrich, h]
  ofGroup h group properties hgroup hlist := by simp [Rules.enrich, h, hgroup, hlist]
  ofNoGroup h hnone := by
    cases hgroup : c.group with
    | none => simp [Rules.enrich, h, hgroup]
    | some group => simp [Rules.enrich, h, hgroup, hnone group hgroup]

/-- The rules add to a record in one way only. -/
theorem Completed.unique {r : Rules} {c completed other : Credential} (h : Completed r c completed)
    (h' : Completed r c other) : completed = other := by
  have husername : completed.username = other.username := by
    cases hname : c.username with
    | none => rw [h.idAsName hname, h'.idAsName hname]
    | some name => rw [h.ownName name hname, h'.ownName name hname]
  have hproperties : completed.properties = other.properties := by
    by_cases hown : c.properties = []
    · by_cases hgroup : ∃ group properties, c.group = some group ∧
        Table.get? group r.groups = some properties
      · obtain ⟨group, properties, hgroup, hlist⟩ := hgroup
        rw [h.ofGroup hown group properties hgroup hlist,
          h'.ofGroup hown group properties hgroup hlist]
      · have hnone : ∀ group, c.group = some group → Table.get? group r.groups = none := by
          intro group hsome
          rw [Option.eq_none_iff_forall_ne_some]
          exact fun properties hlist => hgroup ⟨group, properties, hsome, hlist⟩
        rw [h.ofNoGroup hown hnone, h'.ofNoGroup hown hnone]
    · rw [h.ownProperties hown, h'.ownProperties hown]
  have hdn := h.dn.trans h'.dn.symm
  have hid := h.id.trans h'.id.symm
  have hgroup := h.group.trans h'.group.symm
  have hextra := h.extra.trans h'.extra.symm
  have hattributes := h.attributes.trans h'.attributes.symm
  cases completed
  cases other
  rw [Credential.mk.injEq]
  exact ⟨hdn, hid, husername, hgroup, hproperties, hextra, hattributes⟩

/-- A completed record has nothing left to complete. -/
theorem enrich_enrich (r : Rules) (c : Credential) : r.enrich (r.enrich c) = r.enrich c := by
  obtain ⟨dn, id, username, group, properties, extra, attributes⟩ := c
  cases properties with
  | nil => simp [Rules.enrich, Option.or_assoc]
  | cons first rest => simp [Rules.enrich, Option.or_assoc]

/-! ## Judging a call -/

theorem isIdentified_iff (c : Credential) :
    Rules.isIdentified c = true ↔ c.username ≠ none ∨ c.id ≠ none ∨ c.dn ≠ none := by
  simp [Rules.isIdentified, Option.isSome_iff_ne_none, or_assoc]

theorem not_isIdentified_iff (c : Credential) :
    Rules.isIdentified c = false ↔ c.username = none ∧ c.id = none ∧ c.dn = none := by
  simp [Rules.isIdentified, and_assoc]

theorem isSpelling_conditionWord_iff {word : String} (h : word ∈ conditionWords)
    (property : String) : Text.IsSpelling word property ↔ Text.lowerAscii property = word := by
  have hlower : ∀ word ∈ conditionWords, ∀ letter ∈ word.toList, letter.isUpper = false := by
    simp [conditionWords]
  exact (Text.lowerAscii_eq_iff (hlower word h) property).symm

/-- What opens a method, told by the property in lower case. -/
theorem opens_iff (c : Credential) (property : String) :
    Opens c property ↔
      (Text.lowerAscii property = "all" ∨ Text.lowerAscii property = "any") ∨
      (Text.lowerAscii property = "authenticated" ∧ Rules.isIdentified c = true) ∨
      (Text.lowerAscii property = "visitor" ∧ Rules.isIdentified c = false) ∨
      (Text.lowerAscii property ∉ conditionWords ∧ property ∈ c.properties) := by
  have hspelling : ∀ word ∈ conditionWords,
      (Text.IsSpelling word property ↔ Text.lowerAscii property = word) :=
    fun word hword => isSpelling_conditionWord_iff hword property
  have hall := hspelling "all" (by simp [conditionWords])
  have hany := hspelling "any" (by simp [conditionWords])
  have hauthenticated := hspelling "authenticated" (by simp [conditionWords])
  have hvisitor := hspelling "visitor" (by simp [conditionWords])
  rw [isIdentified_iff, not_isIdentified_iff, ← hall, ← hany, ← hauthenticated, ← hvisitor]
  constructor
  · intro h
    cases h with
    | everyone word => exact .inl word
    | identified word known => exact .inr (.inl ⟨word, known⟩)
    | unidentified word unknown => exact .inr (.inr (.inl ⟨word, unknown⟩))
    | held name held =>
        refine .inr (.inr (.inr ⟨fun hword => ?_, held⟩))
        exact name _ hword ((hspelling _ hword).mpr rfl)
  · rintro (word | ⟨word, known⟩ | ⟨word, unknown⟩ | ⟨name, held⟩)
    · exact .everyone word
    · exact .identified word known
    · exact .unidentified word unknown
    · refine .held (fun word hword hspelled => name ?_) held
      rwa [(hspelling word hword).mp hspelled]

theorem satisfies_iff (c : Credential) (property : String) :
    Rules.satisfies c property = true ↔ Opens c property := by
  rw [opens_iff, Rules.satisfies, conditionWords]
  split <;> simp_all [Credential.hasProperty]

/-- A call is allowed if one of the properties that govern its method opens it. -/
theorem allowed_iff {r : Rules} {method : String} {required : Option (List String)}
    {properties : List String} (h : Governs r method required properties) (c : Credential) :
    (r.authorize method required c).1 = true ↔ ∃ p ∈ properties, Opens (r.enrich c) p := by
  rw [governs_iff.mp h, Rules.authorize, List.any_eq_true]
  simp only [satisfies_iff]

/-- Of the properties that govern a method only the set counts, and of the rules about a caller
only those about groups. -/
theorem authorize_congr {r r' : Rules} {method method' : String}
    {required required' : Option (List String)} {properties properties' : List String}
    (h : Governs r method required properties) (h' : Governs r' method' required' properties')
    (hgroups : r'.groups = r.groups) (hsame : ∀ p, p ∈ properties' ↔ p ∈ properties)
    (c : Credential) : r'.authorize method' required' c = r.authorize method required c := by
  have henrich : r'.enrich c = r.enrich c := by
    rw [Rules.enrich, Rules.enrich, hgroups]
  refine Prod.ext (Bool.eq_iff_iff.mpr ?_) henrich
  rw [allowed_iff h', allowed_iff h, henrich]
  simp only [hsame]

/-- The rules complete every record in one way and name one list of properties for every call.  The
call is allowed exactly if the list is not empty and one of its properties opens the method to the
completed record.  Allowed or not, the completed record is what is left; asking again with it
changes neither decision nor record, and neither does any other way to write the list. -/
theorem properties_decide (r : Rules) (method : String) (required : Option (List String))
    (c : Credential) :
    (∃! completed, Completed r c completed) ∧
    (∃! properties, Governs r method required properties) ∧
    ∀ completed properties, Completed r c completed → Governs r method required properties →
      ((r.authorize method required c).1 = true ↔
        properties ≠ [] ∧ ∃ p ∈ properties, Opens completed p) ∧
      (r.authorize method required c).2 = completed ∧
      r.authorize method required completed = r.authorize method required c ∧
      ∀ (r' : Rules) (method' : String) (required' : Option (List String))
        (properties' : List String), r'.groups = r.groups →
        Governs r' method' required' properties' →
        (∀ p, p ∈ properties' ↔ p ∈ properties) →
        r'.authorize method' required' c = r.authorize method required c := by
  have hcompleted := completed_enrich r c
  refine ⟨⟨_, hcompleted, fun other h => h.unique hcompleted⟩,
    ⟨_, governs_iff.mpr rfl, fun other h => governs_iff.mp h⟩, ?_⟩
  intro completed properties hcompletes hgoverns
  obtain rfl := hcompletes.unique hcompleted
  refine ⟨?_, rfl, ?_, fun r' method' required' properties' hgroups hgoverns' hsame => ?_⟩
  · rw [allowed_iff hgoverns]
    constructor
    · rintro ⟨p, hp, hopens⟩
      exact ⟨List.ne_nil_of_mem hp, p, hp, hopens⟩
    · exact And.right
  · rw [Rules.authorize, Rules.authorize, enrich_enrich]
  · exact authorize_congr hgoverns hgoverns' hgroups hsame c

def depotRules : Rules where
  default := ["authenticated"]
  methods := [("remove", ["Curator"])]
  groups := [("readers", ["Reader"])]

/-- A reader may fetch, in whatever way the properties for that are listed, and is known by its id
and its group's property afterwards. -/
theorem depotRules_reader_fetches :
    let reader : Credential := { id := some "b9a1", group := some "readers" }
    let completed := { reader with username := some "b9a1", properties := ["Reader"] }
    depotRules.authorize "fetch" (some ["Visitor", "Reader"]) reader = (true, completed) ∧
    depotRules.authorize "fetch" (some ["Reader", "Visitor", "Reader"]) reader =
      (true, completed) := by
  intro reader completed
  have hcompletes : Completed depotRules reader completed := completed_enrich depotRules reader
  have hgoverns : Governs depotRules "fetch" (some ["Visitor", "Reader"]) ["Visitor", "Reader"] :=
    .required rfl rfl (by simp)
  have hother : Governs depotRules "fetch" (some ["Reader", "Visitor", "Reader"])
      ["Reader", "Visitor", "Reader"] := .required rfl rfl (by simp)
  obtain ⟨-, -, hdecide⟩ := properties_decide depotRules "fetch" (some ["Visitor", "Reader"]) reader
  obtain ⟨hallowed, hleft, -, hsame⟩ := hdecide _ _ hcompletes hgoverns
  have hopens : Opens completed "Reader" :=
    (opens_iff completed "Reader").mpr (.inr (.inr (.inr ⟨by decide, by simp [completed]⟩)))
  have hfetch : depotRules.authorize "fetch" (some ["Visitor", "Reader"]) reader =
      (true, completed) :=
    Prod.ext (hallowed.mpr ⟨by simp, "Reader", by simp, hopens⟩) hleft
  refine ⟨hfetch, ?_⟩
  rw [hsame depotRules "fetch" _ _ rfl hother (by simp [or_comm])]
  exact hfetch

end Gatehouse.Policy
