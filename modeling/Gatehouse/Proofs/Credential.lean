import Gatehouse.Credential
import Gatehouse.Proofs.Json.Acceptance
import Gatehouse.Proofs.Json.Exact

/-!
# Credential records in structured form

A record is written as one object, in which its named fields stand among its free attributes.  They
are told apart by their names alone, so a record comes back as it was if no attribute has the name
of a field.  Whatever has been read is such a record.
-/

namespace Gatehouse.Credential

open Json

/-! ## The written object -/

def fieldNames : List String := ["dn", "id", "username", "group", "properties", "extra_credentials"]

def parts (c : Credential) : List (String × Option Json) := [
  ("dn", c.dn.map .str), ("id", c.id.map .str), ("username", c.username.map .str),
  ("group", c.group.map .str),
  ("properties", if c.properties.isEmpty then none else some (Json.ofStrings c.properties)),
  ("extra_credentials", c.extra)]

def named (c : Credential) : List (String × Json) :=
  c.parts.filterMap fun (name, value?) => value?.map (name, ·)

theorem toJson_eq (c : Credential) : c.toJson = .obj (Table.ofList (c.named ++ c.attributes)) := by
  rw [toJson, Table.extend_ofList]
  obtain ⟨dn, id, username, group, properties, extra, attributes⟩ := c
  cases dn <;> cases id <;> cases username <;> cases group <;> cases extra <;>
    cases properties <;> rfl

theorem names_parts (c : Credential) : c.parts.map Prod.fst = fieldNames := rfl

theorem nodup_fieldNames : fieldNames.Nodup := by decide

theorem mem_named {c : Credential} {name : String} {value : Json} :
    (name, value) ∈ c.named ↔ (name, some value) ∈ c.parts := by
  rw [named, List.mem_filterMap]
  constructor
  · rintro ⟨⟨name', value?⟩, hmem, hvalue⟩
    obtain ⟨value', rfl, hpair⟩ := Option.map_eq_some_iff.mp hvalue
    obtain ⟨rfl, rfl⟩ := Prod.mk.inj hpair
    exact hmem
  · intro h
    exact ⟨_, h, rfl⟩

theorem nodup_named (c : Credential) : (c.named.map Prod.fst).Nodup := by
  have hsublist : (c.named.map Prod.fst).Sublist fieldNames := by
    rw [← c.names_parts, named, List.map_filterMap]
    generalize c.parts = parts
    induction parts with
    | nil => exact .slnil
    | cons part rest ih =>
        obtain ⟨name, _ | value⟩ := part
        · exact ih.cons _
        · exact ih.cons_cons _
  exact hsublist.nodup nodup_fieldNames

/-- A record as the program can hold it and write it: its tables are in the order of their names, no
attribute has the name of a field, and what has been supplied in addition is not null. -/
structure IsWritable (c : Credential) : Prop where
  attributes : (Json.obj c.attributes).isSorted = true
  free : ∀ member ∈ c.attributes, member.1 ∉ fieldNames
  extra : ∀ value, c.extra = some value → value.isSorted = true ∧ value ≠ .null

/-- What is written, field by field and attribute by attribute. -/
def written (c : Credential) : Object := Table.ofList (c.named ++ c.attributes)

namespace IsWritable

variable {c : Credential} (h : c.IsWritable)
include h

theorem nodup_names : ((c.named ++ c.attributes).map Prod.fst).Nodup := by
  rw [List.map_append]
  refine List.Nodup.append c.nodup_named (isSorted_obj_iff.mp h.attributes).1.nodup_names ?_
  intro name hnamed hfree
  obtain ⟨⟨_, value⟩, hpart, rfl⟩ := List.mem_map.mp hnamed
  obtain ⟨member, hmember, hname⟩ := List.mem_map.mp hfree
  apply h.free member hmember
  rw [hname, ← c.names_parts]
  exact List.mem_map_of_mem (mem_named.mp hpart)

/-- Under the name of a field stands what is written of the field. -/
theorem get?_written {name : String} {value? : Option Json} (hpart : (name, value?) ∈ c.parts) :
    Table.get? name c.written = value? := by
  ext value
  rw [written, Table.get?_ofList_of_nodup h.nodup_names, List.mem_append, mem_named]
  constructor
  · rintro (hmem | hmem)
    · have hnames : (c.parts.map Prod.fst).Nodup := nodup_fieldNames
      exact Prod.mk.inj (List.inj_on_of_nodup_map hnames hpart hmem rfl) |>.2
    · exact absurd (c.names_parts ▸ List.mem_map_of_mem hpart) (h.free _ hmem)
  · rintro rfl
    exact .inl hpart

/-- The other members that are written are the attributes. -/
theorem filter_written :
    c.written.filter (fun member => (shape.field? member.1).isNone) = c.attributes := by
  have hknown : ∀ name, (shape.field? name).isNone = true ↔ name ∉ fieldNames := fun name =>
    Option.isNone_iff_eq_none.trans RecordShape.field?_eq_none_iff
  rw [written, Table.filter_ofList h.nodup_names fun name => (shape.field? name).isNone,
    List.filter_append, List.filter_eq_nil_iff.mpr, List.nil_append, List.filter_eq_self.mpr]
  · exact (isSorted_obj_iff.mp h.attributes).1.ofList_eq
  · exact fun member hmember => (hknown _).mpr (h.free member hmember)
  · rintro ⟨name, value⟩ hmem hnone
    apply (hknown name).mp hnone
    rw [← c.names_parts]
    exact List.mem_map_of_mem (mem_named.mp hmem)

end IsWritable

/-! ## Reading -/

section

variable {value? : Option Json}

theorem made_text {a : Option String}
    (h : Made ((decodeOption decodeString).take .value) none (value?.map toDocument) a) :
    a = value?.bind Json.str? := by
  cases value? with
  | none => exact h
  | some value =>
      cases value with
      | null => exact (Except.ok.inj h).symm
      | str text => exact (Except.ok.inj h).symm
      | _ => cases h

theorem mapM_decodeString {items : List Json} {texts : List String} :
    (toDocuments items).mapM (decodeString.take .value) = .ok texts ↔ items = texts.map .str := by
  constructor
  · intro h
    induction items generalizing texts with
    | nil =>
        cases h
        rfl
    | cons item rest ih =>
        rw [toDocuments, List.mapM_cons] at h
        obtain ⟨text, htext, h⟩ := Effect.bind_eq_ok.mp h
        obtain ⟨more, hmore, h⟩ := Effect.bind_eq_ok.mp h
        cases h
        cases item with
        | str text' =>
            obtain rfl := Except.ok.inj htext
            rw [List.map_cons, ← ih hmore]
        | _ => cases htext
  · rintro rfl
    induction texts with
    | nil => rfl
    | cons text rest ih =>
        rw [List.map_cons, toDocuments, List.mapM_cons]
        exact Effect.bind_eq_ok.mpr ⟨text, rfl, Effect.bind_eq_ok.mpr ⟨rest, ih, rfl⟩⟩

theorem made_texts {a : List String}
    (h : Made ((decodeList decodeString).take .value) [] (value?.map toDocument) a) :
    value? = some (Json.ofStrings a) ∨ value? = none ∧ a = [] := by
  cases value? with
  | none => exact .inr ⟨rfl, h⟩
  | some value =>
      cases value with
      | arr items => exact .inl (congrArg (some ∘ Json.arr) (mapM_decodeString.mp h))
      | _ => cases h

theorem made_value {a : Option Json} (hsorted : ∀ value, value? = some value →
      value.isSorted = true)
    (h : Made ((decodeOption decodeValue).take .value) none (value?.map toDocument) a) :
    a = value?.filter (!·.isNull) := by
  cases value? with
  | none => exact h
  | some value =>
      have hsame := toJson_toDocument_of_isSorted value (hsorted value rfl)
      cases value with
      | null => exact (Except.ok.inj h).symm
      | _ => exact (Except.ok.inj h).symm.trans (congrArg some hsame)

end

theorem get?_toEntries (name : String) (members : List (String × Json)) :
    Table.get? name (toEntries members) = (Table.get? name members).map toDocument := by
  rw [toEntries_eq_map, Table.get?_map toDocument]

/-- What is read of an object: each field from the member of its name, and the attributes from all
other members. -/
structure ReadFrom (members : Object) (c : Credential) : Prop where
  dn : c.dn = (Table.get? "dn" members).bind Json.str?
  id : c.id = (Table.get? "id" members).bind Json.str?
  username : c.username = (Table.get? "username" members).bind Json.str?
  group : c.group = (Table.get? "group" members).bind Json.str?
  properties : Table.get? "properties" members = some (Json.ofStrings c.properties) ∨
    Table.get? "properties" members = none ∧ c.properties = []
  extra : c.extra = (Table.get? "extra_credentials" members).filter (!·.isNull)
  attributes : c.attributes = members.filter fun member => (shape.field? member.1).isNone

theorem reads_fields :
    let whole := shape.decode {}
    Reads whole [⟨"dn", 0⟩] (decodeOption decodeString) (·.dn) none ∧
    Reads whole [⟨"id", 1⟩] (decodeOption decodeString) (·.id) none ∧
    Reads whole [⟨"username", 2⟩] (decodeOption decodeString) (·.username) none ∧
    Reads whole [⟨"group", 3⟩] (decodeOption decodeString) (·.group) none ∧
    Reads whole [⟨"properties", 4⟩] (decodeList decodeString) (·.properties) [] ∧
    Reads whole [⟨"extra_credentials", 5⟩] (decodeOption decodeValue) (·.extra) none := by
  have hnames : (shape.fields.map (·.name)).Nodup := nodup_fieldNames
  refine ⟨?_, ?_, ?_, ?_, ?_, ?_⟩
  all_goals
    refine RecordShape.HasField.reads ⟨rfl, hnames, fun _ _ _ => rfl, fun _ _ => rfl, ?_⟩ {}
    simp [shape, Slot.keeps_of]

/-- The part of an object for a field is the document of the member. -/
theorem at?_toDocument (members : Object) (key : Key) :
    (toDocument (.obj members)).at? [key] = (Table.get? key.name members).map toDocument := by
  rw [← get?_toEntries]
  exact Option.bind_fun_some _

/-- The attributes are what no field has been found for. -/
theorem attributes_of_ofJson {members : Object} {c : Credential}
    (hsorted : (Json.obj members).isSorted = true) (h : ofJson (.obj members) = .ok c) :
    c.attributes = members.filter fun member => (shape.field? member.1).isNone := by
  obtain ⟨hordered, hvalues⟩ := isSorted_obj_iff.mp hsorted
  have htake : shape.takeMembers .value [] {} (toEntries members) = .ok c := h
  have hkept := RecordShape.kept_of_takeMembers Credential.attributes rfl
    (fun _ _ _ => rfl) (by simp [shape, Slot.keeps_of]) htake
  have hsame : ((toEntries members).filter fun member => (shape.field? member.1).isNone).map
      (fun member => (member.1, member.2.toJson)) =
        members.filter fun member => (shape.field? member.1).isNone := by
    rw [toEntries_eq_map, List.filter_map, List.map_map]
    refine (List.map_congr_left fun member hmember => ?_).trans (List.map_id _)
    have hvalue := hvalues member (List.mem_filter.mp hmember).1
    exact congrArg (Prod.mk member.1) (toJson_toDocument_of_isSorted member.2 hvalue)
  rw [hkept, hsame]
  exact Table.Ordered.ofList_eq (List.Pairwise.filter _ hordered)

theorem readFrom_of_ofJson {members : Object} {c : Credential}
    (hsorted : (Json.obj members).isSorted = true) (h : ofJson (.obj members) = .ok c) :
    ReadFrom members c := by
  obtain ⟨hordered, hvalues⟩ := isSorted_obj_iff.mp hsorted
  obtain ⟨hdn, hid, husername, hgroup, hproperties, hextra⟩ := reads_fields
  have hmade {α : Type} {key : Key} {d : Decoder α} {get : Credential → α} {fallback : α}
      (hreads : Reads (shape.decode {}) [key] d get fallback) :
      Made (d.take .value) fallback ((Table.get? key.name members).map toDocument) (get c) := by
    rw [← at?_toDocument]
    exact hreads _ _ _ h
  exact {
    dn := made_text (hmade hdn)
    id := made_text (hmade hid)
    username := made_text (hmade husername)
    group := made_text (hmade hgroup)
    properties := made_texts (hmade hproperties)
    extra := made_value (fun value hvalue => hvalues _ (hordered.mem_iff.mpr hvalue)) (hmade hextra)
    attributes := attributes_of_ofJson hsorted h }

/-- What has been read can be written. -/
theorem ReadFrom.isWritable {members : Object} {c : Credential} (h : ReadFrom members c)
    (hsorted : (Json.obj members).isSorted = true) : c.IsWritable := by
  obtain ⟨hordered, hvalues⟩ := isSorted_obj_iff.mp hsorted
  refine ⟨isSorted_obj_iff.mpr ⟨?_, ?_⟩, ?_, ?_⟩
  · rw [h.attributes]
    exact List.Pairwise.filter _ hordered
  · rw [h.attributes]
    exact fun member hmember => hvalues member (List.mem_filter.mp hmember).1
  · rw [h.attributes]
    intro member hmember
    have hunknown := (List.mem_filter.mp hmember).2
    exact RecordShape.field?_eq_none_iff.mp (Option.isNone_iff_eq_none.mp hunknown)
  · rw [h.extra]
    intro value hvalue
    obtain ⟨hfound, hnull⟩ := Option.filter_eq_some_iff.mp hvalue
    refine ⟨hvalues _ (hordered.mem_iff.mpr hfound), ?_⟩
    rintro rfl
    cases hnull

/-! ## There and back -/

section

variable {c : Credential} (h : c.IsWritable)
include h

theorem IsWritable.isSorted_written : (Json.obj c.written).isSorted = true := by
  refine isSorted_obj_iff.mpr ⟨Table.ordered_ofList _, ?_⟩
  rintro ⟨name, value⟩ hmember
  obtain hnamed | hfree := List.mem_append.mp (Table.mem_of_mem_ofList hmember)
  · have htexts : (Json.ofStrings c.properties).isSorted = true := by
      rw [Json.ofStrings, isSorted_arr_iff, List.forall_mem_map]
      exact fun _ _ => rfl
    have hpart := mem_named.mp hnamed
    simp only [parts, List.mem_cons, List.not_mem_nil, or_false, Prod.mk.injEq] at hpart
    rcases hpart with ⟨-, hv⟩ | ⟨-, hv⟩ | ⟨-, hv⟩ | ⟨-, hv⟩ | ⟨-, hv⟩ | ⟨-, hv⟩
    case inr.inr.inr.inr.inl =>
      split at hv
      · cases hv
      · rw [Option.some.inj hv]
        exact htexts
    case inr.inr.inr.inr.inr => exact (h.extra value hv.symm).1
    all_goals
      obtain ⟨text, -, rfl⟩ := Option.map_eq_some_iff.mp hv.symm
      rfl
  · exact (isSorted_obj_iff.mp h.attributes).2 _ hfree

/-- The members that are written are taken. -/
theorem IsWritable.takes_written :
    ∀ member ∈ toEntries c.written, shape.Takes .value member := by
  rw [toEntries_eq_map]
  intro entry hentry
  obtain ⟨⟨name, value⟩, hmember, rfl⟩ := List.mem_map.mp hentry
  obtain hnamed | hfree := List.mem_append.mp (Table.mem_of_mem_ofList hmember)
  · have hpart := mem_named.mp hnamed
    simp only [parts, List.mem_cons, List.not_mem_nil, or_false, Prod.mk.injEq] at hpart
    rcases hpart with ⟨rfl, hv⟩ | ⟨rfl, hv⟩ | ⟨rfl, hv⟩ | ⟨rfl, hv⟩ | ⟨rfl, hv⟩ | ⟨rfl, hv⟩
    case inr.inr.inr.inr.inl =>
      split at hv
      · cases hv
      · obtain rfl := Option.some.inj hv
        have htake : (decodeList decodeString).take .value (toDocument (Json.ofStrings c.properties))
            = .ok c.properties := mapM_decodeString.mpr rfl
        exact fun s => ⟨_, congrArg (Except.map _) htake⟩
    case inr.inr.inr.inr.inr =>
      intro s
      cases value <;> exact ⟨_, rfl⟩
    all_goals
      obtain ⟨text, -, rfl⟩ := Option.map_eq_some_iff.mp hv.symm
      exact fun s => ⟨_, rfl⟩
  · have hunknown : shape.field? name = none :=
      RecordShape.field?_eq_none_iff.mpr (h.free _ hfree)
    simp only [RecordShape.Takes, hunknown]
    intro hrefused
    cases hrefused

theorem IsWritable.ofJson_toJson : ofJson c.toJson = .ok c := by
  have hentries : (toEntries c.written).map Prod.fst = c.written.map Prod.fst := by
    rw [toEntries_eq_map, List.map_map]
    rfl
  obtain ⟨s, htake⟩ := RecordShape.takeMembers_succeeds shape
    (hentries ▸ (Table.ordered_ofList _).nodup_names) (fun _ _ => List.not_mem_nil) h.takes_written
    (fun field hfield hrequired => by
      simp only [shape, List.mem_cons, List.not_mem_nil, or_false] at hfield
      rcases hfield with rfl | rfl | rfl | rfl | rfl | rfl <;> cases hrequired) {}
  have hjson : ofJson c.toJson = .ok s := by
    rw [toJson_eq]
    exact htake
  have hread : ReadFrom c.written s := readFrom_of_ofJson h.isSorted_written htake
  have hpart : ∀ part ∈ c.parts, Table.get? part.1 c.written = part.2 :=
    fun part hpart => h.get?_written hpart
  simp only [parts, List.forall_mem_cons] at hpart
  obtain ⟨hdn, hid, husername, hgroup, hproperties, hextra, -⟩ := hpart
  have htext : ∀ text? : Option String, (text?.map Json.str).bind Json.str? = text? := by
    rintro (_ | text) <;> rfl
  have hsame : s.properties = c.properties := by
    have hread := hread.properties
    rw [hproperties] at hread
    obtain hread | ⟨hread, hnil⟩ := hread
    · split at hread
      · cases hread
      · obtain hsame := Json.arr.inj (Option.some.inj hread)
        exact (List.map_injective_iff.mpr (fun _ _ => Json.str.inj) hsame).symm
    · split at hread
      · next hempty => rw [hnil, List.isEmpty_iff.mp hempty]
      · cases hread
  have hkept : c.extra.filter (!·.isNull) = c.extra := by
    cases hvalue : c.extra with
    | none => rfl
    | some value =>
        have hnull := (h.extra value hvalue).2
        cases value with
        | null => exact absurd rfl hnull
        | _ => rfl
  rw [hjson, Except.ok.injEq]
  have hfields : s.dn = c.dn ∧ s.id = c.id ∧ s.username = c.username ∧ s.group = c.group ∧
      s.properties = c.properties ∧ s.extra = c.extra ∧ s.attributes = c.attributes := by
    refine ⟨?_, ?_, ?_, ?_, hsame, ?_, hread.attributes.trans h.filter_written⟩
    · rw [hread.dn, hdn, htext]
    · rw [hread.id, hid, htext]
    · rw [hread.username, husername, htext]
    · rw [hread.group, hgroup, htext]
    · rw [hread.extra, hextra, hkept]
  cases s
  cases c
  simpa only [Credential.mk.injEq] using hfields

end

/-- An object that is written is empty exactly if nothing is known. -/
theorem toJson_eq_empty_iff (c : Credential) : c.toJson = .obj [] ↔ c.isEmpty = true := by
  have hempty : Table.ofList (c.named ++ c.attributes) = [] ↔ c.named ++ c.attributes = [] := by
    constructor
    · intro h
      refine List.eq_nil_iff_forall_not_mem.mpr fun member hmember => ?_
      have hname := Table.mem_names_ofList.mpr (List.mem_map_of_mem (f := Prod.fst) hmember)
      rw [h] at hname
      cases hname
    · intro h
      rw [h]
      rfl
  rw [toJson_eq, Json.obj.injEq, hempty, List.append_eq_nil_iff, named,
    List.filterMap_eq_nil_iff]
  simp [parts, isEmpty, and_assoc]

/-- A record that can be written comes back as it was, and the object that is written of a record is
empty exactly if the record is.  What has been read of any object comes back as well: of it the
attributes are the members that have the name of no field, and a text or a value that is null is as
one that is not there. -/
theorem written_records_return :
    (∀ c : Credential, c.IsWritable → ofJson c.toJson = .ok c) ∧
    (∀ c : Credential, c.toJson = .obj [] ↔ c.isEmpty = true) ∧
    ∀ (members : Object) (c : Credential), (Json.obj members).isSorted = true →
      ofJson (.obj members) = .ok c →
        ofJson c.toJson = .ok c ∧
        c.attributes = members.filter (fun member => member.1 ∉ fieldNames) ∧
        c.dn = (Table.get? "dn" members).bind Json.str? ∧
        c.id = (Table.get? "id" members).bind Json.str? ∧
        c.username = (Table.get? "username" members).bind Json.str? ∧
        c.group = (Table.get? "group" members).bind Json.str? ∧
        (Table.get? "properties" members).getD (.arr []) = Json.ofStrings c.properties ∧
        c.extra = (Table.get? "extra_credentials" members).filter (!·.isNull) := by
  refine ⟨fun c h => h.ofJson_toJson, toJson_eq_empty_iff, fun members c hsorted h => ?_⟩
  have hread := readFrom_of_ofJson hsorted h
  refine ⟨(hread.isWritable hsorted).ofJson_toJson, ?_, hread.dn, hread.id, hread.username,
    hread.group, ?_, hread.extra⟩
  · rw [hread.attributes]
    refine List.filter_congr fun member _ => ?_
    rw [Bool.eq_iff_iff, Option.isNone_iff_eq_none, RecordShape.field?_eq_none_iff]
    exact (decide_eq_true_iff).symm
  · obtain hsome | ⟨hnone, hnil⟩ := hread.properties
    · rw [hsome, Option.getD_some]
    · rw [hnone, hnil]
      rfl

/-- A record of a user with an attribute comes back, and so does what is read of an object in which
the user is null. -/
theorem user_and_shift_return :
    let c : Credential := { username := some "jdoe", attributes := [("shift", .str "night")] }
    let members : Object := [("shift", .str "night"), ("username", .null)]
    c.IsWritable ∧ c.toJson ≠ .obj [] ∧ ofJson c.toJson = .ok c ∧
      (Json.obj members).isSorted = true ∧
      ∃ read, ofJson (.obj members) = .ok read ∧ read.username = none ∧
        ofJson read.toJson = .ok read := by
  intro c members
  have hwritable : c.IsWritable := by
    refine ⟨rfl, ?_, nofun⟩
    simp [c, fieldNames]
  have hsorted : (Json.obj members).isSorted = true := by decide
  obtain ⟨hreturns, hempty, hread⟩ := written_records_return
  obtain ⟨hagain, -, -, -, husername, -⟩ := hread members _ hsorted rfl
  refine ⟨hwritable, ?_, hreturns c hwritable, hsorted, _, rfl, husername, hagain⟩
  rw [ne_eq, hempty]
  decide

end Gatehouse.Credential
