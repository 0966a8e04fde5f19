import Gatehouse.Proofs.Json.Records
import Gatehouse.Proofs.Token.Verification

/-!
# Registered claims and the payload

The payload of a token is read twice, as a value and for its registered claims, and the second
reading is lenient.  Where both readings succeed, the registered claims are those of the value: what
a token is checked for is what its payload says.
-/

namespace Gatehouse.Token

open Json (Decoder Document Faithful Misfit Reader RecordShape Slot)
open Effect (bind_eq_ok mapError_eq_ok)

/-! ## The claims of a payload -/

def secondsOf (value : Json) : Option Nat := seconds? value.toDocument

def namesOf : Json → Option (List String)
  | .str s => some [s]
  | .arr items => items.mapM Json.str?
  | _ => none

/-- The registered claims of a payload, as far as they have the expected type.  A list holds them in
their order. -/
def Claims.ofPayload : Json → Claims
  | .arr [exp, nbf, sub, iss, aud] => {
      expires := secondsOf exp
      notBefore := secondsOf nbf
      subject := sub.str?
      issuers := namesOf iss
      audiences := namesOf aud }
  | payload => {
      expires := (payload.field? "exp").bind secondsOf
      notBefore := (payload.field? "nbf").bind secondsOf
      subject := (payload.field? "sub").bind Json.str?
      issuers := (payload.field? "iss").bind namesOf
      audiences := (payload.field? "aud").bind namesOf }

/-! ## Decoders of claims -/

/-- A number of seconds is as much in a value as it is in the document of the value. -/
theorem secondsOf_toJson (d : Document) : secondsOf d.toJson = seconds? d := by
  cases d with
  | float x => cases x <;> rfl
  | _ => rfl

/-- A number of seconds, or something else without parts. -/
def strictSeconds : Decoder (Option Nat) where
  take _ document :=
    match document with
    | .list _ | .table _ => .error .notChoice
    | _ => .ok (seconds? document)
  read := do
    match ← Reader.first with
    | 91 => .inList (.refuse .notChoice)
    | 123 => .inObject (.refuse .notChoice)
    | _ => return seconds? (← Reader.scalar)

theorem strictSeconds_of_isScalar {d : Document} (h : Reader.IsScalar d) :
    strictSeconds.take .value d = .ok (seconds? d) := by
  cases d with
  | list found => exact h.elim
  | table found => exact h.elim
  | _ => rfl

theorem strictSeconds_faithful : Faithful (strictSeconds.take .value) strictSeconds.read := by
  intro c d last hd
  change Json.Agrees last _ ((Reader.first >>= _) c)
  cases Reader.valueFollows_of_document hd with
  | list hhead hlist =>
      rw [Reader.bind_of_ok (Reader.first_eq_ok.mpr ⟨hhead, rfl⟩)]
      exact Json.agrees_inList_refuse hlist
  | object hhead hobject =>
      rw [Reader.bind_of_ok (Reader.first_eq_ok.mpr ⟨hhead, rfl⟩)]
      exact Json.agrees_inObject_refuse hobject
  | scalar hhead hlist hobject hscalar =>
      rw [Reader.bind_of_ok (Reader.first_eq_ok.mpr ⟨hhead, rfl⟩)]
      split
      · exact absurd rfl hlist
      · exact absurd rfl hobject
      · rw [Reader.bind_of_ok hscalar]
        obtain ⟨_, _, hbegins⟩ := Reader.scalarBegins hscalar
        exact .inl ⟨rfl, strictSeconds_of_isScalar hbegins.isScalar⟩

theorem decodeSeconds_faithful : Faithful (decodeSeconds.take .value) decodeSeconds.read := by
  have hsame : decodeSeconds.take .value = strictSeconds.tolerant.take .value := by
    funext d
    cases d <;> rfl
  rw [hsame]
  exact strictSeconds_faithful.tolerant

theorem decodeNames_faithful : Faithful (decodeNames.take .value) decodeNames.read :=
  (Faithful.ofDocument takeNames).decodeOption.tolerant

theorem decodeString_faithful :
    Faithful (Json.decodeString.take .value) Json.decodeString.read :=
  .ofScalar rfl rfl

/-- Every registered claim is taken of the payload as it is read off the text. -/
theorem claimsShape_faithful : ∀ field ∈ claimsShape.fields, field.Faithful := by
  intro field hfield
  simp only [claimsShape, List.mem_cons, List.not_mem_nil, or_false] at hfield
  rcases hfield with rfl | rfl | rfl | rfl | rfl
  · exact Slot.faithful_of decodeSeconds_faithful _ _
  · exact Slot.faithful_of decodeSeconds_faithful _ _
  · exact (Slot.faithful_of decodeString_faithful.decodeOption.tolerant _ _).optional
  · exact (Slot.faithful_of decodeNames_faithful _ _).optional
  · exact (Slot.faithful_of decodeNames_faithful _ _).optional

/-! ## What the claims are -/

theorem takeSeconds_eq (d : Document) :
    decodeSeconds.take .value d = .ok (secondsOf d.toJson) := by
  rw [secondsOf_toJson]
  rfl

theorem takeString_eq (d : Document) :
    (Json.decodeString.take .value d).toOption = d.toJson.str? := by
  cases d with
  | float x => cases x <;> rfl
  | _ => rfl

theorem takeTexts_eq (items : List Document) :
    (items.mapM (Json.decodeString.take .value)).toOption =
      (Document.toValues items).mapM Json.str? := by
  induction items with
  | nil => rfl
  | cons item rest ih =>
      rw [List.mapM_cons, Document.toValues, List.mapM_cons, ← takeString_eq, ← ih]
      cases Json.decodeString.take .value item with
      | error misfit => rfl
      | ok s =>
          cases rest.mapM (Json.decodeString.take .value) with
          | error misfit => rfl
          | ok texts => rfl

theorem takeNames_eq (d : Document) : decodeNames.take .value d = .ok (namesOf d.toJson) := by
  cases d with
  | list items =>
      have htake : takeNames (.list items) = items.mapM (Json.decodeString.take .value) := rfl
      rw [Document.toJson, namesOf, ← takeTexts_eq]
      simp only [decodeNames, Decoder.tolerant, Json.decodeOption, Decoder.ofDocument, htake]
      cases items.mapM (Json.decodeString.take .value) with
      | error misfit => rfl
      | ok texts => rfl
  | float x => cases x <;> rfl
  | _ => rfl

theorem takeSubject_eq (d : Document) :
    (Json.decodeOption Json.decodeString).tolerant.take .value d = .ok d.toJson.str? := by
  cases d with
  | float x => cases x <;> rfl
  | _ => rfl

/-! ## The members of a payload -/

/-- A member that is no registered claim makes no difference to the claims. -/
theorem ofPayload_insert_of_ne {name : String} (h : ∀ field ∈ claimsShape.fields, field.name ≠ name)
    (value : Json) (bound : Json.Object) :
    Claims.ofPayload (.obj (Table.insert name value bound)) = Claims.ofPayload (.obj bound) := by
  simp only [claimsShape, List.mem_cons, List.not_mem_nil, or_false, forall_eq_or_imp, forall_eq,
    Slot.of, Slot.optional] at h
  obtain ⟨hexp, hnbf, hsub, hiss, haud⟩ := h
  simp only [Claims.ofPayload, Json.field?, Table.get?_insert_of_ne hexp,
    Table.get?_insert_of_ne hnbf, Table.get?_insert_of_ne hsub, Table.get?_insert_of_ne hiss,
    Table.get?_insert_of_ne haud]

/-- A member that is a registered claim is that claim from then on. -/
theorem take_ofPayload {field : Slot Claims} (h : field ∈ claimsShape.fields) (d : Document)
    (bound : Json.Object) :
    field.take .value (Claims.ofPayload (.obj bound)) d =
      .ok (Claims.ofPayload (.obj (Table.insert field.name d.toJson bound))) := by
  simp only [claimsShape, List.mem_cons, List.not_mem_nil, or_false] at h
  rcases h with rfl | rfl | rfl | rfl | rfl
  all_goals
    simp [Slot.of, Slot.optional, takeSeconds_eq, takeSubject_eq, takeNames_eq, Except.map,
      Claims.ofPayload, Json.field?, Table.get?_insert_self, Table.get?_insert_of_ne]

theorem takeMembers_ofPayload {claims : Claims} (members : List (String × Document))
    {bound : Json.Object} {seen : List String}
    (h : claimsShape.takeMembers .value seen (Claims.ofPayload (.obj bound)) members = .ok claims) :
    claims = Claims.ofPayload (.obj (Document.toObject bound members)) := by
  induction members generalizing bound seen with
  | nil =>
      obtain ⟨⟨⟩, -, ⟨rfl⟩⟩ := bind_eq_ok.mp h
      rfl
  | cons member rest ih =>
      obtain ⟨name, d⟩ := member
      rw [RecordShape.takeMembers] at h
      rw [Document.toObject]
      cases hfield : claimsShape.field? name with
      | some field =>
          simp only [hfield] at h
          have hname : field.name = name := by simpa using List.find?_some hfield
          split at h
          · cases h
          · obtain ⟨claims', htake, h⟩ := bind_eq_ok.mp h
            rw [take_ofPayload (List.mem_of_find?_eq_some hfield), hname] at htake
            cases htake
            exact ih h
      | none =>
          simp only [hfield] at h
          have hnames : ∀ field ∈ claimsShape.fields, field.name ≠ name := by
            intro field hmem
            simpa using List.find?_eq_none.mp hfield field hmem
          rw [← ofPayload_insert_of_ne hnames d.toJson] at h
          exact ih h

/-! ## The whole payload -/

theorem takeItems_nil {s claims : Claims} {position : Nat} {items : List Document}
    (h : claimsShape.takeItems .value position s [] items = .ok claims) :
    items = [] ∧ claims = s := by
  cases items with
  | nil =>
      cases h
      exact ⟨rfl, rfl⟩
  | cons item rest => cases h

/-- A list may not end before a field that it has to hold. -/
theorem takeItems_ended {s claims : Claims} {position : Nat} {fields : List (Slot Claims)}
    (h : claimsShape.takeItems .value position s fields [] = .ok claims) :
    ∀ field ∈ fields, field.omissible = true := by
  induction fields generalizing position with
  | nil => exact fun _ hmem => nomatch hmem
  | cons field fields ih =>
      rw [RecordShape.takeItems] at h
      by_cases homissible : field.omissible = true
      · rw [if_pos homissible] at h
        exact List.forall_mem_cons.mpr ⟨homissible, ih h⟩
      · rw [if_neg homissible] at h
        cases h

/-- In front of a field that a list has to hold stands an item for every field. -/
theorem takeItems_cons {s claims : Claims} {position : Nat} {field : Slot Claims}
    {fields : List (Slot Claims)} {items : List Document}
    (hneeded : ∃ needed ∈ field :: fields, needed.omissible = false)
    (h : claimsShape.takeItems .value position s (field :: fields) items = .ok claims) :
    ∃ item rest s', items = item :: rest ∧ field.take .value s item = .ok s' ∧
      claimsShape.takeItems .value (position + 1) s' fields rest = .ok claims := by
  cases items with
  | nil =>
      obtain ⟨needed, hmem, hneeded⟩ := hneeded
      exact absurd (takeItems_ended h needed hmem) (by simp [hneeded])
  | cons item rest =>
      obtain ⟨s', htake, h⟩ := bind_eq_ok.mp h
      exact ⟨item, rest, s', rfl, htake, h⟩

/-- A list that holds the registered claims holds all of them and nothing else. -/
theorem takeItems_ofPayload {items : List Document} {claims : Claims}
    (h : claimsShape.takeItems .value 0 {} claimsShape.fields items = .ok claims) :
    claims = Claims.ofPayload (.arr (Document.toValues items)) := by
  obtain ⟨exp, rest, _, rfl, hexp, h⟩ := takeItems_cons (by simp [Slot.optional]) h
  obtain ⟨nbf, rest, _, rfl, hnbf, h⟩ := takeItems_cons (by simp [Slot.optional]) h
  obtain ⟨sub, rest, _, rfl, hsub, h⟩ := takeItems_cons (by simp [Slot.optional]) h
  obtain ⟨iss, rest, _, rfl, hiss, h⟩ := takeItems_cons (by simp [Slot.optional]) h
  obtain ⟨aud, rest, _, rfl, haud, h⟩ := takeItems_cons (by simp [Slot.optional]) h
  obtain ⟨rfl, rfl⟩ := takeItems_nil h
  simp only [Slot.of, Slot.optional, takeSeconds_eq, takeSubject_eq, takeNames_eq, Except.map,
    Except.ok.injEq] at hexp hnbf hsub hiss haud
  subst hexp hnbf hsub hiss haud
  rfl

/-- Two readings of one payload agree. -/
theorem claims_eq_ofPayload {parts : Parts} {payload : Json} {claims : Claims}
    (h : parts.claims = .ok (payload, claims)) : claims = Claims.ofPayload payload := by
  obtain ⟨bytes, -, h⟩ := bind_eq_ok.mp h
  obtain ⟨value, hvalue, h⟩ := bind_eq_ok.mp h
  obtain ⟨read, hclaims, ⟨rfl, rfl⟩⟩ := bind_eq_ok.mp h
  obtain ⟨last, hvalue, -⟩ := Reader.run_eq_ok.mp (mapError_eq_ok.mp hvalue)
  obtain ⟨last', hclaims, -⟩ := Reader.run_eq_ok.mp (mapError_eq_ok.mp hclaims)
  obtain ⟨d, behind, hd, hvalue⟩ := Reader.bind_eq_ok.mp hvalue
  obtain ⟨rfl, -⟩ := EStateM.Result.ok.inj hvalue
  obtain ⟨-, htake⟩ := RecordShape.decode_faithful claimsShape_faithful hd hclaims
  cases Reader.valueFollows_of_document hd with
  | list _ _ =>
      rw [Document.toJson]
      exact takeItems_ofPayload htake
  | object _ _ =>
      rw [Document.toJson]
      exact takeMembers_ofPayload _ htake
  | scalar _ _ _ hscalar =>
      obtain ⟨_, _, hbegins⟩ := Reader.scalarBegins hscalar
      cases d with
      | list _ => exact hbegins.isScalar.elim
      | table _ => exact hbegins.isScalar.elim
      | inlineTable _ => exact hbegins.isScalar.elim
      | moment _ => exact hbegins.isScalar.elim
      | _ => cases htake

theorem text_of_field {payload : Json} {name text : String} :
    (payload.field? name).bind Json.str? = some text ↔ payload.field? name = some (.str text) := by
  cases payload.field? name with
  | none => simp
  | some value => cases value <;> simp [Json.str?]

/-- A payload that names a member is an object, and its claims are its members. -/
theorem ofPayload_of_field {payload value : Json} {name : String}
    (h : payload.field? name = some value) :
    (Claims.ofPayload payload).expires = (payload.field? "exp").bind secondsOf ∧
      (Claims.ofPayload payload).issuers = (payload.field? "iss").bind namesOf := by
  cases payload with
  | obj members => exact ⟨rfl, rfl⟩
  | _ => cases h

end Gatehouse.Token
