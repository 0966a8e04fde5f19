import Gatehouse.Arguments
import Gatehouse.Proofs.Http.Form
import Gatehouse.Proofs.Response.Codec
import Gatehouse.Proofs.Table

/-!
# What a request is parsed to

Pairs in the query and pairs or members in the body make one table: it holds the last value of each
name that occurs, the body counting as later than the query.  Forms lose nothing on the way, so this
holds of any texts.
-/

namespace Gatehouse

namespace Request

variable {path target : String}

theorem ofTarget_path (method : String) (h : '?' ∉ path.toList) :
    ofTarget method path = { method, path } := by
  rw [ofTarget, Text.cut?_of_not_mem h]

theorem ofTarget_query (method : String) (h : '?' ∉ path.toList) (query : String) :
    ofTarget method (path ++ "?" ++ query) = { method, path, query := some query } := by
  have hcut : Text.cut? '?' (path ++ "?" ++ query).toList = some (path.toList, query.toList) := by
    rw [String.toList_append, String.toList_append, List.append_assoc]
    exact Text.cut?_append h query.toList
  rw [ofTarget, hcut]
  simp only [String.ofList_toList]

/-- The target asks for the path with the pairs as its query; the query may be left out if there are
none. -/
inductive Asks (path : String) : List (String × String) → String → Prop where
  | query (pairs : List (String × String)) : Asks path pairs (path ++ "?" ++ Http.formText pairs)
  | plain : Asks path [] path

/-- The request is for the path and the query of the target. -/
def IsFor (request : Request) (target : String) : Prop :=
  ∃ method, request.path = (ofTarget method target).path ∧
    request.query = (ofTarget method target).query

/-- The request is for the target and its body is a text of the object. -/
structure PostsObject (request : Request) (target : String) (members : Json.Object) : Prop where
  isFor : request.IsFor target
  type : ∃ type, request.contentType? = some type ∧
    Text.sameIgnoringCase type Response.structuredType = true
  body : Response.Codec.json.decode request.body = .ok (.obj members)

def object (target : String) (members : Json.Object) : Request :=
  { ofTarget "POST" target with
    headers := Http.Headers.empty.offer "content-type"
      (Text.Utf8.encode Response.structuredType)
    body := (Json.obj members).renderBytes }

theorem contentType?_form (target : String) (fields : List (String × String)) :
    (form target fields).contentType? = some formType := by
  change contentType? ⟨"", "", none, .offer "content-type" (Text.Utf8.encode formType) .empty, [],
    none, none⟩ = _
  rfl

theorem contentType?_object (target : String) (members : Json.Object) :
    (object target members).contentType? = some Response.structuredType := by
  change contentType? ⟨"", "", none,
    .offer "content-type" (Text.Utf8.encode Response.structuredType) .empty, [], none, none⟩ = _
  rfl

theorem postsObject_object (target : String) {members : Json.Object}
    (hexact : (Json.obj members).isExact = true)
    (hnesting : (Json.obj members).nesting ≤ Json.maxDepth) :
    PostsObject (object target members) target members where
  isFor := ⟨"POST", rfl, rfl⟩
  type := ⟨_, contentType?_object target members, rfl⟩
  body := Response.Codec.decode_renderBytes hexact hnesting

end Request

namespace Arguments

open Request

def asTexts (pairs : List (String × String)) : List (String × Json) :=
  pairs.map fun pair => (pair.1, .str pair.2)

theorem addPairs_eq (values : Json.Object) (pairs : List (String × String)) :
    addPairs values pairs = Table.extend values (asTexts pairs) := by
  induction pairs generalizing values with
  | nil => rfl
  | cons pair rest ih => exact ih _

variable {path target : String} {request : Request} {asked : List (String × String)}

/-- The query gives the first arguments. -/
theorem parse_of_asks (h : Asks path asked target) (hpath : '?' ∉ path.toList)
    (hfor : request.IsFor target) :
    parse request = (addBody request (Table.ofList (asTexts asked))).map (Arguments.mk path) := by
  obtain ⟨method, hsame, hquery⟩ := hfor
  rw [parse, hsame, hquery]
  cases h with
  | query pairs =>
      rw [ofTarget_query _ hpath]
      dsimp only
      rw [Http.encode_formText, Http.formDecode_formEncode, addPairs_eq]
      rfl
  | plain =>
      rw [ofTarget_path _ hpath]
      rfl

theorem addBody_form (target : String) (fields : List (String × String)) (values : Json.Object) :
    addBody (form target fields) values = .ok (Table.extend values (asTexts fields)) := by
  have hsame : Text.sameIgnoringCase formType formType = true := rfl
  have hbody : (form target fields).body = Http.formEncode fields := rfl
  rw [addBody, contentType?_form, hbody]
  split
  · next hempty =>
      rw [Http.formEncode_eq_nil_iff.mp (List.isEmpty_iff.mp hempty)]
      rfl
  · dsimp only
    rw [if_pos hsame, Http.formDecode_formEncode, addPairs_eq]

theorem addBody_object {members : Json.Object} (h : PostsObject request target members)
    (values : Json.Object) :
    addBody request values = .ok (Table.extend values members) := by
  obtain ⟨type, htype, hstructured⟩ := h.type
  have hform : Text.sameIgnoringCase type formType = false := by
    rw [Text.sameIgnoringCase, eq_of_beq hstructured]
    rfl
  have hfilled : request.body.isEmpty = false := by
    apply List.isEmpty_eq_false_iff.mpr
    intro hempty
    have hbody := h.body
    rw [hempty] at hbody
    cases hbody
  rw [addBody, htype, hfilled]
  dsimp only
  rw [hform, hstructured, h.body]
  rfl

theorem parse_form (h : Asks path asked target) (hpath : '?' ∉ path.toList)
    (fields : List (String × String)) :
    parse (form target fields) = .ok ⟨path, Table.ofList (asTexts (asked ++ fields))⟩ := by
  have hfor : (form target fields).IsFor target := ⟨"POST", rfl, rfl⟩
  rw [parse_of_asks h hpath hfor, addBody_form, Table.extend_ofList, asTexts, asTexts, asTexts,
    List.map_append]
  rfl

theorem parse_object {members : Json.Object} (h : Asks path asked target)
    (hpath : '?' ∉ path.toList) (hposts : PostsObject request target members) :
    parse request = .ok ⟨path, Table.ofList (asTexts asked ++ members)⟩ := by
  rw [parse_of_asks h hpath hposts.isFor, addBody_object hposts, Table.extend_ofList]
  rfl

/-- The arguments are the names that occur in the pairs, each once and with the value of its last
pair. -/
structure HoldsLast (a : Arguments) (pairs : List (String × Json)) : Prop where
  ordered : Table.Ordered a.values
  names : ∀ name, name ∈ a.values.names ↔ name ∈ pairs.map Prod.fst
  get? : ∀ name value, a.get? name = some value ↔ Table.LastBound pairs name value

theorem holdsLast_ofList (path : String) (pairs : List (String × Json)) :
    HoldsLast ⟨path, Table.ofList pairs⟩ pairs where
  ordered := Table.ordered_ofList pairs
  names _ := Table.mem_names_ofList
  get? _ _ := Table.get?_ofList_eq_some_iff

/-- Of every name that occurs in the query or in the body the arguments hold the last value, as a
text if it comes from a form, and nothing else. -/
theorem last_values_are_held (path target : String) (hpath : '?' ∉ path.toList)
    (asked : List (String × String)) (htarget : Asks path asked target) :
    (∀ fields : List (String × String), ∃ a, parse (form target fields) = .ok a ∧ a.path = path ∧
      HoldsLast a (asTexts (asked ++ fields))) ∧
    ∀ (request : Request) (members : Json.Object), PostsObject request target members →
      ∃ a, parse request = .ok a ∧ a.path = path ∧ HoldsLast a (asTexts asked ++ members) := by
  constructor
  · intro fields
    exact ⟨_, parse_form htarget hpath fields, rfl, holdsLast_ofList path _⟩
  · intro request members hposts
    exact ⟨_, parse_object htarget hpath hposts, rfl, holdsLast_ofList path _⟩

/-- A name asked for twice and an empty one, with a form and with an object as the body. -/
theorem last_values_of_run_are_held :
    let asked := [("k", "ü&="), ("", ""), ("k", "1")]
    let target := "/run" ++ "?" ++ Http.formText asked
    '?' ∉ "/run".toList ∧ Asks "/run" asked target ∧
      PostsObject (object target [("k", .int 2)]) target [("k", .int 2)] ∧
      (∃ a, parse (form target [("k", "+")]) = .ok a ∧ a.path = "/run" ∧
        HoldsLast a (asTexts (asked ++ [("k", "+")]))) ∧
      ∃ a, parse (object target [("k", .int 2)]) = .ok a ∧ a.path = "/run" ∧
        HoldsLast a (asTexts asked ++ [("k", .int 2)]) := by
  intro asked target
  have hpath : '?' ∉ "/run".toList := by decide
  have hposts : PostsObject (object target [("k", .int 2)]) target [("k", .int 2)] :=
    postsObject_object target (rfl) (by decide)
  obtain ⟨hform, hobject⟩ := last_values_are_held "/run" target hpath asked (.query asked)
  exact ⟨hpath, .query asked, hposts, hform _, hobject _ _ hposts⟩

end Arguments

end Gatehouse
