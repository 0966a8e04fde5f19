import Gatehouse.Json.Record
import Gatehouse.Proofs.Effect
import Mathlib.Data.List.Nodup

/-!
# Parts of documents

What a record gets of a document can be told field by field: a field that the document has a part
for is made of that part, and a field that it has none for stays as it was.  Records within records
are told by the path to the part.
-/

namespace Gatehouse.Json

variable {α β σ : Type}

/-! ## Paths -/

/-- Where a field is looked for: in a table under its name, in a list at its position. -/
structure Key where
  name : String
  position : Nat
  deriving DecidableEq, Repr

namespace Document

def part? (d : Document) (key : Key) : Option Document :=
  match d.members?, d with
  | some members, _ => Table.get? key.name members
  | none, .list items => items[key.position]?
  | none, _ => none

def at? (d : Document) : List Key → Option Document
  | [] => some d
  | key :: path => (d.part? key).bind fun part => part.at? path

theorem at?_append (d : Document) (path path' : List Key) :
    d.at? (path ++ path') = (d.at? path).bind fun part => part.at? path' := by
  induction path generalizing d with
  | nil => rfl
  | cons key path ih =>
      rw [List.cons_append, at?, at?]
      cases d.part? key with
      | none => rfl
      | some part => exact ih part

end Document

/-! ## Fields -/

/-- The value is made of the part, or is the fallback where there is no part. -/
def Made (take : Document → Except Misfit α) (fallback : α) (part : Option Document) (a : α) :
    Prop :=
  match part with
  | some d => take d = .ok a
  | none => a = fallback

/-- A field that leaves alone what `get` looks at. -/
def Slot.Keeps (field : Slot σ) (get : σ → α) : Prop :=
  ∀ origin s d s', field.take origin s d = .ok s' → get s' = get s

/-- What is done with further members leaves alone what `get` looks at. -/
def Others.Keeps (others : Others σ) (get : σ → α) : Prop :=
  match others with
  | .refused | .passed => True
  | .kept put => ∀ s name value, get (put s name value) = get s

/-- The field as if it might always be left out. -/
def Slot.free (field : Slot σ) : Slot σ := { field with required := false, omissible := true }

@[simp]
theorem Slot.name_of (name : String) (d : Decoder α) (put : σ → α → σ) :
    (Slot.of name d put).name = name := rfl

@[simp]
theorem Slot.name_require (field : Slot σ) : field.require.name = field.name := rfl

@[simp]
theorem Slot.keeps_require {field : Slot σ} {get : σ → α} :
    field.require.Keeps get ↔ field.Keeps get := Iff.rfl

theorem Slot.take_of_eq_ok {name : String} {d : Decoder α} {put : σ → α → σ} {origin : Notation}
    {s s' : σ} {doc : Document} (h : (Slot.of name d put).take origin s doc = .ok s') :
    ∃ a, d.take origin doc = .ok a ∧ s' = put s a := by
  obtain ⟨a, htake, rfl⟩ := Effect.map_eq_ok.mp h
  exact ⟨a, htake, rfl⟩

theorem Slot.take_of_free_eq_ok {field : Slot σ} {name : String} {d : Decoder α} {put : σ → α → σ}
    (hfree : field.free = Slot.of name d put) {origin : Notation} {s s' : σ} {doc : Document}
    (h : field.take origin s doc = .ok s') : ∃ a, d.take origin doc = .ok a ∧ s' = put s a := by
  have htake : field.free.take = (Slot.of name d put).take := by rw [hfree]
  change field.free.take origin s doc = .ok s' at h
  rw [htake] at h
  exact Slot.take_of_eq_ok h

theorem Slot.keeps_of {name : String} {d : Decoder β} {put : σ → β → σ} {get : σ → α}
    (h : ∀ s b, get (put s b) = get s) : (Slot.of name d put).Keeps get := by
  intro origin s doc s' htake
  obtain ⟨b, -, rfl⟩ := Slot.take_of_eq_ok htake
  exact h s b

namespace RecordShape

/-- A record has a field, which is read by `d`, stored by `put` and looked at by `get`, whether or
not it may be left out. -/
structure HasField (shape : RecordShape σ) (key : Key) (d : Decoder α) (put : σ → α → σ)
    (get : σ → α) : Prop where
  field : shape.fields[key.position]?.map Slot.free = some (Slot.of key.name d put)
  names : (shape.fields.map (·.name)).Nodup
  others : shape.others.Keeps get
  get_put : ∀ s a, get (put s a) = a
  keeps : ∀ field ∈ shape.fields, field.name ≠ key.name → field.Keeps get

variable {shape : RecordShape σ} {key : Key} {d : Decoder α} {put : σ → α → σ} {get : σ → α}
variable {origin : Notation} {s s' : σ}

/-- Where no two fields have one name, each is found by its name. -/
theorem field?_of_getElem? (hnames : (shape.fields.map (·.name)).Nodup) {field : Slot σ} {n : Nat}
    (hposition : shape.fields[n]? = some field) : shape.field? field.name = some field := by
  obtain ⟨hlt, hfield⟩ := List.getElem?_eq_some_iff.mp hposition
  refine List.find?_eq_some_iff_getElem.mpr ⟨beq_self_eq_true _, n, hlt, hfield, ?_⟩
  intro i hi
  have hi' : i < shape.fields.length := Nat.lt_trans hi hlt
  have hbound : i < (shape.fields.map (·.name)).length := by rwa [List.length_map]
  have hne : shape.fields[i].name ≠ field.name := by
    intro hname
    apply Nat.ne_of_lt hi
    apply (List.getElem?_inj hbound hnames).mp
    rw [List.getElem?_map, List.getElem?_map, hposition, List.getElem?_eq_getElem hi']
    exact congrArg some hname
  simpa using hne

theorem HasField.field? (h : shape.HasField key d put get) :
    (shape.field? key.name).map Slot.free = some (Slot.of key.name d put) := by
  obtain ⟨field, hposition, hfree⟩ := Option.map_eq_some_iff.mp h.field
  have hname : field.name = key.name := congrArg Slot.name hfree
  rw [← hname, field?_of_getElem? h.names hposition, Option.map_some, hfree, hname]

/-- What members make of a field.  Since no name may occur twice, at most one of them is the
field's. -/
theorem HasField.made_of_members (h : shape.HasField key d put get) {seen : List String}
    {members : List (String × Document)}
    (htake : shape.takeMembers origin seen s members = .ok s') :
    Made (d.take origin) (get s) (Table.get? key.name members) (get s') ∧
      (key.name ∈ seen → Table.get? key.name members = none) := by
  induction members generalizing seen s with
  | nil =>
      rw [takeMembers] at htake
      cases hcomplete : shape.complete seen with
      | error misfit =>
          rw [hcomplete] at htake
          cases htake
      | ok _ =>
          rw [hcomplete] at htake
          cases htake
          exact ⟨rfl, fun _ => rfl⟩
  | cons member rest ih =>
      obtain ⟨name, value⟩ := member
      rw [takeMembers] at htake
      cases hfield : shape.field? name with
      | none =>
          have hname : name ≠ key.name := by
            rintro rfl
            have hfound := h.field?
            rw [hfield] at hfound
            cases hfound
          have hothers := h.others
          rw [Table.get?, if_neg hname]
          cases hkind : shape.others with
          | refused =>
              simp only [hfield, hkind] at htake
              cases htake
          | passed =>
              simp only [hfield, hkind] at htake
              exact ih htake
          | kept put =>
              simp only [hfield, hkind] at htake
              rw [hkind] at hothers
              rw [← hothers s name value.toJson]
              exact ih htake
      | some field =>
          rw [hfield] at htake
          dsimp only at htake
          by_cases hseen : seen.contains name = true
          · rw [if_pos hseen] at htake
            cases htake
          · rw [if_neg hseen] at htake
            cases hstep : field.take origin s value with
            | error misfit =>
                rw [hstep] at htake
                cases htake
            | ok s₁ =>
                rw [hstep] at htake
                obtain ⟨hrest, habsent⟩ := ih htake
                rw [Table.get?]
                by_cases hname : name = key.name
                · subst hname
                  have hfound := h.field?
                  rw [hfield, Option.map_some] at hfound
                  obtain ⟨a, ha, rfl⟩ := Slot.take_of_free_eq_ok (Option.some.inj hfound) hstep
                  rw [habsent List.mem_cons_self, Made, h.get_put] at hrest
                  rw [if_pos rfl]
                  refine ⟨?_, fun hmem => absurd hmem (by simpa using hseen)⟩
                  rw [Made, hrest]
                  exact ha
                · have hkept : get s₁ = get s := by
                    refine h.keeps field (List.mem_of_find?_eq_some hfield) ?_ _ _ _ _ hstep
                    rw [RecordShape.field?] at hfield
                    have hsame : field.name = name := by simpa using List.find?_some hfield
                    rw [hsame]
                    exact hname
                  rw [if_neg hname, ← hkept]
                  exact ⟨hrest, fun hmem => habsent (List.mem_cons_of_mem name hmem)⟩

theorem takeItems_keeps {fields : List (Slot σ)} (hkeeps : ∀ field ∈ fields, field.Keeps get)
    {position : Nat} {items : List Document}
    (htake : shape.takeItems origin position s fields items = .ok s') : get s' = get s := by
  induction fields generalizing position s items with
  | nil =>
      cases items with
      | nil =>
          cases htake
          rfl
      | cons item rest =>
          cases origin with
          | value => cases htake
          | tables =>
              cases htake
              rfl
  | cons field fields ih =>
      obtain ⟨hfirst, hrest⟩ := List.forall_mem_cons.mp hkeeps
      cases items with
      | nil =>
          rw [takeItems] at htake
          split at htake
          · exact ih hrest htake
          · cases htake
      | cons item rest =>
          rw [takeItems] at htake
          cases hstep : field.take origin s item with
          | error misfit =>
              rw [hstep] at htake
              cases htake
          | ok s₁ =>
              rw [hstep] at htake
              exact (ih hrest htake).trans (hfirst _ _ _ _ hstep)

/-- What items make of a field. -/
theorem made_of_items {fields : List (Slot σ)} (hnames : (fields.map (·.name)).Nodup)
    (hkeeps : ∀ field ∈ fields, field.name ≠ key.name → field.Keeps get)
    (hget : ∀ s a, get (put s a) = a) {i : Nat}
    (hfield : fields[i]?.map Slot.free = some (Slot.of key.name d put)) {position : Nat}
    {items : List Document}
    (htake : shape.takeItems origin position s fields items = .ok s') :
    Made (d.take origin) (get s) items[i]? (get s') := by
  induction fields generalizing i position s items with
  | nil => cases hfield
  | cons field fields ih =>
      obtain ⟨hfresh, hnames⟩ := List.nodup_cons.mp hnames
      obtain ⟨hfirst, hrest⟩ := List.forall_mem_cons.mp hkeeps
      cases i with
      | zero =>
          have hfree : field.free = Slot.of key.name d put := Option.some.inj hfield
          have hname : field.name = key.name := congrArg Slot.name hfree
          have hothers : ∀ other ∈ fields, other.Keeps get := by
            refine fun other hmem => hrest other hmem fun hsame => hfresh ?_
            exact List.mem_map.mpr ⟨other, hmem, hsame.trans hname.symm⟩
          cases items with
          | nil =>
              rw [takeItems] at htake
              split at htake
              · exact takeItems_keeps hothers htake
              · cases htake
          | cons item rest =>
              rw [takeItems] at htake
              cases hstep : field.take origin s item with
              | error misfit =>
                  rw [hstep] at htake
                  cases htake
              | ok s₁ =>
                  rw [hstep] at htake
                  obtain ⟨a, ha, rfl⟩ := Slot.take_of_free_eq_ok hfree hstep
                  have hkept := takeItems_keeps hothers htake
                  rw [hget] at hkept
                  rw [List.getElem?_cons_zero, Made, hkept]
                  exact ha
      | succ i =>
          rw [List.getElem?_cons_succ] at hfield
          obtain ⟨other, hother, hfree⟩ := Option.map_eq_some_iff.mp hfield
          have hotherName : other.name = key.name := congrArg Slot.name hfree
          have hname : field.name ≠ key.name := fun hname => hfresh
            (List.mem_map.mpr ⟨other, List.mem_of_getElem? hother, hotherName.trans hname.symm⟩)
          cases items with
          | nil =>
              rw [takeItems] at htake
              split at htake
              · exact ih hnames hrest hfield htake
              · cases htake
          | cons item rest =>
              rw [takeItems] at htake
              cases hstep : field.take origin s item with
              | error misfit =>
                  rw [hstep] at htake
                  cases htake
              | ok s₁ =>
                  rw [hstep] at htake
                  rw [List.getElem?_cons_succ, ← hfirst hname _ _ _ _ hstep]
                  exact ih hnames hrest hfield htake

end RecordShape

/-! ## Records within records -/

/-- What `get` looks at is made of the part at a path, or is the fallback where there is none. -/
def Reads (whole : Decoder σ) (path : List Key) (d : Decoder α) (get : σ → α) (fallback : α) :
    Prop :=
  ∀ origin doc s, whole.take origin doc = .ok s →
    Made (d.take origin) fallback (doc.at? path) (get s)

theorem RecordShape.HasField.reads {shape : RecordShape σ} {key : Key} {d : Decoder α}
    {put : σ → α → σ} {get : σ → α} (h : shape.HasField key d put get) (start : σ) :
    Reads (shape.decode start) [key] d get (get start) := by
  intro origin doc s htake
  have hpart : doc.at? [key] = doc.part? key := Option.bind_fun_some _
  rw [hpart]
  cases doc with
  | table members => exact (h.made_of_members htake).1
  | inlineTable members => exact (h.made_of_members htake).1
  | moment written => exact (h.made_of_members htake).1
  | list items =>
      change (if shape.listed then shape.takeItems origin 0 start shape.fields items
        else wrongType shape.title (.list items)) = _ at htake
      split at htake
      · exact RecordShape.made_of_items h.names h.keeps h.get_put h.field htake
      · cases htake
  | _ => cases htake

/-- A path goes on in what stands at its end. -/
theorem Reads.trans {whole : Decoder σ} {middle : Decoder β} {d : Decoder α}
    {path path' : List Key} {get : σ → β} {get' : β → α} {between : β}
    (h : Reads whole path middle get between) {fallback : α}
    (h' : Reads middle path' d get' fallback) (hbetween : get' between = fallback) :
    Reads whole (path ++ path') d (fun s => get' (get s)) fallback := by
  intro origin doc s htake
  have hmade := h origin doc s htake
  rw [Document.at?_append]
  cases hpart : doc.at? path with
  | none =>
      rw [hpart] at hmade
      change get' (get s) = fallback
      rw [show get s = between from hmade, hbetween]
  | some part =>
      rw [hpart] at hmade
      exact h' origin part (get s) hmade

end Gatehouse.Json
