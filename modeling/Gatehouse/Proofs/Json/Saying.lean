import Gatehouse.Proofs.Json.Acceptance
import Gatehouse.Proofs.Json.Contents

/-!
# What documents say

A document says a value if it is the document of a text, names nothing twice and has that value.
Many documents say one value, since the members of a table may come in any order.  A value returns
from what has been written of it if a decoder makes it of every document that says so much.
-/

namespace Gatehouse.Json

variable {α σ : Type}

/-! ## Documents -/

namespace Document

/-- A document of a text has the value, and no table in it has two members of one name. -/
structure Says (d : Document) (value : Json) : Prop where
  sayable : d.all isSayable = true
  names : d.all namesDiffer = true
  toJson : d.toJson = value

/-- Each of the members says what is bound to its name. -/
structure SaysMembers (members : List (String × Document)) (bound : Object) : Prop where
  nodup : (members.map Prod.fst).Nodup
  get? : ∀ name, Option.Rel Says (Table.get? name members) (Table.get? name bound)

namespace Says

variable {d : Document}

theorem null (h : d.Says .null) : d = .null := by
  obtain ⟨hsayable, -, hvalue⟩ := h
  cases d with
  | null => rfl
  | float x =>
      cases x with
      | finite x => cases hvalue
      | _ => cases hsayable
  | _ => cases hvalue

theorem bool {b : Bool} (h : d.Says (.bool b)) : d = .bool b := by
  obtain ⟨-, -, hvalue⟩ := h
  cases d with
  | bool b => exact congrArg Document.bool (Json.bool.inj hvalue)
  | float x => cases x <;> cases hvalue
  | _ => cases hvalue

theorem int {i : Int} (h : d.Says (.int i)) : d = .int i := by
  obtain ⟨-, -, hvalue⟩ := h
  cases d with
  | int i => exact congrArg Document.int (Json.int.inj hvalue)
  | float x => cases x <;> cases hvalue
  | _ => cases hvalue

theorem str {s : String} (h : d.Says (.str s)) : d = .text s := by
  obtain ⟨-, -, hvalue⟩ := h
  cases d with
  | text s => exact congrArg Document.text (Json.str.inj hvalue)
  | float x => cases x <;> cases hvalue
  | _ => cases hvalue

theorem arr {items : List Json} (h : d.Says (.arr items)) :
    ∃ docs, d = .list docs ∧ List.Forall₂ Says docs items := by
  obtain ⟨hsayable, hnames, hvalue⟩ := h
  cases d with
  | list docs =>
      obtain ⟨-, hsayable⟩ := all_list_iff.mp hsayable
      obtain ⟨-, hnames⟩ := all_list_iff.mp hnames
      refine ⟨docs, rfl, ?_⟩
      rw [← Json.arr.inj hvalue, toValues_eq_map, List.forall₂_map_right_iff, List.forall₂_same]
      exact fun doc hdoc => ⟨hsayable doc hdoc, hnames doc hdoc, rfl⟩
  | float x => cases x <;> cases hvalue
  | _ => cases hvalue

theorem obj {bound : Object} (h : d.Says (.obj bound)) :
    ∃ members, d = .table members ∧ SaysMembers members bound := by
  obtain ⟨hsayable, hnames, hvalue⟩ := h
  cases d with
  | table members =>
      obtain ⟨-, hsayable⟩ := all_table_iff.mp hsayable
      obtain ⟨hdiffer, hnames⟩ := all_table_iff.mp hnames
      have hnodup : (members.map Prod.fst).Nodup := of_decide_eq_true hdiffer
      have hvalues : ((values members).map Prod.fst).Nodup := by
        rw [values, List.map_map]
        exact hnodup
      rw [toJson_table] at hvalue
      refine ⟨members, rfl, hnodup, fun name => ?_⟩
      rw [← Json.obj.inj hvalue, Table.get?_ofList_eq_of_nodup hvalues, values,
        Table.get?_map Document.toJson]
      cases hpart : Table.get? name members with
      | none => exact .none
      | some doc =>
          have hmember := Table.mem_of_get? hpart
          exact .some ⟨hsayable _ hmember, hnames _ hmember, rfl⟩
  | inlineTable members =>
      rw [all] at hsayable
      cases hsayable
  | moment written => cases hsayable
  | float x => cases x <;> cases hvalue
  | _ => cases hvalue

end Says

namespace SaysMembers

variable {members : List (String × Document)} {bound : Object} (h : SaysMembers members bound)
include h

theorem said {name : String} {value : Json} (hvalue : Table.get? name bound = some value) :
    ∃ doc, Table.get? name members = some doc ∧ doc.Says value := by
  have hrel := h.get? name
  rw [hvalue] at hrel
  cases hpart : Table.get? name members with
  | none =>
      rw [hpart] at hrel
      cases hrel
  | some doc =>
      rw [hpart] at hrel
      cases hrel with
      | some hwritten => exact ⟨doc, rfl, hwritten⟩

theorem of_mem {member : String × Document} (hmember : member ∈ members) :
    ∃ value, Table.get? member.1 bound = some value ∧ member.2.Says value := by
  have hpart := (Table.get?_eq_some_iff_of_nodup h.nodup).mpr hmember
  have hrel := h.get? member.1
  rw [hpart] at hrel
  cases hvalue : Table.get? member.1 bound with
  | none =>
      rw [hvalue] at hrel
      cases hrel
  | some value =>
      rw [hvalue] at hrel
      cases hrel with
      | some hwritten => exact ⟨value, rfl, hwritten⟩

end SaysMembers

end Document

/-! ## Values that return -/

/-- The decoder makes the result of every document that says the value. -/
def Returns (d : Decoder α) (value : Json) (a : α) : Prop :=
  ∀ doc : Document, doc.Says value → d.take .value doc = .ok a

theorem returns_string (s : String) : Returns decodeString (.str s) s := by
  intro doc h
  rw [h.str]
  rfl

theorem returns_bool (b : Bool) : Returns decodeBool (.bool b) b := by
  intro doc h
  rw [h.bool]
  rfl

theorem returns_unsigned {bits n : Nat} (hn : n < 2 ^ bits) :
    Returns (decodeUnsigned bits) (.int n) n := by
  intro doc h
  rw [h.int]
  have hbounds : (0 : Int) ≤ n ∧ (n : Int) ≤ Int.pow 2 bits - 1 := by
    have hpow : Int.pow 2 bits = ((2 ^ bits : Nat) : Int) := by
      rw [Nat.cast_pow]
      rfl
    omega
  change Except.map Int.toNat (if _ then _ else _) = _
  rw [if_pos hbounds]
  rfl

theorem lt_of_unsigned {bits : Nat} {origin : Notation} {doc : Document} {n : Nat}
    (h : (decodeUnsigned bits).take origin doc = .ok n) : n < 2 ^ bits := by
  obtain ⟨i, hi, rfl⟩ := Effect.map_eq_ok.mp h
  cases doc with
  | int j =>
      change (if 0 ≤ j ∧ j ≤ Int.pow 2 bits - 1 then _ else _) = _ at hi
      split at hi
      · next hbounds =>
          obtain rfl := Except.ok.inj hi
          have hpow : Int.pow 2 bits = ((2 ^ bits : Nat) : Int) := by
            rw [Nat.cast_pow]
            rfl
          omega
      · cases hi
  | _ => cases hi

theorem returns_value (value : Json) : Returns decodeValue value value := fun _ h =>
  congrArg Except.ok h.toJson

theorem Returns.option {d : Decoder α} {value : Json} {a : α} (h : Returns d value a)
    (hvalue : value ≠ .null) : Returns (decodeOption d) value (some a) := by
  intro doc hwritten
  have hsome : (d.take .value doc).map Option.some = .ok (Option.some a) := by
    rw [h doc hwritten]
    rfl
  cases doc with
  | null => exact absurd hwritten.toJson.symm hvalue
  | _ => exact hsome

theorem returns_none (d : Decoder α) : Returns (decodeOption d) .null none := by
  intro doc h
  rw [h.null]
  rfl

theorem mapM_eq_ok {β ε : Type} {f : α → Except ε β} {items : List α} {found : List β} :
    items.mapM f = .ok found ↔ List.Forall₂ (fun item b => f item = .ok b) items found := by
  constructor
  · intro h
    induction items generalizing found with
    | nil =>
        cases h
        exact .nil
    | cons item rest ih =>
        rw [List.mapM_cons] at h
        obtain ⟨b, hb, h⟩ := Effect.bind_eq_ok.mp h
        obtain ⟨more, hmore, h⟩ := Effect.bind_eq_ok.mp h
        cases h
        exact .cons hb (ih hmore)
  · intro h
    induction h with
    | nil => rfl
    | cons hb _ ih =>
        rw [List.mapM_cons]
        exact Effect.bind_eq_ok.mpr ⟨_, hb, Effect.bind_eq_ok.mpr ⟨_, ih, rfl⟩⟩

theorem Returns.list {d : Decoder α} {items : List Json} {as : List α}
    (h : List.Forall₂ (Returns d) items as) : Returns (decodeList d) (.arr items) as := by
  intro doc hwritten
  obtain ⟨docs, rfl, hdocs⟩ := hwritten.arr
  refine mapM_eq_ok.mpr ?_
  clear hwritten
  induction h generalizing docs with
  | nil =>
      cases hdocs
      exact .nil
  | cons hreturn _ ih =>
      cases hdocs with
      | cons hdoc hrest => exact .cons (hreturn _ hdoc) (ih _ hrest)

/-! ## Maps -/

abbrev Bindings (take : Document → Except Misfit α) (members : List (String × Document))
    (found : List (String × α)) : Prop :=
  List.Forall₂ (fun member binding => member.1 = binding.1 ∧ take member.2 = .ok binding.2) members
    found

theorem foldlM_insert_eq_ok {take : Document → Except Misfit α}
    {members : List (String × Document)} {bound table : Table α} :
    (members.foldlM (fun bound member => do
      return Table.insert member.1 (← take member.2) bound) bound = .ok table) ↔
      ∃ found, Bindings take members found ∧ table = Table.extend bound found := by
  induction members generalizing bound with
  | nil =>
      constructor
      · intro h
        exact ⟨[], .nil, (Except.ok.inj h).symm⟩
      · rintro ⟨found, hfound, rfl⟩
        cases hfound
        rfl
  | cons member rest ih =>
      rw [List.foldlM_cons]
      constructor
      · intro h
        obtain ⟨bound', hbound, h⟩ := Effect.bind_eq_ok.mp h
        obtain ⟨a, ha, hbound⟩ := Effect.bind_eq_ok.mp hbound
        cases hbound
        obtain ⟨found, hfound, rfl⟩ := ih.mp h
        exact ⟨(member.1, a) :: found, .cons ⟨rfl, ha⟩ hfound, rfl⟩
      · rintro ⟨found, hfound, rfl⟩
        cases hfound with
        | @cons _ binding _ found hbinding hrest =>
            obtain ⟨hname, ha⟩ := hbinding
            refine Effect.bind_eq_ok.mpr ⟨Table.insert member.1 binding.2 bound, ?_, ?_⟩
            · exact Effect.bind_eq_ok.mpr ⟨binding.2, ha, rfl⟩
            · exact ih.mpr ⟨found, hrest, by rw [hname]; rfl⟩

/-- A map is made of members exactly if each of them can be made; of two with one name the later
counts. -/
theorem decodeMap_eq_ok {d : Decoder α} {origin : Notation} {doc : Document} {table : Table α} :
    (decodeMap d).take origin doc = .ok table ↔ ∃ members found, doc.members? = some members ∧
      Bindings (d.take origin) members found ∧ table = Table.ofList found := by
  dsimp only [decodeMap]
  cases doc.members? with
  | none =>
      constructor
      · intro h
        cases h
      · rintro ⟨_, _, h, -⟩
        cases h
  | some members =>
      refine foldlM_insert_eq_ok.trans ⟨?_, ?_⟩
      · rintro ⟨found, hfound, htable⟩
        exact ⟨members, found, rfl, hfound, htable⟩
      · rintro ⟨_, found, ⟨rfl⟩, hfound, htable⟩
        exact ⟨found, hfound, htable⟩

namespace Bindings

variable {take : Document → Except Misfit α} {members : List (String × Document)}
  {found : List (String × α)}

theorem exists_of_forall (h : ∀ member ∈ members, ∃ a, take member.2 = .ok a) :
    ∃ found, Bindings take members found := by
  induction members with
  | nil => exact ⟨[], .nil⟩
  | cons member rest ih =>
      obtain ⟨⟨a, ha⟩, hrest⟩ := List.forall_mem_cons.mp h
      obtain ⟨found, hfound⟩ := ih hrest
      exact ⟨(member.1, a) :: found, .cons ⟨rfl, ha⟩ hfound⟩

theorem names (h : Bindings take members found) :
    found.map Prod.fst = members.map Prod.fst := by
  induction h with
  | nil => rfl
  | cons hbinding _ ih => rw [List.map_cons, List.map_cons, ih, hbinding.1]

theorem get? (h : Bindings take members found) (name : String) :
    Option.Rel (fun doc a => take doc = .ok a) (Table.get? name members)
      (Table.get? name found) := by
  induction h with
  | nil => exact .none
  | cons hbinding _ ih =>
      rw [Table.get?, Table.get?, hbinding.1]
      split
      · exact .some hbinding.2
      · exact ih

theorem exists_of_mem (h : Bindings take members found) {binding : String × α}
    (hmem : binding ∈ found) :
    ∃ doc, (binding.1, doc) ∈ members ∧ take doc = .ok binding.2 := by
  induction h with
  | nil => cases hmem
  | @cons member first members found hfirst _ ih =>
      obtain ⟨hname, htake⟩ := hfirst
      cases hmem with
      | head => exact ⟨member.2, hname ▸ List.mem_cons_self, htake⟩
      | tail _ hmem =>
          obtain ⟨doc, hdoc, htake⟩ := ih hmem
          exact ⟨doc, List.mem_cons_of_mem _ hdoc, htake⟩

theorem get?_eq (h : Bindings take members found) {name : String} {bound : Option α}
    (hbound : Option.Rel (fun doc a => take doc = .ok a) (Table.get? name members) bound) :
    Table.get? name found = bound := by
  have hfound := h.get? name
  generalize Table.get? name members = part at hfound hbound
  generalize Table.get? name found = made at hfound
  cases hbound with
  | none =>
      cases hfound
      rfl
  | some hbound =>
      cases hfound with
      | some hmade => exact congrArg some (Except.ok.inj (hmade.symm.trans hbound))

end Bindings

/-- A table that is made of a part is in the order of its names, and its values are made of members
of the part. -/
theorem table_of_made {d : Decoder α} {origin : Notation} {part : Option Document} {table : Table α}
    (h : Made ((decodeMap d).take origin) [] part table) :
    Table.Ordered table ∧ ∀ binding ∈ table, ∃ doc members value, part = some doc ∧
      doc.members? = some members ∧ (binding.1, value) ∈ members ∧
        d.take origin value = .ok binding.2 := by
  cases part with
  | none =>
      obtain rfl : table = [] := h
      exact ⟨.nil, List.forall_mem_nil _⟩
  | some doc =>
      obtain ⟨members, found, hmembers, hfound, rfl⟩ := decodeMap_eq_ok.mp h
      refine ⟨Table.ordered_ofList found, fun binding hmem => ?_⟩
      obtain ⟨value, hvalue, htake⟩ := hfound.exists_of_mem (Table.mem_of_mem_ofList hmem)
      exact ⟨doc, members, value, rfl, hmembers, hvalue, htake⟩

/-- A table returns if each of its values does. -/
theorem Returns.map {d : Decoder α} {table : Table α} (write : α → Json)
    (hordered : Table.Ordered table)
    (h : ∀ binding ∈ table, Returns d (write binding.2) binding.2) :
    Returns (decodeMap d) (.obj (table.map fun binding => (binding.1, write binding.2))) table := by
  intro doc hwritten
  obtain ⟨members, rfl, hmembers⟩ := hwritten.obj
  have htable : ∀ name, Option.Rel (fun part a => d.take .value part = .ok a)
      (Table.get? name members) (Table.get? name table) := by
    intro name
    have hrel := hmembers.get? name
    rw [Table.get?_map write] at hrel
    generalize Table.get? name members = part at hrel
    cases hbound : Table.get? name table with
    | none =>
        rw [hbound] at hrel
        cases hrel
        exact .none
    | some a =>
        rw [hbound] at hrel
        cases hrel with
        | some hsaid => exact .some (h _ (Table.mem_of_get? hbound) _ hsaid)
  obtain ⟨found, hfound⟩ : ∃ found, Bindings (d.take .value) members found := by
    apply Bindings.exists_of_forall
    intro member hmember
    have hrel := htable member.1
    rw [(Table.get?_eq_some_iff_of_nodup hmembers.nodup).mpr hmember] at hrel
    generalize Table.get? member.1 table = bound at hrel
    cases hrel with
    | some htake => exact ⟨_, htake⟩
  have hnodup : (found.map Prod.fst).Nodup := by
    rw [hfound.names]
    exact hmembers.nodup
  refine decodeMap_eq_ok.mpr ⟨members, found, rfl, hfound, ?_⟩
  apply hordered.ext (Table.ordered_ofList found)
  intro name a
  rw [Table.get?_ofList_eq_of_nodup hnodup, hfound.get?_eq (htable name)]

/-! ## Records -/

/-- The field takes every document that says the value. -/
def Slot.Accepts (field : Slot σ) (value : Json) : Prop :=
  ∀ doc : Document, doc.Says value → ∀ s, ∃ s', field.take .value s doc = .ok s'

theorem Returns.accepts {d : Decoder α} {value : Json} {a : α} (h : Returns d value a)
    (name : String) (put : σ → α → σ) : (Slot.of name d put).Accepts value := by
  intro doc hwritten s
  refine ⟨put s a, ?_⟩
  change (d.take .value doc).map (put s) = _
  rw [h doc hwritten]
  rfl

theorem Slot.Accepts.require {field : Slot σ} {value : Json} (h : field.Accepts value) :
    field.require.Accepts value := h

/-- A record returns if all that is written of it is taken by its fields, and what is made of them
is the record. -/
theorem Returns.record {shape : RecordShape σ} {bound : Object} {start made : σ}
    (hknown : ∀ name ∈ bound.map Prod.fst, name ∈ shape.names)
    (hfields : ∀ field ∈ shape.fields, ∃ value, Table.get? field.name bound = some value ∧
      field.Accepts value)
    (hmade : ∀ doc : Document, ∀ s, doc.Says (.obj bound) →
      (shape.decode start).take .value doc = .ok s → s = made) :
    Returns (shape.decode start) (.obj bound) made := by
  intro doc hwritten
  obtain ⟨members, rfl, hmembers⟩ := hwritten.obj
  have htakes : ∀ member ∈ members, shape.Takes .value member := by
    intro member hmember
    obtain ⟨value, hvalue, hsaid⟩ := hmembers.of_mem hmember
    rw [RecordShape.Takes]
    cases hfield : shape.field? member.1 with
    | none =>
        have hname := List.mem_map_of_mem (f := Prod.fst) (Table.mem_of_get? hvalue)
        exact absurd (hknown _ hname) (RecordShape.field?_eq_none_iff.mp hfield)
    | some field =>
        obtain ⟨value', hvalue', haccepts⟩ := hfields field (List.mem_of_find?_eq_some hfield)
        have hname : field.name = member.1 := by simpa using List.find?_some hfield
        rw [hname, hvalue] at hvalue'
        obtain rfl := Option.some.inj hvalue'
        exact haccepts member.2 hsaid
  have hcomplete : shape.IsComplete ([] ++ members.map Prod.fst) := by
    intro field hfield _
    obtain ⟨value, hvalue, -⟩ := hfields field hfield
    obtain ⟨part, hpart, -⟩ := hmembers.said hvalue
    exact List.mem_map_of_mem (f := Prod.fst) (Table.mem_of_get? hpart)
  obtain ⟨s, hs⟩ := shape.takeMembers_succeeds hmembers.nodup (fun _ _ => List.not_mem_nil)
    htakes hcomplete start
  obtain rfl := hmade _ s hwritten hs
  exact hs

/-- What is read of a field is what has been written under its name. -/
theorem Reads.said {whole : Decoder σ} {key : Key} {d : Decoder α} {get : σ → α} {fallback : α}
    (h : Reads whole [key] d get fallback) {bound : Object} {value : Json} {a : α}
    (hvalue : Table.get? key.name bound = some value) (hreturn : Returns d value a)
    {doc : Document} {s : σ} (hwritten : doc.Says (.obj bound))
    (htake : whole.take .value doc = .ok s) : get s = a := by
  obtain ⟨members, rfl, hmembers⟩ := hwritten.obj
  obtain ⟨part, hpart, hsaid⟩ := hmembers.said hvalue
  have hmade := h .value _ s htake
  have hat : (Document.table members).at? [key] = some part :=
    (Option.bind_fun_some _).trans hpart
  rw [hat] at hmade
  exact (Except.ok.inj ((hreturn part hsaid).symm.trans hmade)).symm

end Gatehouse.Json
