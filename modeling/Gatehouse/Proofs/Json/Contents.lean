import Gatehouse.Proofs.Json.Attested
import Gatehouse.Proofs.Json.Exact
import Gatehouse.Proofs.Json.Parts

/-!
# What documents hold

What has to hold everywhere in a document is checked at each of its parts.  A document that has been
read off a text holds numbers that structured values have and nests as deep as is read, so if it
holds no floating-point numbers its value is exact.
-/

namespace Gatehouse.Json

variable {α : Type}

namespace Document

/-! ## Induction -/

/-- What holds of a document if it holds of its parts holds of every document. -/
theorem induction {P : Document → Prop} (null : P .null) (bool : ∀ b, P (.bool b))
    (int : ∀ i, P (.int i)) (float : ∀ x, P (.float x)) (text : ∀ s, P (.text s))
    (list : ∀ items, (∀ item ∈ items, P item) → P (.list items))
    (table : ∀ members, (∀ member ∈ members, P member.2) → P (.table members))
    (inlineTable : ∀ members, (∀ member ∈ members, P member.2) → P (.inlineTable members))
    (moment : ∀ written, P (.moment written)) (d : Document) : P d := by
  apply Document.rec (motive_1 := P) (motive_2 := fun items => ∀ item ∈ items, P item)
    (motive_3 := fun members => ∀ member ∈ members, P member.2)
    (motive_4 := fun member => P member.2)
  case null => exact null
  case bool => exact bool
  case int => exact int
  case float => exact float
  case text => exact text
  case list => exact list
  case table => exact table
  case inlineTable => exact inlineTable
  case moment => exact moment
  case nil => exact List.forall_mem_nil _
  case cons => exact fun _ _ hitem hrest => List.forall_mem_cons.mpr ⟨hitem, hrest⟩
  case nil => exact List.forall_mem_nil _
  case cons => exact fun _ _ hmember hrest => List.forall_mem_cons.mpr ⟨hmember, hrest⟩
  case mk => exact fun _ _ hvalue => hvalue

/-! ## Parts -/

section

variable (p : Document → Bool)

mutual

def all : Document → Bool
  | .list items => p (.list items) && itemsAll items
  | .table members => p (.table members) && membersAll members
  | .inlineTable members => p (.inlineTable members) && membersAll members
  | d => p d

def itemsAll : List Document → Bool
  | [] => true
  | item :: rest => all item && itemsAll rest

def membersAll : List (String × Document) → Bool
  | [] => true
  | (_, value) :: rest => all value && membersAll rest

end

variable {p} {items : List Document} {members : List (String × Document)}

theorem all_list_iff :
    (list items).all p = true ↔ p (.list items) = true ∧ ∀ item ∈ items, item.all p = true := by
  have hitems : itemsAll p items = true ↔ ∀ item ∈ items, item.all p = true := by
    induction items with
    | nil => simp [itemsAll]
    | cons item rest ih => rw [itemsAll, Bool.and_eq_true, ih, List.forall_mem_cons]
  rw [all, Bool.and_eq_true, hitems]

theorem membersAll_iff :
    membersAll p members = true ↔ ∀ member ∈ members, member.2.all p = true := by
  induction members with
  | nil => simp [membersAll]
  | cons member rest ih => rw [membersAll, Bool.and_eq_true, ih, List.forall_mem_cons]

theorem all_table_iff : (table members).all p = true ↔
    p (.table members) = true ∧ ∀ member ∈ members, member.2.all p = true := by
  rw [all, Bool.and_eq_true, membersAll_iff]

end

def notFloat : Document → Bool
  | .float _ => false
  | _ => true

def namesDiffer : Document → Bool
  | .table members | .inlineTable members => decide (members.map Prod.fst).Nodup
  | _ => true

/-- What a text can say without its parts: integers of the 64-bit ranges and finite doubles, and
only one kind of tables. -/
def isSayable : Document → Bool
  | .int i => intInRange i
  | .float (.finite _) => true
  | .float _ | .inlineTable _ | .moment _ => false
  | _ => true

/-! ## Nesting -/

mutual

/-- How many brackets stand around the innermost part. -/
def nesting : Document → Nat
  | .list items => itemsNesting items + 1
  | .table members | .inlineTable members => membersNesting members + 1
  | _ => 0

def itemsNesting : List Document → Nat
  | [] => 0
  | item :: rest => max (nesting item) (itemsNesting rest)

def membersNesting : List (String × Document) → Nat
  | [] => 0
  | (_, value) :: rest => max (nesting value) (membersNesting rest)

end

theorem itemsNesting_le_iff {items : List Document} {n : Nat} :
    itemsNesting items ≤ n ↔ ∀ item ∈ items, item.nesting ≤ n := by
  induction items with
  | nil => simp [itemsNesting]
  | cons item rest ih => rw [itemsNesting, max_le_iff, ih, List.forall_mem_cons]

theorem membersNesting_le_iff {members : List (String × Document)} {n : Nat} :
    membersNesting members ≤ n ↔ ∀ member ∈ members, member.2.nesting ≤ n := by
  induction members with
  | nil => simp [membersNesting]
  | cons member rest ih => rw [membersNesting, max_le_iff, ih, List.forall_mem_cons]

/-! ## Values -/

theorem toValues_eq_map (items : List Document) : toValues items = items.map toJson := by
  induction items with
  | nil => rfl
  | cons item rest ih => rw [toValues, ih, List.map_cons]

def values (members : List (String × Document)) : List (String × Json) :=
  members.map fun member => (member.1, member.2.toJson)

theorem toObject_eq (bound : Object) (members : List (String × Document)) :
    toObject bound members = Table.extend bound (values members) := by
  induction members generalizing bound with
  | nil => rfl
  | cons member rest ih =>
      rw [toObject, ih]
      rfl

theorem toJson_table (members : List (String × Document)) :
    (table members).toJson = .obj (Table.ofList (values members)) := by
  rw [toJson, toObject_eq]
  rfl

theorem mem_values_of_mem_ofList {members : List (String × Document)} {binding : String × Json}
    (h : binding ∈ Table.ofList (values members)) :
    ∃ member ∈ members, binding = (member.1, member.2.toJson) := by
  obtain ⟨member, hmember, rfl⟩ := List.mem_map.mp (Table.mem_of_mem_ofList h)
  exact ⟨member, hmember, rfl⟩

/-- The document of a sorted value names nothing twice. -/
theorem namesDiffer_toDocument (value : Json) (h : value.isSorted = true) :
    value.toDocument.all namesDiffer = true := by
  induction value using Json.induction with
  | arr items ih =>
      rw [toDocument, toDocuments_eq_map, all_list_iff, List.forall_mem_map]
      exact ⟨rfl, fun item hitem => ih item hitem (isSorted_arr_iff.mp h item hitem)⟩
  | obj members ih =>
      obtain ⟨hordered, hvalues⟩ := isSorted_obj_iff.mp h
      rw [toDocument, toEntries_eq_map, all_table_iff, List.forall_mem_map]
      refine ⟨decide_eq_true ?_, fun member hmember => ih member hmember (hvalues member hmember)⟩
      rw [List.map_map]
      exact hordered.nodup_names
  | _ => rfl

/-- Without floating-point numbers the value of what a text can say is exact and nests no deeper. -/
theorem isExact_toJson (d : Document) (hsayable : d.all isSayable = true)
    (hfloat : d.all notFloat = true) : d.toJson.isExact = true ∧ d.toJson.nesting ≤ d.nesting := by
  induction d using Document.induction with
  | int i => exact ⟨hsayable, le_rfl⟩
  | float x => cases hfloat
  | list items ih =>
      obtain ⟨-, hsayable⟩ := all_list_iff.mp hsayable
      obtain ⟨-, hfloat⟩ := all_list_iff.mp hfloat
      rw [toJson, toValues_eq_map, isExact_arr_iff, List.forall_mem_map, Json.nesting, nesting]
      refine ⟨fun item hitem => (ih item hitem (hsayable item hitem) (hfloat item hitem)).1, ?_⟩
      apply Nat.succ_le_succ
      rw [Json.itemsNesting_le_iff, List.forall_mem_map]
      exact fun item hitem => (ih item hitem (hsayable item hitem) (hfloat item hitem)).2.trans
        (itemsNesting_le_iff.mp le_rfl item hitem)
  | table members ih =>
      obtain ⟨-, hsayable⟩ := all_table_iff.mp hsayable
      obtain ⟨-, hfloat⟩ := all_table_iff.mp hfloat
      rw [toJson_table, isExact_obj_iff, Json.nesting, nesting]
      refine ⟨⟨Table.ordered_ofList _, fun binding hbinding => ?_⟩, Nat.succ_le_succ ?_⟩
      · obtain ⟨member, hmember, rfl⟩ := mem_values_of_mem_ofList hbinding
        exact (ih member hmember (hsayable member hmember) (hfloat member hmember)).1
      · rw [Json.membersNesting_le_iff]
        intro binding hbinding
        obtain ⟨member, hmember, rfl⟩ := mem_values_of_mem_ofList hbinding
        exact (ih member hmember (hsayable member hmember) (hfloat member hmember)).2.trans
          (membersNesting_le_iff.mp le_rfl member hmember)
  | inlineTable members ih =>
      rw [all] at hsayable
      cases hsayable
  | moment written => cases hsayable
  | _ => exact ⟨rfl, le_rfl⟩

/-! ## Plain documents -/

/-- A text can say the document, and that without floating-point numbers and within `n` levels. -/
structure IsPlain (n : Nat) (d : Document) : Prop where
  sayable : d.all isSayable = true
  notFloat : d.all notFloat = true
  nesting : d.nesting ≤ n

namespace IsPlain

variable {n : Nat} {d : Document}

theorem item {items : List Document} (h : IsPlain n (.list items)) {part : Document}
    (hpart : part ∈ items) : ∃ m, n = m + 1 ∧ IsPlain m part := by
  obtain ⟨hsayable, hfloat, hnesting⟩ := h
  obtain ⟨m, rfl⟩ := Nat.exists_eq_succ_of_ne_zero (Nat.ne_zero_of_lt hnesting)
  refine ⟨m, rfl, (all_list_iff.mp hsayable).2 part hpart,
    (all_list_iff.mp hfloat).2 part hpart, ?_⟩
  exact itemsNesting_le_iff.mp (Nat.le_of_succ_le_succ hnesting) part hpart

theorem member (h : IsPlain n d) {members : List (String × Document)}
    (hmembers : d.members? = some members) {part : String × Document} (hpart : part ∈ members) :
    ∃ m, n = m + 1 ∧ IsPlain m part.2 := by
  obtain ⟨hsayable, hfloat, hnesting⟩ := h
  cases d with
  | table found =>
      obtain rfl := Option.some.inj hmembers
      obtain ⟨m, rfl⟩ := Nat.exists_eq_succ_of_ne_zero (Nat.ne_zero_of_lt hnesting)
      refine ⟨m, rfl, (all_table_iff.mp hsayable).2 part hpart,
        (all_table_iff.mp hfloat).2 part hpart, ?_⟩
      exact membersNesting_le_iff.mp (Nat.le_of_succ_le_succ hnesting) part hpart
  | inlineTable found =>
      rw [all] at hsayable
      cases hsayable
  | moment written => cases hsayable
  | _ => cases hmembers

protected theorem toJson (h : IsPlain n d) : d.toJson.IsPlain n := by
  obtain ⟨hexact, hnesting⟩ := isExact_toJson d h.sayable h.notFloat
  exact ⟨hexact, hnesting.trans h.nesting⟩

theorem part (h : IsPlain n d) {key : Key} {part : Document} (hpart : d.part? key = some part) :
    ∃ m, n = m + 1 ∧ IsPlain m part := by
  cases hmembers : d.members? with
  | some members =>
      simp only [part?, hmembers] at hpart
      exact h.member hmembers (Table.mem_of_get? hpart)
  | none =>
      simp only [part?, hmembers] at hpart
      cases d with
      | list items => exact h.item (List.mem_of_getElem? hpart)
      | _ => cases hpart

end IsPlain

end Document

/-! ## Documents of texts -/

namespace Reader

/-- At a depth, the reader returns what has the property, and is back at that depth. -/
def YieldsAt (depth : Nat) (r : Reader α) (P : α → Prop) : Prop :=
  ∀ c a c', c.depth = depth → r c = .ok a c' → P a ∧ c'.depth = depth

namespace YieldsAt

variable {depth : Nat} {r : Reader α} {P : α → Prop}

theorem itemsFrom (h : YieldsAt depth r P) (fuel : Nat) (isFirst : Bool) :
    YieldsAt depth (itemsFrom r fuel isFirst) fun found => ∀ a ∈ found, P a := by
  induction fuel generalizing isFirst with
  | zero =>
      rintro c _ _ hdepth ⟨rfl, rfl⟩
      exact ⟨List.forall_mem_nil _, hdepth⟩
  | succ fuel ih =>
      intro c found last hdepth hitems
      obtain ⟨more, between, hnext, hitems⟩ := bind_eq_ok.mp hitems
      have hbetween := (ExtendsAt.nextItem isFirst c more between hdepth hnext).2
      cases more with
      | false =>
          cases hitems
          exact ⟨List.forall_mem_nil _, hbetween⟩
      | true =>
          obtain ⟨a, behind, ha, hitems⟩ := bind_eq_ok.mp hitems
          obtain ⟨rest, _, hrest, ⟨rfl, rfl⟩⟩ := bind_eq_ok.mp hitems
          obtain ⟨hP, hbehind⟩ := h _ _ _ hbetween ha
          obtain ⟨hall, hlast⟩ := ih false _ _ _ hbehind hrest
          exact ⟨List.forall_mem_cons.mpr ⟨hP, hall⟩, hlast⟩

theorem members (h : YieldsAt depth r P) {fuel : Nat} {isFirst : Bool} {c last : Cursor}
    {found : List (String × α)} (hdepth : c.depth = depth)
    (hentries : EntriesFollow r fuel isFirst c found last) : ∀ member ∈ found, P member.2 := by
  induction hentries with
  | spent => exact List.forall_mem_nil _
  | ended _ => exact List.forall_mem_nil _
  | member hnext hname hcolon hvalue hrest ih =>
      have hbetween := (ExtendsAt.nextName _ _ _ _ hdepth hnext).2
      obtain ⟨n, -, rfl, -⟩ := quoted_passes _ _ _ hname
      obtain ⟨m, rfl, -⟩ := LooksAtBytes.colon _ _ _ hcolon
      have hbehindColon : ((Cursor.advanceBy n _).advanceBy m).depth = depth :=
        (Cursor.depth_advanceBy m _).trans ((Cursor.depth_advanceBy n _).trans hbetween)
      obtain ⟨hP, hbehind⟩ := h _ _ _ hbehindColon hvalue
      exact List.forall_mem_cons.mpr ⟨hP, ih hbehind⟩

end YieldsAt

theorem IsScalar.isSayable {d : Document} (h : IsScalar d) : d.all Document.isSayable = true := by
  cases d with
  | int i => exact h
  | float x =>
      cases x with
      | finite x => rfl
      | _ => exact h.elim
  | list items => exact h.elim
  | table members => exact h.elim
  | inlineTable members => exact h.elim
  | moment written => exact h.elim
  | _ => rfl

theorem IsScalar.nesting {d : Document} (h : IsScalar d) : d.nesting = 0 := by
  cases d with
  | list items => exact h.elim
  | table members => exact h.elim
  | inlineTable members => exact h.elim
  | _ => rfl

/-- A document that is read has parts that texts can say, and nests no deeper than the cursor
allows. -/
theorem document_yields (levels depth : Nat) : YieldsAt depth (documentWithin levels) fun d =>
    d.all Document.isSayable = true ∧ d.nesting ≤ depth := by
  induction levels generalizing depth with
  | zero =>
      intro c d last _ h
      cases h
  | succ levels ih =>
      intro c d last hdepth h
      have hlast : last.depth = depth := by
        obtain ⟨_, n, rfl, -, -⟩ := document_passing _ _ _ _ h
        exact (Cursor.depth_advanceBy n c).trans hdepth
      refine ⟨?_, hlast⟩
      rw [← hdepth, ← depth_pastBlanks c]
      -- A bracket takes one level of the depth for what stands in it.
      cases valueFollows_of_document h with
      | list hhead hlist =>
          obtain ⟨inside, _, hinside, hitems, -⟩ := bracketed_eq_ok.mp hlist
          obtain ⟨_, _, ⟨rfl, rfl⟩, hitems⟩ := bind_eq_ok.mp hitems
          obtain ⟨hall, -⟩ := (ih inside).itemsFrom _ _ _ _ _ rfl hitems
          rw [hinside]
          refine ⟨Document.all_list_iff.mpr ⟨rfl, fun item hitem => (hall item hitem).1⟩, ?_⟩
          exact Nat.succ_le_succ
            (Document.itemsNesting_le_iff.mpr fun item hitem => (hall item hitem).2)
      | object hhead hobject =>
          obtain ⟨inside, _, hinside, hentries, -⟩ := bracketed_eq_ok.mp hobject
          have hall := (ih inside).members rfl (entriesFollow_of_entriesOf hentries)
          rw [hinside]
          refine ⟨Document.all_table_iff.mpr ⟨rfl, fun member hmember =>
            (hall member hmember).1⟩, ?_⟩
          exact Nat.succ_le_succ
            (Document.membersNesting_le_iff.mpr fun member hmember => (hall member hmember).2)
      | scalar _ _ _ hscalar =>
          obtain ⟨_, -, hbegins⟩ := scalarBegins hscalar
          refine ⟨hbegins.isScalar.isSayable, ?_⟩
          have hnone : d.nesting = 0 := hbegins.isScalar.nesting
          rw [hnone]
          exact Nat.zero_le _

/-- So has the document of a whole text. -/
theorem document_contents {bytes : List UInt8} {d : Document} (h : document.run bytes = .ok d) :
    d.all Document.isSayable = true ∧ d.nesting ≤ maxDepth := by
  obtain ⟨last, hd, -⟩ := run_eq_ok.mp h
  exact (document_yields (maxDepth + 1) maxDepth _ _ _ rfl hd).1

end Reader

end Gatehouse.Json
