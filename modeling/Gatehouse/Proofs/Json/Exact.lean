import Gatehouse.Json.Diagnostics
import Gatehouse.Json.Document
import Gatehouse.Proofs.Table

/-!
# Exact values

A value is sorted if every object in it has its members in the order of their names; the document of
a sorted value has that value.  A value is exact if a text can hold it without loss: it is sorted, it
has no floating-point numbers, and its integers are of the 64-bit ranges.  Stripping keeps a value
exact.
-/

namespace Gatehouse.Json

/-! ## Induction -/

/-- What holds of a value if it holds of its parts holds of every value. -/
theorem induction {P : Json → Prop} (null : P .null) (bool : ∀ b, P (.bool b))
    (int : ∀ i, P (.int i)) (float : ∀ x, P (.float x)) (str : ∀ s, P (.str s))
    (arr : ∀ items, (∀ item ∈ items, P item) → P (.arr items))
    (obj : ∀ members, (∀ member ∈ members, P member.2) → P (.obj members)) (value : Json) :
    P value := by
  apply Json.rec (motive_1 := P) (motive_2 := fun items => ∀ item ∈ items, P item)
    (motive_3 := fun members => ∀ member ∈ members, P member.2) (motive_4 := fun member => P member.2)
  case null => exact null
  case bool => exact bool
  case int => exact int
  case float => exact float
  case str => exact str
  case arr => exact arr
  case obj => exact obj
  case nil => exact List.forall_mem_nil _
  case cons => exact fun _ _ hitem hrest => List.forall_mem_cons.mpr ⟨hitem, hrest⟩
  case nil => exact List.forall_mem_nil _
  case cons => exact fun _ _ hmember hrest => List.forall_mem_cons.mpr ⟨hmember, hrest⟩
  case mk => exact fun _ _ hvalue => hvalue

/-! ## Exactness -/

mutual

/-- Whether a text holds the value without loss. -/
def isExact : Json → Bool
  | .float _ => false
  | .int i => intInRange i
  | .arr items => itemsAreExact items
  | .obj members => decide (Table.Ordered members) && membersAreExact members
  | _ => true

def itemsAreExact : List Json → Bool
  | [] => true
  | item :: rest => isExact item && itemsAreExact rest

def membersAreExact : List (String × Json) → Bool
  | [] => true
  | (_, value) :: rest => isExact value && membersAreExact rest

end

theorem isExact_arr_iff {items : List Json} :
    (arr items).isExact = true ↔ ∀ item ∈ items, item.isExact = true := by
  rw [isExact]
  induction items with
  | nil => simp [itemsAreExact]
  | cons item rest ih => rw [itemsAreExact, Bool.and_eq_true, ih, List.forall_mem_cons]

theorem isExact_obj_iff {members : List (String × Json)} :
    (obj members).isExact = true ↔
      Table.Ordered members ∧ ∀ member ∈ members, member.2.isExact = true := by
  have hmembers : membersAreExact members = true ↔
      ∀ member ∈ members, member.2.isExact = true := by
    induction members with
    | nil => simp [membersAreExact]
    | cons member rest ih => rw [membersAreExact, Bool.and_eq_true, ih, List.forall_mem_cons]
  rw [isExact, Bool.and_eq_true, decide_eq_true_eq, hmembers]

/-! ## Order -/

mutual

def isSorted : Json → Bool
  | .arr items => itemsAreSorted items
  | .obj members => decide (Table.Ordered members) && membersAreSorted members
  | _ => true

def itemsAreSorted : List Json → Bool
  | [] => true
  | item :: rest => isSorted item && itemsAreSorted rest

def membersAreSorted : List (String × Json) → Bool
  | [] => true
  | (_, value) :: rest => isSorted value && membersAreSorted rest

end

theorem isSorted_arr_iff {items : List Json} :
    (arr items).isSorted = true ↔ ∀ item ∈ items, item.isSorted = true := by
  rw [isSorted]
  induction items with
  | nil => simp [itemsAreSorted]
  | cons item rest ih => rw [itemsAreSorted, Bool.and_eq_true, ih, List.forall_mem_cons]

theorem isSorted_obj_iff {members : List (String × Json)} :
    (obj members).isSorted = true ↔
      Table.Ordered members ∧ ∀ member ∈ members, member.2.isSorted = true := by
  have hmembers : membersAreSorted members = true ↔
      ∀ member ∈ members, member.2.isSorted = true := by
    induction members with
    | nil => simp [membersAreSorted]
    | cons member rest ih => rw [membersAreSorted, Bool.and_eq_true, ih, List.forall_mem_cons]
  rw [isSorted, Bool.and_eq_true, decide_eq_true_eq, hmembers]

theorem isSorted_of_isExact (value : Json) (h : value.isExact = true) : value.isSorted = true := by
  induction value using Json.induction with
  | arr items ih =>
      exact isSorted_arr_iff.mpr fun item hitem => ih item hitem (isExact_arr_iff.mp h item hitem)
  | obj members ih =>
      obtain ⟨hordered, hmembers⟩ := isExact_obj_iff.mp h
      exact isSorted_obj_iff.mpr
        ⟨hordered, fun member hmember => ih member hmember (hmembers member hmember)⟩
  | _ => rfl

/-! ## Nesting -/

mutual

/-- How many brackets stand around the innermost part. -/
def nesting : Json → Nat
  | .arr items => itemsNesting items + 1
  | .obj members => membersNesting members + 1
  | _ => 0

def itemsNesting : List Json → Nat
  | [] => 0
  | item :: rest => max (nesting item) (itemsNesting rest)

def membersNesting : List (String × Json) → Nat
  | [] => 0
  | (_, value) :: rest => max (nesting value) (membersNesting rest)

end

theorem itemsNesting_le_iff {items : List Json} {n : Nat} :
    itemsNesting items ≤ n ↔ ∀ item ∈ items, item.nesting ≤ n := by
  induction items with
  | nil => simp [itemsNesting]
  | cons item rest ih => rw [itemsNesting, max_le_iff, ih, List.forall_mem_cons]

theorem membersNesting_le_iff {members : List (String × Json)} {n : Nat} :
    membersNesting members ≤ n ↔ ∀ member ∈ members, member.2.nesting ≤ n := by
  induction members with
  | nil => simp [membersNesting]
  | cons member rest ih => rw [membersNesting, max_le_iff, ih, List.forall_mem_cons]

/-! ## Plain values -/

/-- The value is exact, and nests at most `n` levels. -/
structure IsPlain (n : Nat) (value : Json) : Prop where
  exact : value.isExact = true
  nesting : value.nesting ≤ n

namespace IsPlain

variable {n : Nat}

theorem mono {value : Json} {m : Nat} (h : IsPlain n value) (hle : n ≤ m) : IsPlain m value :=
  ⟨h.exact, h.nesting.trans hle⟩

theorem null : IsPlain n .null := ⟨rfl, Nat.zero_le n⟩

theorem bool (b : Bool) : IsPlain n (.bool b) := ⟨rfl, Nat.zero_le n⟩

theorem str (s : String) : IsPlain n (.str s) := ⟨rfl, Nat.zero_le n⟩

theorem int {i : Int} (h : intInRange i = true) : IsPlain n (.int i) := ⟨h, Nat.zero_le n⟩

theorem arr {items : List Json} (h : ∀ item ∈ items, IsPlain n item) :
    IsPlain (n + 1) (.arr items) :=
  ⟨isExact_arr_iff.mpr fun item hitem => (h item hitem).exact,
    Nat.succ_le_succ (itemsNesting_le_iff.mpr fun item hitem => (h item hitem).nesting)⟩

theorem obj {members : List (String × Json)} (hordered : Table.Ordered members)
    (h : ∀ member ∈ members, IsPlain n member.2) : IsPlain (n + 1) (.obj members) :=
  ⟨isExact_obj_iff.mpr ⟨hordered, fun member hmember => (h member hmember).exact⟩,
    Nat.succ_le_succ (membersNesting_le_iff.mpr fun member hmember => (h member hmember).nesting)⟩

/-- A table is plain if what is written of its values is. -/
theorem table {α : Type} {table : Table α} (write : α → Json) (hordered : Table.Ordered table)
    (h : ∀ binding ∈ table, IsPlain n (write binding.2)) :
    IsPlain (n + 1) (.obj (table.map fun binding => (binding.1, write binding.2))) := by
  apply obj
  · exact List.pairwise_map.mpr hordered
  · rw [List.forall_mem_map]
    exact h

end IsPlain

/-! ## Documents -/

theorem toDocuments_eq_map (items : List Json) : toDocuments items = items.map toDocument := by
  induction items with
  | nil => rfl
  | cons item rest ih => rw [toDocuments, ih, List.map_cons]

theorem toEntries_eq_map (members : List (String × Json)) :
    toEntries members = members.map fun member => (member.1, member.2.toDocument) := by
  induction members with
  | nil => rfl
  | cons member rest ih => rw [toEntries, ih, List.map_cons]

/-- Members in the order of their names are bound one behind the other. -/
theorem toObject_toEntries {bound members : List (String × Json)}
    (hordered : Table.Ordered (bound ++ members))
    (hvalues : ∀ member ∈ members, member.2.toDocument.toJson = member.2) :
    Document.toObject bound (toEntries members) = bound ++ members := by
  induction members generalizing bound with
  | nil => rw [toEntries, Document.toObject, List.append_nil]
  | cons member rest ih =>
      obtain ⟨hvalue, hrest⟩ := List.forall_mem_cons.mp hvalues
      -- The member comes after all that are bound, so it is bound at the end.
      have hlast : ∀ earlier ∈ bound, earlier.1 < member.1 := fun earlier hearlier =>
        (List.pairwise_append.mp hordered).2.2 earlier hearlier member List.mem_cons_self
      rw [toEntries, Document.toObject, hvalue, Table.insert_of_last hlast]
      rw [ih (by rwa [List.append_assoc]) hrest, List.append_assoc]
      rfl

/-- The document of a sorted value has that value. -/
theorem toJson_toDocument_of_isSorted (value : Json) (h : value.isSorted = true) :
    value.toDocument.toJson = value := by
  induction value using Json.induction with
  | null => rfl
  | bool b => rfl
  | int i => rfl
  | float x => rfl
  | str s => rfl
  | arr items ih =>
      have hitems := isSorted_arr_iff.mp h
      rw [toDocument, Document.toJson]
      congr 1
      induction items with
      | nil => rfl
      | cons item rest ihrest =>
          rw [List.forall_mem_cons] at ih hitems
          rw [toDocuments, Document.toValues, ih.1 hitems.1,
            ihrest ih.2 (isSorted_arr_iff.mpr hitems.2) hitems.2]
  | obj members ih =>
      obtain ⟨hordered, hmembers⟩ := isSorted_obj_iff.mp h
      rw [toDocument, Document.toJson]
      congr 1
      exact toObject_toEntries hordered fun member hmember =>
        ih member hmember (hmembers member hmember)

/-- So has the document of an exact value. -/
theorem toJson_toDocument (value : Json) (h : value.isExact = true) :
    value.toDocument.toJson = value :=
  toJson_toDocument_of_isSorted value (isSorted_of_isExact value h)

/-! ## Stripped values -/

theorem stripItems_eq_map (items : List Json) : stripItems items = items.map strip := by
  induction items with
  | nil => rfl
  | cons item rest ih => rw [stripItems, ih, List.map_cons]

/-- What is left of the members is in their order. -/
theorem stripMembers_eq (members : List (String × Json)) : stripMembers members =
    (members.filter fun member => !isDiagnostic member.1).map
      fun member => (member.1, member.2.strip) := by
  induction members with
  | nil => rfl
  | cons member rest ih =>
      rw [stripMembers, ih]
      cases hname : isDiagnostic member.1 with
      | true => simp [hname]
      | false => simp [hname]

theorem mem_stripMembers {members : List (String × Json)} {member : String × Json}
    (h : member ∈ stripMembers members) :
    ∃ original ∈ members, member = (original.1, original.2.strip) := by
  rw [stripMembers_eq] at h
  obtain ⟨original, hkept, rfl⟩ := List.mem_map.mp h
  exact ⟨original, (List.mem_filter.mp hkept).1, rfl⟩

theorem ordered_stripMembers {members : List (String × Json)} (h : Table.Ordered members) :
    Table.Ordered (stripMembers members) := by
  rw [stripMembers_eq]
  exact List.pairwise_map.mpr (h.filter _)

theorem isExact_strip (value : Json) (h : value.isExact = true) : value.strip.isExact = true := by
  induction value using Json.induction with
  | arr items ih =>
      rw [strip, stripItems_eq_map, isExact_arr_iff, List.forall_mem_map]
      exact fun item hitem => ih item hitem (isExact_arr_iff.mp h item hitem)
  | obj members ih =>
      obtain ⟨hordered, hmembers⟩ := isExact_obj_iff.mp h
      rw [strip, isExact_obj_iff]
      refine ⟨ordered_stripMembers hordered, fun member hmember => ?_⟩
      obtain ⟨original, horiginal, rfl⟩ := mem_stripMembers hmember
      exact ih original horiginal (hmembers original horiginal)
  | _ => exact h

/-- Stripping a value makes it no deeper. -/
theorem nesting_strip_le (value : Json) : value.strip.nesting ≤ value.nesting := by
  induction value using Json.induction with
  | arr items ih =>
      rw [strip, stripItems_eq_map, nesting, nesting]
      apply Nat.succ_le_succ
      rw [itemsNesting_le_iff, List.forall_mem_map]
      exact fun item hitem =>
        (ih item hitem).trans (itemsNesting_le_iff.mp le_rfl item hitem)
  | obj members ih =>
      rw [strip, nesting, nesting]
      apply Nat.succ_le_succ
      rw [membersNesting_le_iff]
      intro member hmember
      obtain ⟨original, horiginal, rfl⟩ := mem_stripMembers hmember
      exact (ih original horiginal).trans (membersNesting_le_iff.mp le_rfl original horiginal)
  | _ => exact le_rfl

end Gatehouse.Json
