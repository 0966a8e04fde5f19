import Gatehouse.Policy.Rules
import Gatehouse.Proofs.Text.Split
import Gatehouse.Proofs.Text.Trim

/-!
# Lists of properties

A list of properties is written as items between commas.  An item names the property that stands
between its blanks, and an item of blanks names none.  So a list that goes on behind a comma names
the properties of both its parts, and whatever blanks and empty items properties are written with,
they are read back as they are.
-/

namespace Gatehouse.Policy

/-- A property that a list can name: there is something to it, it holds no comma, and no blank
stands at its ends. -/
structure IsProperty (property : String) : Prop where
  named : property ≠ ""
  whole : ',' ∉ property.toList
  tight : Text.IsTight property.toList

/-- The items name these properties, in this order. -/
inductive ItemsName : List String → List String → Prop where
  | nil : ItemsName [] []
  /-- An item of blanks names nothing. -/
  | blank {item : String} {items properties : List String} (hitem : Text.Blanks item.toList)
      (h : ItemsName items properties) : ItemsName (item :: items) properties
  /-- A property is named with blanks around it. -/
  | named {lead property trail : String} {items properties : List String}
      (hlead : Text.Blanks lead.toList) (htrail : Text.Blanks trail.toList)
      (h : ItemsName items properties) :
      ItemsName ((lead ++ property ++ trail) :: items) (property :: properties)

/-! ## Items -/

def propertiesOf (items : List String) : List String :=
  (items.map Text.trim).filter (!·.isEmpty)

variable {item property : String} {items properties : List String}

theorem propertiesOf_append (items more : List String) :
    propertiesOf (items ++ more) = propertiesOf items ++ propertiesOf more := by
  rw [propertiesOf, List.map_append, List.filter_append]
  rfl

theorem propertiesOf_blank (h : Text.trim item = "") (items : List String) :
    propertiesOf (item :: items) = propertiesOf items := by
  simp [propertiesOf, h]

theorem propertiesOf_named (h : Text.trim item = property) (hnamed : property ≠ "")
    (items : List String) : propertiesOf (item :: items) = property :: propertiesOf items := by
  simp [propertiesOf, h, hnamed]

/-- Any items name the properties that are left of them. -/
theorem itemsName_propertiesOf (items : List String) : ItemsName items (propertiesOf items) := by
  induction items with
  | nil => exact .nil
  | cons item items ih =>
      obtain ⟨property, htrim⟩ : ∃ property, Text.trim item = property := ⟨_, rfl⟩
      obtain ⟨lead, trail, hlead, htrail, hitem⟩ := (Text.trim_eq_iff.mp htrim).around
      by_cases hnamed : property = ""
      · subst hnamed
        rw [propertiesOf_blank htrim]
        apply ItemsName.blank _ ih
        rw [hitem, String.toList_empty, List.append_nil]
        exact List.forall_mem_append.mpr ⟨hlead, htrail⟩
      · have hwritten : item = String.ofList lead ++ property ++ String.ofList trail := by
          rw [← String.toList_inj, String.toList_append, String.toList_append,
            String.toList_ofList, String.toList_ofList]
          exact hitem
        rw [propertiesOf_named htrim hnamed, hwritten]
        apply ItemsName.named _ _ ih
        · rwa [String.toList_ofList]
        · rwa [String.toList_ofList]

theorem ItemsName.propertiesOf_eq (h : ItemsName items properties)
    (hproperties : ∀ property ∈ properties, IsProperty property) :
    propertiesOf items = properties := by
  induction h with
  | nil => rfl
  | blank hitem _ ih => rw [propertiesOf_blank (Text.trim_eq_empty hitem), ih hproperties]
  | @named lead property trail items properties hlead htrail _ ih =>
      obtain ⟨hproperty, hrest⟩ := List.forall_mem_cons.mp hproperties
      have htrim : Text.trim (lead ++ property ++ trail) = property := by
        apply Text.trim_eq_iff.mpr
        refine ⟨⟨lead.toList, trail.toList, hlead, htrail, ?_⟩, hproperty.tight⟩
        rw [String.toList_append, String.toList_append]
      rw [propertiesOf_named htrim hproperty.named, ih hrest]

theorem isProperty_of_mem (hitems : ∀ item ∈ items, ',' ∉ item.toList)
    (h : property ∈ propertiesOf items) : IsProperty property := by
  obtain ⟨hmem, hnamed⟩ := List.mem_filter.mp h
  obtain ⟨item, hitem, htrim⟩ := List.mem_map.mp hmem
  have htrims := Text.trim_eq_iff.mp htrim
  refine ⟨by simpa using hnamed, fun hcomma => hitems item hitem ?_, htrims.tight⟩
  obtain ⟨lead, trail, -, -, hwritten⟩ := htrims.around
  rw [hwritten]
  exact List.mem_append_left _ (List.mem_append_right _ hcomma)

/-- A comma is no blank, so none is in an item unless it is in the property. -/
theorem ItemsName.comma_not_mem (h : ItemsName items properties)
    (hproperties : ∀ property ∈ properties, IsProperty property) :
    ∀ item ∈ items, ',' ∉ item.toList := by
  have hblanks : ∀ cs, Text.Blanks cs → ',' ∉ cs := fun cs hcs hcomma =>
    absurd (hcs ',' hcomma) (by decide)
  induction h with
  | nil => exact List.forall_mem_nil _
  | blank hitem _ ih => exact List.forall_mem_cons.mpr ⟨hblanks _ hitem, ih hproperties⟩
  | named hlead htrail _ ih =>
      obtain ⟨hproperty, hrest⟩ := List.forall_mem_cons.mp hproperties
      refine List.forall_mem_cons.mpr ⟨?_, ih hrest⟩
      rw [String.toList_append, String.toList_append, List.mem_append, List.mem_append, not_or,
        not_or]
      exact ⟨⟨hblanks _ hlead, hproperty.whole⟩, hblanks _ htrail⟩

/-! ## Lists -/

theorem parseProperties_append (front behind : String) :
    parseProperties (front ++ "," ++ behind) =
      parseProperties front ++ parseProperties behind := by
  calc parseProperties (front ++ "," ++ behind)
      = propertiesOf (Text.split ',' front ++ Text.split ',' behind) :=
        congrArg propertiesOf (Text.split_append ',' front behind)
    _ = parseProperties front ++ parseProperties behind := propertiesOf_append _ _

theorem isProperty_of_mem_parseProperties {list : String} (h : property ∈ parseProperties list) :
    IsProperty property :=
  isProperty_of_mem (fun _ hitem => Text.not_mem_of_mem_split hitem) h

/-- However properties are written, they are read back as they are. -/
theorem ItemsName.parseProperties_eq (h : ItemsName items properties)
    (hproperties : ∀ property ∈ properties, IsProperty property) :
    parseProperties (",".intercalate items) = properties := by
  cases items with
  | nil =>
      cases h
      rfl
  | cons item items =>
      have hsplit := Text.split_intercalate (List.cons_ne_nil item items)
        (h.comma_not_mem hproperties)
      calc parseProperties (",".intercalate (item :: items))
          = propertiesOf (item :: items) := congrArg propertiesOf hsplit
        _ = properties := h.propertiesOf_eq hproperties

example : parseProperties " NormalUser, , TrustedHost" = ["NormalUser", "TrustedHost"] := by
  decide

/-- Trimming leaves something of every property. -/
theorem IsProperty.trim_ne_empty (h : IsProperty property) : Text.trim property ≠ "" := by
  rw [Text.trim_eq_iff.mpr h.tight.trimsTo]
  exact h.named

end Gatehouse.Policy
