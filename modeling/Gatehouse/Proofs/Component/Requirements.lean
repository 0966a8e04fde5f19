import Gatehouse.Proofs.Component.Exports
import Gatehouse.Proofs.Policy.Properties
import Gatehouse.Proofs.Policy.Sharing

/-!
# Requirements that are declared by a list

What a method requires may be declared as one text.  The text is read into the properties that it
was written from, so it makes no difference whether these are declared one by one or as a list, and
no list brings in a property for which the rules of a section would be refused.
-/

namespace Gatehouse.Component

open Policy (Directory IsProperty ItemsName PolicyError parseProperties)

/-- A method that nobody holds requires from then on what is declared, and nothing else of it
changes. -/
theorem SharedTable.resolve_declare_auth {σ : Type} {s : SharedTable σ} {name : String}
    (hfree : name ∉ s.held) {method : Method σ} (h : s.table.resolve name = some method)
    (properties : List String) :
    (s.declare name (.auth properties)).table.resolve name =
      some { method with required := some properties } := by
  have hfound : Table.get? name s.table = some method := h
  rw [SharedTable.declare, if_neg hfree]
  calc Table.get? name (s.table.auth name properties)
      = (Table.get? name s.table).map fun m =>
          if name = name then { m with required := some properties } else m :=
        MethodTable.get?_declare s.table name name _
    _ = some { method with required := some properties } := by
        rw [hfound, Option.map_some, if_pos rfl]

/-- A section is refused over a property of which trimming leaves nothing. -/
theorem exists_blank_of_check {ε : Type} {d : Directory ε} {name : String} {e : PolicyError}
    (h : d.check name = .error e) :
    ∃ properties ∈ (d.configured name).lists, ∃ property ∈ properties, Text.trim property = "" := by
  by_cases hblank : (d.configured name).NamesBlank
  · obtain ⟨properties, hmem, hproperty⟩ := hblank
    exact ⟨properties, Policy.Rules.mem_lists_iff.mpr hmem, hproperty⟩
  · rw [Directory.check_of_named hblank] at h
    cases h

/-- A list that goes on behind a comma is read as its parts one after the other; what is read are
properties; and properties are read back from a list however their items are written.  So to declare
such a list is to declare the properties themselves, and where a section is refused, one of its
lists is the reading of no text. -/
theorem lists_declare_their_properties {σ ε : Type} :
    (∀ front behind, parseProperties (front ++ "," ++ behind) =
      parseProperties front ++ parseProperties behind) ∧
    (∀ list, ∀ property ∈ parseProperties list, IsProperty property) ∧
    (∀ items properties, (∀ property ∈ properties, IsProperty property) →
      ItemsName items properties →
      parseProperties (",".intercalate items) = properties ∧
      ∀ (s : SharedTable σ) (name : String),
        s.declare name (.authList (",".intercalate items)) = s.declare name (.auth properties) ∧
        (name ∉ s.held → ∀ method, s.table.resolve name = some method →
          (s.declare name (.authList (",".intercalate items))).table.resolve name =
            some { method with required := some properties })) ∧
    (∀ (d : Directory ε) (name : String) (e : PolicyError), d.check name = .error e →
      ∃ properties ∈ (d.configured name).lists,
        (∃ property ∈ properties, Text.trim property = "") ∧
        ∀ list, parseProperties list ≠ properties) := by
  refine ⟨Policy.parseProperties_append, ?_, ?_, ?_⟩
  · intro list property hproperty
    exact Policy.isProperty_of_mem_parseProperties hproperty
  · intro items properties hproperties hitems
    have hread := hitems.parseProperties_eq hproperties
    have hdeclare : ∀ (s : SharedTable σ) (name : String),
        s.declare name (.authList (",".intercalate items)) =
          s.declare name (.auth properties) := by
      intro s name
      calc s.declare name (.authList (",".intercalate items))
          = s.declare name (.auth (parseProperties (",".intercalate items))) := rfl
        _ = s.declare name (.auth properties) := by rw [hread]
    refine ⟨hread, fun s name => ⟨hdeclare s name, fun hfree method hmethod => ?_⟩⟩
    rw [hdeclare]
    exact SharedTable.resolve_declare_auth hfree hmethod properties
  · intro d name e hrefused
    obtain ⟨properties, hlist, property, hproperty, hblank⟩ := exists_blank_of_check hrefused
    refine ⟨properties, hlist, ⟨property, hproperty, hblank⟩, ?_⟩
    rintro list rfl
    exact (Policy.isProperty_of_mem_parseProperties hproperty).trim_ne_empty hblank

def storeTable : SharedTable Unit :=
  .after [.exported { name := "getFile", call := Work.done .empty }]

/-- A directory with a section whose default is a blank. -/
def blankDirectory : Directory Unit where
  sections := [("Store", { default := [" "] })]

/-- A list with a tab, a no-break space and two items of nothing requires the two properties that
are in it, and a blank default is the reading of no list. -/
theorem spacedList_declares_two_properties :
    (∀ property ∈ ["NormalUser", "Trusted Host"], IsProperty property) ∧
    ItemsName ["\tNormalUser", " ", "Trusted Host\u00a0", ""] ["NormalUser", "Trusted Host"] ∧
    "getFile" ∉ storeTable.held ∧
    (∃ method, storeTable.table.resolve "getFile" = some method ∧
      (storeTable.declare "getFile"
          (.authList "\tNormalUser, ,Trusted Host\u00a0,")).table.resolve "getFile" =
        some { method with required := some ["NormalUser", "Trusted Host"] }) ∧
    blankDirectory.check "Store" = .error (Directory.refusal "Store") ∧
    ∀ list, parseProperties list ≠ [" "] := by
  obtain ⟨-, -, hdeclares, hrefused⟩ := @lists_declare_their_properties Unit Unit
  have hproperties : ∀ property ∈ ["NormalUser", "Trusted Host"], IsProperty property := by
    have hread : parseProperties "NormalUser,Trusted Host" = ["NormalUser", "Trusted Host"] := by
      decide
    rw [← hread]
    exact fun _ hproperty => Policy.isProperty_of_mem_parseProperties hproperty
  have hitems : ItemsName ["\tNormalUser", " ", "Trusted Host\u00a0", ""]
      ["NormalUser", "Trusted Host"] := by
    have hread : Policy.propertiesOf ["\tNormalUser", " ", "Trusted Host\u00a0", ""] =
        ["NormalUser", "Trusted Host"] := by
      decide
    rw [← hread]
    exact Policy.itemsName_propertiesOf _
  have hfree : "getFile" ∉ storeTable.held := List.not_mem_nil
  obtain ⟨-, hdeclared⟩ := hdeclares _ _ hproperties hitems
  obtain ⟨properties, hlist, ⟨property, hproperty, -⟩, hnever⟩ :=
    hrefused blankDirectory "Store" (Directory.refusal "Store") rfl
  refine ⟨hproperties, hitems, hfree, ⟨_, rfl, (hdeclared storeTable "getFile").2 hfree _ rfl⟩,
    rfl, ?_⟩
  -- The lists of the section are its default and nothing more.
  have honly : properties = [" "] := List.mem_singleton.mp hlist
  rwa [honly] at hnever

end Gatehouse.Component
