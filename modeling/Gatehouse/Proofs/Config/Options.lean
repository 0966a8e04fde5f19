import Gatehouse.Config.Options
import Gatehouse.Proofs.Text.Split
import Mathlib.Logic.Relation

/-!
# Options by their paths

An option is found by going down from the root, one name of its path after another.  So a path that
goes on behind another is followed from where the other has led to, empty segments lead nowhere, and
the options of components are those of the object that holds the components.
-/

namespace Gatehouse.Config

open Relation (EqvGen)

/-! ## The names on a path -/

theorem pathSegments_append (path rest : String) :
    pathSegments (path ++ "/" ++ rest) = pathSegments path ++ pathSegments rest := by
  have hsplit : Text.split '/' (path ++ "/" ++ rest) = Text.split '/' path ++ Text.split '/' rest :=
    Text.split_append '/' path rest
  rw [pathSegments, pathSegments, pathSegments, hsplit, List.filter_append]

theorem pathSegments_empty : pathSegments "" = [] := rfl

/-- The second path is the first with one more empty segment. -/
inductive AddsEmptySegment : String → String → Prop where
  | leading (path : String) : AddsEmptySegment path ("/" ++ path)
  | trailing (path : String) : AddsEmptySegment path (path ++ "/")
  | between (path rest : String) : AddsEmptySegment (path ++ "/" ++ rest) (path ++ "//" ++ rest)

theorem AddsEmptySegment.pathSegments_eq {path path' : String} (h : AddsEmptySegment path path') :
    pathSegments path' = pathSegments path := by
  cases h with
  | leading =>
      have hempty := pathSegments_append "" path
      rwa [String.empty_append] at hempty
  | trailing =>
      have hempty := pathSegments_append path ""
      rwa [String.append_empty, pathSegments_empty, List.append_nil] at hempty
  | between path rest =>
      have hpath : path ++ "//" ++ rest = path ++ "/" ++ "" ++ "/" ++ rest := by
        simp [← String.toList_inj]
      rw [hpath, pathSegments_append, pathSegments_append, pathSegments_append,
        pathSegments_empty, List.append_nil]

/-- Empty segments do not count. -/
theorem pathSegments_eq_of_eqvGen {path path' : String} (h : EqvGen AddsEmptySegment path path') :
    pathSegments path = pathSegments path' := by
  induction h with
  | rel _ _ h => exact h.pathSegments_eq.symm
  | refl => rfl
  | symm _ _ _ ih => exact ih.symm
  | trans _ _ _ _ _ ih ih' => exact ih.trans ih'

/-- Names that can stand on a path stand on the path that is joined from them. -/
theorem pathSegments_intercalate {names : List String}
    (h : ∀ name ∈ names, name ≠ "" ∧ '/' ∉ name.toList) :
    pathSegments ("/".intercalate names) = names := by
  cases names with
  | nil => rfl
  | cons first rest =>
      have hsplit : Text.split '/' ("/".intercalate (first :: rest)) = first :: rest :=
        Text.split_intercalate (List.cons_ne_nil first rest) fun name hname => (h name hname).2
      rw [pathSegments, hsplit, List.filter_eq_self]
      intro name hname
      simpa using (h name hname).1

/-- A path has a name on it unless it consists of slashes. -/
theorem pathSegments_eq_nil_iff {path : String} :
    pathSegments path = [] ↔ ∀ c ∈ path.toList, c = '/' := by
  rw [← Text.forall_mem_splitOn_eq_nil_iff, pathSegments, Text.split, Text.splitChars_eq_splitOn,
    List.filter_eq_nil_iff, List.forall_mem_map]
  simp

/-! ## Going down -/

/-- A value is reached along names, each of which names a member of an object on the way. -/
inductive Leads : Json → List String → Json → Prop where
  | here (value : Json) : Leads value [] value
  | member {members : Json.Object} {name : String} {names : List String} {child value : Json}
      (found : Table.get? name members = some child) (h : Leads child names value) :
      Leads (.obj members) (name :: names) value

theorem descend_eq_some_iff {names : List String} {tree value : Json} :
    descend names tree = some value ↔ Leads tree names value := by
  constructor
  · intro h
    induction names generalizing tree with
    | nil =>
        cases h
        exact .here value
    | cons name names ih =>
        cases tree with
        | obj members =>
            obtain ⟨child, hfound, hrest⟩ := Option.bind_eq_some_iff.mp h
            exact .member hfound (ih hrest)
        | _ => cases h
  · intro h
    induction h with
    | here value => rfl
    | member found _ ih => exact Option.bind_eq_some_iff.mpr ⟨_, found, ih⟩

theorem descend_append (front behind : List String) (tree : Json) :
    descend (front ++ behind) tree = (descend front tree).bind (descend behind) := by
  induction front generalizing tree with
  | nil => rfl
  | cons name front ih =>
      cases tree with
      | obj members =>
          rw [List.cons_append, descend, descend, Option.bind_assoc]
          exact Option.bind_congr fun child _ => ih child
      | _ => rfl

/-! ## Looking up -/

namespace OptionSource

variable {root : Json} {members : Json.Object}

theorem lookup_tree (root : Json) (path : String) :
    (tree root).lookup path = descend (pathSegments path) root := rfl

theorem lookup_components (members : Json.Object) (path : String) :
    (components members).lookup path =
      if pathSegments path = [] then none else descend (pathSegments path) (.obj members) := by
  unfold lookup
  cases pathSegments path with
  | nil => rfl
  | cons name names => rfl

/-- The options of components are those of the object that holds them, as far as a path names
any. -/
theorem lookup_components_of_named {path : String} (h : pathSegments path ≠ []) :
    (components members).lookup path = (tree (.obj members)).lookup path := by
  rw [lookup_components, if_neg h, lookup_tree]

theorem lookup_eq_of_pathSegments_eq (source : OptionSource) {path path' : String}
    (h : pathSegments path = pathSegments path') : source.lookup path = source.lookup path' := by
  cases source with
  | tree root => rw [lookup_tree, lookup_tree, h]
  | components members => rw [lookup_components, lookup_components, h]

theorem lookup_tree_append (root : Json) (path rest : String) :
    (tree root).lookup (path ++ "/" ++ rest) =
      ((tree root).lookup path).bind fun found => (tree found).lookup rest := by
  rw [lookup_tree, pathSegments_append, descend_append]
  rfl

theorem lookup_components_append {path : String} (h : pathSegments path ≠ []) (rest : String) :
    (components members).lookup (path ++ "/" ++ rest) =
      ((components members).lookup path).bind fun found => (tree found).lookup rest := by
  have hnamed : pathSegments (path ++ "/" ++ rest) ≠ [] := by
    rw [pathSegments_append]
    exact List.append_ne_nil_of_left_ne_nil h _
  rw [lookup_components_of_named hnamed, lookup_components_of_named h, lookup_tree_append]

/-! ## The option of a component -/

/-- The paths at which the option of a component is looked for, in their order. -/
def optionPaths (system handler name : String) : List String :=
  if ['/'] <+: name.toList then [name]
  else [system ++ "/" ++ handler ++ "/" ++ name, system ++ "/" ++ name]

theorem componentOption_eq (source : OptionSource) (system handler name : String)
    (default : Json) : source.componentOption system handler name default =
      ((optionPaths system handler name).findSome? source.lookup).getD default := by
  have habsolute : name.startsWith "/" = true ↔ ['/'] <+: name.toList :=
    String.startsWith_string_iff
  rw [componentOption, optionPaths]
  by_cases h : ['/'] <+: name.toList
  · rw [if_pos (habsolute.mpr h), if_pos h, List.findSome?_singleton]
    rfl
  · rw [if_neg fun hstarts => h (habsolute.mp hstarts), if_neg h, List.findSome?_cons,
      List.findSome?_singleton]
    change (source.lookup (system ++ "/" ++ handler ++ "/" ++ name) <|>
      source.lookup (system ++ "/" ++ name)).getD default = _
    cases source.lookup (system ++ "/" ++ handler ++ "/" ++ name) with
    | none => rfl
    | some value => rfl

/-! ## What is found -/

/-- Empty segments of a path make no difference.  In a tree a value is found along the names of its
path, and behind a path it is found in the value that the path leads to.  The options of components
are those of the object that holds the components for the paths that have a name on them, and for no
others.  A component has the first option that is found at its paths, whatever its value is, and the
default where there is none. -/
theorem options_are_found_along_their_paths :
    (∀ (source : OptionSource) path path', EqvGen AddsEmptySegment path path' →
      source.lookup path = source.lookup path') ∧
    (∀ root names value, (∀ name ∈ names, name ≠ "" ∧ '/' ∉ name.toList) →
      ((tree root).lookup ("/".intercalate names) = some value ↔ Leads root names value)) ∧
    (∀ root path rest, (tree root).lookup (path ++ "/" ++ rest) =
      ((tree root).lookup path).bind fun found => (tree found).lookup rest) ∧
    (∀ members path, (components members).lookup path = (tree (.obj members)).lookup path ↔
      ∃ c ∈ path.toList, c ≠ '/') ∧
    (∀ members path rest, (∃ c ∈ path.toList, c ≠ '/') →
      (components members).lookup (path ++ "/" ++ rest) =
        ((components members).lookup path).bind fun found => (tree found).lookup rest) ∧
    ∀ (source : OptionSource) system handler name default,
      source.componentOption system handler name default =
        ((optionPaths system handler name).findSome? source.lookup).getD default := by
  have hnamed : ∀ path, (∃ c ∈ path.toList, c ≠ '/') ↔ pathSegments path ≠ [] := by
    intro path
    rw [ne_eq, pathSegments_eq_nil_iff]
    simp
  refine ⟨fun source path path' h => ?_, fun root names value hnames => ?_, lookup_tree_append,
    fun members path => ?_, fun members path rest h => ?_, componentOption_eq⟩
  · exact source.lookup_eq_of_pathSegments_eq (pathSegments_eq_of_eqvGen h)
  · rw [lookup_tree, pathSegments_intercalate hnames, descend_eq_some_iff]
  · rw [hnamed]
    refine ⟨fun hsame hunnamed => ?_, lookup_components_of_named⟩
    rw [lookup_components, if_pos hunnamed, lookup_tree, hunnamed] at hsame
    cases hsame
  · exact lookup_components_append ((hnamed path).mp h) rest

def countingOptions : Json.Object := [("Framework", .obj [
  ("Counting", .obj [("MaxListing", .int 50), ("Site", .null)]),
  ("MaxListing", .int 5), ("Site", .str "CERN"), ("Timeout", .int 10)])]

/-- The empty path names nothing among the options of components, and yet what is behind it is
found. -/
theorem option_behind_empty_path_is_found :
    (components countingOptions).lookup "" = none ∧
    (components countingOptions).lookup ("" ++ "/" ++ "Framework/Timeout") = some (.int 10) := by
  have hnames : pathSegments ("" ++ "/" ++ "Framework/Timeout") = ["Framework", "Timeout"] := by
    decide
  constructor
  · rw [lookup_components, if_pos pathSegments_empty]
  · rw [lookup_components, hnames]
    rfl

/-- An option that is null is found, and hides that of the system. -/
theorem null_option_hides_that_of_system :
    (components countingOptions).lookup "//Framework/Counting/Site/" = some .null ∧
    (components countingOptions).componentOption "Framework" "Counting" "Site" (.str "none") =
      .null := by
  obtain ⟨hempty, hfound, -, hsame, hbehind, hoption⟩ := options_are_found_along_their_paths
  have hnames : ∀ name ∈ ["Framework", "Counting", "Site"], name ≠ "" ∧ '/' ∉ name.toList := by
    decide
  have hleads : Leads (.obj countingOptions) ["Framework", "Counting", "Site"] .null :=
    .member rfl (.member rfl (.member rfl (.here .null)))
  have hlookup : (components countingOptions).lookup "Framework/Counting/Site" = some .null := by
    rw [(hsame countingOptions "Framework/Counting/Site").mpr ⟨'F', by decide, by decide⟩]
    exact (hfound (.obj countingOptions) _ _ hnames).mpr hleads
  have hslashes : EqvGen AddsEmptySegment "Framework/Counting/Site"
      "//Framework/Counting/Site/" :=
    .trans _ _ _ (.rel _ _ (.leading _)) (.trans _ _ _ (.rel _ _ (.leading _))
      (.rel _ _ (.trailing _)))
  refine ⟨(hempty _ _ _ hslashes).symm.trans hlookup, ?_⟩
  have hpaths : optionPaths "Framework" "Counting" "Site" =
      ["Framework/Counting/Site", "Framework/Site"] := by decide
  rw [hoption, hpaths, List.findSome?_cons, hlookup]
  rfl

end OptionSource

end Gatehouse.Config
