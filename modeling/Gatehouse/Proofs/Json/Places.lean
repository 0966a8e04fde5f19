import Gatehouse.Proofs.Json.Exact
import Gatehouse.Proofs.Json.Strip

/-!
# Places in a value

A path goes down from a value, by names through objects and by positions through lists.  Stripping
closes the paths that cross a diagnostic member and no others: every other path leads where it led
before, to a part of the same shape that is stripped as well.
-/

namespace Gatehouse.Json

/-! ## Paths -/

/-- A step from a value to one of its parts. -/
inductive Step where
  | member (name : String)
  | item (position : Nat)
  deriving DecidableEq, Repr

def part? : Json → Step → Option Json
  | .obj members, .member name => Table.get? name members
  | .arr items, .item position => items[position]?
  | _, _ => none

def at? (value : Json) : List Step → Option Json
  | [] => some value
  | step :: path => (value.part? step).bind fun part => part.at? path

def Step.isDiagnostic : Step → Bool
  | .member name => Json.isDiagnostic name
  | .item _ => false

def crossesDiagnostics (path : List Step) : Bool := path.any Step.isDiagnostic

/-- A step leads to the stripped part, unless it goes to a member that is removed. -/
theorem part?_strip (value : Json) (step : Step) :
    value.strip.part? step =
      if step.isDiagnostic then none else (value.part? step).map strip := by
  cases value with
  | obj members =>
      cases step with
      | member name =>
          change Table.get? name (stripMembers members) = _
          rw [stripMembers_eq, Table.get?_map,
            Table.get?_filter (fun name => !isDiagnostic name)]
          change Option.map strip (if !isDiagnostic name then _ else _) =
            if isDiagnostic name then none else Option.map strip (Table.get? name members)
          cases isDiagnostic name <;> rfl
      | item position => rfl
  | arr items =>
      cases step with
      | member name => exact (ite_self none).symm
      | item position =>
          change (stripItems items)[position]? = items[position]?.map strip
          rw [stripItems_eq_map, List.getElem?_map]
  | _ => exact (ite_self none).symm

theorem at?_strip (value : Json) (path : List Step) :
    value.strip.at? path =
      if crossesDiagnostics path then none else (value.at? path).map strip := by
  induction path generalizing value with
  | nil => rfl
  | cons step path ih =>
      rw [at?, at?, part?_strip, crossesDiagnostics, List.any_cons]
      cases step.isDiagnostic with
      | true => rfl
      | false =>
          cases value.part? step with
          | none => exact (ite_self none).symm
          | some part => exact ih part

/-! ## Shapes -/

/-- What a value is when one does not look into its parts. -/
inductive Shape where
  | scalar (value : Json)
  | list (length : Nat)
  | object (names : List String)

/-- The shape of a value: a scalar is its own. -/
def shape : Json → Shape
  | .arr items => .list items.length
  | .obj members => .object (Table.names members)
  | value => .scalar value

def Shape.strip : Shape → Shape
  | .object names => .object (names.filter fun name => !isDiagnostic name)
  | shape => shape

theorem shape_strip (value : Json) : value.strip.shape = value.shape.strip := by
  cases value with
  | arr items =>
      rw [Json.strip, stripItems_eq_map, shape, List.length_map]
      rfl
  | obj members =>
      change Shape.object ((stripMembers members).map Prod.fst) =
        .object ((members.map Prod.fst).filter fun name => !isDiagnostic name)
      rw [stripMembers_eq, List.map_map, List.filter_map]
      rfl
  | _ => rfl

/-! ## What stripping removes -/

/-- Stripping leaves no diagnostic member and changes nothing where there is none.  A path through a
diagnostic member leads nowhere any more; any other leads somewhere exactly if it did before, and
then to the stripped part, with as many items as the part had, with all its other names, or the same
scalar. -/
theorem only_diagnostics_are_stripped (value : Json) :
    value.strip.hasDiagnostics = false ∧
    (value.strip = value ↔ value.hasDiagnostics = false) ∧
    value.strip.strip = value.strip ∧
    ∀ path, if crossesDiagnostics path then value.strip.at? path = none
      else value.strip.at? path = (value.at? path).map strip ∧
        (value.strip.at? path).map shape = (value.at? path).map fun part => part.shape.strip := by
  refine ⟨hasDiagnostics_strip value, ⟨fun hsame => ?_, strip_of_clean value⟩, strip_strip value,
    fun path => ?_⟩
  · rw [← hsame]
    exact hasDiagnostics_strip value
  · rw [at?_strip]
    cases crossesDiagnostics path with
    | true => rfl
    | false =>
        refine ⟨rfl, ?_⟩
        change Option.map shape (Option.map strip (value.at? path)) = _
        rw [Option.map_map]
        exact congrArg (Option.map · (value.at? path)) (funext shape_strip)

end Gatehouse.Json
