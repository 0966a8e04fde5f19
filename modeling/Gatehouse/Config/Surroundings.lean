import Gatehouse.Config.Dotenv
import Gatehouse.Log

/-!
# Surroundings

A service finds its settings in the files of its working directory and in its environment.  A path
is walked step by step, and only directories can be stepped out of, so a path through something that
is not there names nothing even where its steps cancel.
-/

namespace Gatehouse.Config

/-- What a name stands for in the working directory. -/
inductive Entry where
  | file (bytes : List UInt8)
  | directory
  deriving DecidableEq, Repr

/-- The working directory and the environment. -/
structure Surroundings where
  /-- By the path from the working directory. -/
  files : Table Entry := []
  /-- What is known of other places, by the path from the root. -/
  elsewhere : Table Entry := []
  /-- The variables and their values.  Nothing depends on their order. -/
  environment : List (String × String) := []

/-- Where a walk along a path stands. -/
inductive Spot where
  /-- In or below the working directory, by the names that lead there, the last one first. -/
  | inside (trail : List String)
  /-- Above the working directory. -/
  | above
  /-- At a path from the root. -/
  | rooted (trail : List String)

/-- What stands at a path in a table that may leave out the directories of what it holds. -/
def entryIn? (entries : Table Entry) (path : String) : Option Entry :=
  match Table.get? path entries with
  | some entry => some entry
  | none =>
    if entries.any fun (other, _) => other.startsWith (path ++ "/") then some .directory else none

def Surroundings.entryAt? (around : Surroundings) : Spot → Option Entry
  | .inside [] | .above | .rooted [] => some .directory
  | .inside trail => entryIn? around.files ("/".intercalate trail.reverse)
  | .rooted trail => entryIn? around.elsewhere ("/" ++ "/".intercalate trail.reverse)

/-- The spot that a step leads to.  Above the working directory no names are known. -/
def Spot.step? : Spot → String → Option Spot
  | spot, "" | spot, "." => some spot
  | .inside (_ :: trail), ".." => some (.inside trail)
  | .rooted trail, ".." => some (.rooted trail.tail)
  | _, ".." => some .above
  | .inside trail, name => some (.inside (name :: trail))
  | .rooted trail, name => some (.rooted (name :: trail))
  | .above, _ => none

/-- What a path names, if anything.  Every step, even one that leads nowhere else, is a step from a
directory. -/
def Surroundings.find? (around : Surroundings) (path : String) : Option Entry :=
  let start : Spot := if path.startsWith "/" then .rooted [] else .inside []
  let walk := (Text.split '/' path).foldlM (fun spot step =>
    if around.entryAt? spot = some .directory then spot.step? step else none) start
  if path.isEmpty then none else walk.bind around.entryAt?

/-- What follows the last point of a file's name.  A point at its start does not count. -/
def extension? (path : String) : Option String :=
  let steps := (Text.split '/' path).filter fun step => !step.isEmpty && step != "."
  match Text.cutAtLast? ['.'] (steps.getLastD "").toList with
  | some (_ :: _, after) => some (String.ofList after)
  | _ => none

/-! ## Environment files -/

def dotenvName : String := ".env"

/-- Reads the environment file into the environment; a file that is given up is reported. -/
def Surroundings.withDotenv (around : Surroundings) : Surroundings × Log :=
  match Table.get? dotenvName around.files with
  | some (.file bytes) =>
    let (environment, trouble) := Dotenv.apply around.environment bytes
    ({ around with environment }, match trouble with
      | some t => [.warn "Ignoring unreadable .env file" [("error", t.message)]]
      | none => [])
  | _ => (around, [])

end Gatehouse.Config
