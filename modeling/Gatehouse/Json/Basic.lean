import Gatehouse.Number.Binary64
import Gatehouse.Table

/-!
# Structured values

`Json` is the value that requests carry, methods return and options hold.  An object keeps its
members in a table, sorted by name without repetition, and reading a text keeps the last of several
members with one name.
-/

namespace Gatehouse

/-- A structured value. -/
inductive Json where
  | null
  | bool (b : Bool)
  /-- An integer of the signed or the unsigned 64-bit range. -/
  | int (i : Int)
  | float (x : Binary64)
  | str (s : String)
  | arr (items : List Json)
  | obj (members : List (String × Json))
  deriving Inhabited

namespace Json

/-- The members of an object, sorted by name. -/
abbrev Object := Table Json

def ofPairs (pairs : List (String × Json)) : Json := .obj (Table.ofList pairs)

def ofStrings (texts : List String) : Json := .arr (texts.map .str)

def ofOption (value : Option Json) : Json := value.getD .null

def str? : Json → Option String
  | .str s => some s
  | _ => none

def arr? : Json → Option (List Json)
  | .arr items => some items
  | _ => none

def obj? : Json → Option Object
  | .obj members => some members
  | _ => none

def isNull : Json → Bool
  | .null => true
  | _ => false

def field? (name : String) : Json → Option Json
  | .obj members => Table.get? name members
  | _ => none

/-- The bounds of the integers a structured value holds. -/
def intInRange (i : Int) : Bool :=
  decide (-Int.pow 2 63 ≤ i ∧ i < Int.pow 2 64)

def double? : Json → Option Binary64
  | .int i => some (Binary64.ofInt i)
  | .float x => some x
  | _ => none

end Json

end Gatehouse
