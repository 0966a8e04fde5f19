import Gatehouse.Json.Document
import Gatehouse.Json.Fault
import Gatehouse.Number.Shortest
import Gatehouse.Text.Quoted

/-!
# Misfits

Why a document does not fit the type that it is decoded into, and how that is said.
-/

namespace Gatehouse.Json

/-- Where a document comes from; it decides a few details of what is accepted and said. -/
inductive Notation where
  /-- A structured value. -/
  | value
  /-- A configuration document with tables. -/
  | tables
  deriving DecidableEq, Repr

/-- What was found in place of the expected. -/
inductive Found where
  | null
  | bool (b : Bool)
  | int (i : Int)
  | float (x : Double)
  | text (s : String)
  | list
  | table
  deriving DecidableEq, Repr

def Document.found : Document → Found
  | .null => .null
  | .bool b => .bool b
  | .int i => .int i
  | .float x => .float x
  | .text s => .text s
  | .list _ => .list
  | .table _ | .inlineTable _ | .moment _ => .table

def Found.message (origin : Notation) : Found → String
  | .null => "null"
  | .bool b => s!"boolean `{b}`"
  | .int i => s!"integer `{i}`"
  | .float (.finite x) =>
    if origin = .tables then s!"floating point `{x.positionalText}`"
    else s!"floating point `{x.compactText}`"
  | .float x => s!"floating point `{x.positionalText}`"
  | .text s => s!"string {Text.quoted s}"
  | .list => "sequence"
  | .table => "map"

/-- Why a document does not fit. -/
inductive Misfit where
  | wrongType (found : Found) (expected : String)
  | wrongValue (found : Found) (expected : String)
  | wrongLength (length : Nat) (expected : String)
  | unknownVariant (name : String) (expected : List String)
  | unknownField (name : String) (expected : List String)
  | missingField (name : String)
  | duplicateField (name : String)
  /-- None of the shapes that a value may have is that of the document. -/
  | noAlternative (choice : String)
  /-- A configuration document misses the shape of a choice; its wording is left open. -/
  | notChoice
  deriving DecidableEq, Repr

def alternatives : List String → String
  | [] => "there are no alternatives"
  | [a] => s!"expected `{a}`"
  | [a, b] => s!"expected `{a}` or `{b}`"
  | names => "expected one of " ++ ", ".intercalate (names.map fun n => s!"`{n}`")

def Misfit.message (origin : Notation) : Misfit → String
  | .wrongType found expected =>
    s!"invalid type: {found.message origin}, expected {expected}"
  | .wrongValue found expected =>
    s!"invalid value: {found.message origin}, expected {expected}"
  | .wrongLength n expected => s!"invalid length {n}, expected {expected}"
  | .unknownVariant name expected => s!"unknown variant `{name}`, {alternatives expected}"
  | .unknownField name expected => s!"unknown field `{name}`, {alternatives expected}"
  | .missingField name => s!"missing field `{name}`"
  | .duplicateField name => s!"duplicate field `{name}`"
  | .noAlternative choice => s!"data did not match any variant of untagged enum {choice}"
  | .notChoice => "malformed document"

/-- What ends the reading of a text: it is malformed, or it does not fit. -/
inductive DecodeError where
  | fault (fault : Fault)
  | misfit (misfit : Misfit) (place : Place)
  deriving DecidableEq, Repr

namespace DecodeError

def message : DecodeError → String
  | .fault f => f.message
  | .misfit m _ => m.message .value

def placedMessage : DecodeError → String
  | .fault f => f.message
  | .misfit m p => m.message .value ++ p.suffix

/-- Puts a misfit that has no place yet at `place`. -/
def placedAt (place : Place) : DecodeError → DecodeError
  | .misfit m p => .misfit m (if p = .nowhere then place else p)
  | .fault f => .fault f

end DecodeError

end Gatehouse.Json
