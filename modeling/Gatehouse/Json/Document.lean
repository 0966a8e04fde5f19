import Gatehouse.Json.Basic

/-!
# Documents

A document is what a structured text says before anything is made of it: an object still has its
members in the order of the text, with the names that occur twice, and a number may be one that no
structured value has.
-/

namespace Gatehouse.Json

/-- A value as it is written. -/
inductive Document where
  | null
  | bool (b : Bool)
  | int (i : Int)
  | float (x : Double)
  | text (s : String)
  | list (items : List Document)
  | table (members : List (String × Document))
  /-- A table that is written as a value. -/
  | inlineTable (members : List (String × Document))
  /-- A date, a time or both. -/
  | moment (text : String)

mutual

def toDocument : Json → Document
  | .null => .null
  | .bool b => .bool b
  | .int i => .int i
  | .float x => .float (.finite x)
  | .str s => .text s
  | .arr items => .list (toDocuments items)
  | .obj members => .table (toEntries members)

def toDocuments : List Json → List Document
  | [] => []
  | item :: rest => toDocument item :: toDocuments rest

def toEntries : List (String × Json) → List (String × Document)
  | [] => []
  | (name, value) :: rest => (name, toDocument value) :: toEntries rest

end

namespace Document

/-- The name of the only member of a point of time. -/
def momentMember : String := "$__toml_private_datetime"

def members? : Document → Option (List (String × Document))
  | .table members | .inlineTable members => some members
  | .moment written => some [(momentMember, .text written)]
  | _ => none

mutual

/-- The value of a document.  Of several members with one name the last counts, and a number that
is not finite has no value. -/
def toJson : Document → Json
  | .null => .null
  | .bool b => .bool b
  | .int i => .int i
  | .float (.finite x) => .float x
  | .float _ => .null
  | .text s => .str s
  | .list items => .arr (toValues items)
  | .table members | .inlineTable members => .obj (toObject [] members)
  | .moment written => .obj [(momentMember, .str written)]

def toValues : List Document → List Json
  | [] => []
  | item :: rest => toJson item :: toValues rest

def toObject (bound : Object) : List (String × Document) → Object
  | [] => bound
  | (name, value) :: rest => toObject (Table.insert name (toJson value) bound) rest

end

end Document

end Gatehouse.Json
