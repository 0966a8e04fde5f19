import Gatehouse.Json.Numeral
import Gatehouse.Json.Quotation

/-!
# Reading values

A text holds one value.  Values nest at most `maxDepth` levels.
-/

namespace Gatehouse.Json

namespace Reader

/-- A value that has no parts; the reader stands on its first byte. -/
def scalar : Reader Document := do
  match ← peek with
  | some 110 =>
    word [110, 117, 108, 108]
    return .null
  | some 116 =>
    word [116, 114, 117, 101]
    return .bool true
  | some 102 =>
    word [102, 97, 108, 115, 101]
    return .bool false
  | some 45 =>
    skip
    number false
  | some 34 =>
    skip
    return .text (← quoted)
  | some b => if isDigit b then number true else failAfter .expectedValue
  | none => failAfter .endInValue

def entriesOf (value : Reader α) : Reader (List (String × α)) := do
  let member (before : List (String × α)) : Reader (List (String × α)) := do
    let name ← quoted
    colon
    return (name, ← value) :: before
  return (← members member []).reverse

/-- A value of at most `levels` levels, which bounds the recursion only: the cursor counts the
brackets, and refuses the last level's. -/
def documentWithin : Nat → Reader Document
  | 0 => failAfter .tooDeep
  | levels + 1 => do
    match ← first with
    | 91 => return .list (← inList (items (documentWithin levels)))
    | 123 => return .table (← inObject (entriesOf (documentWithin levels)))
    | _ => scalar

def document : Reader Document := documentWithin (maxDepth + 1)

def entries : Reader (List (String × Document)) := entriesOf document

def value : Reader Json := return (← document).toJson

end Reader

/-- The value of a text. -/
def read (bytes : List UInt8) : Except DecodeError Json := Reader.value.run bytes

def readText (s : String) : Except DecodeError Json := read (Text.Utf8.encode s)

end Gatehouse.Json
