import Gatehouse.Json.Decode
import Gatehouse.Json.Skip

/-!
# Records

A record type is described once, as a list of fields.  It is decoded from an object or, field by
field, from a list; an object may leave fields out and may have other members, as far as the
description says so.
-/

namespace Gatehouse.Json

/-- One field of a record that is built up in `σ`. -/
structure Slot (σ : Type) where
  name : String
  /-- Makes the field of a document. -/
  take : Notation → σ → Document → Except Misfit σ
  /-- Reads the field off a text. -/
  read : σ → Reader σ
  /-- Whether an object without the field is refused. -/
  required : Bool := false
  /-- Whether a list may end before the field. -/
  omissible : Bool := true

namespace Slot

/-- A field that `put` stores. -/
def of (name : String) (d : Decoder α) (put : σ → α → σ) : Slot σ where
  name := name
  take origin s document := (d.take origin document).map (put s)
  read s := put s <$> d.read

def require (f : Slot σ) : Slot σ := { f with required := true, omissible := false }

/-- A field of an optional value, which an object may leave out but a list may not. -/
def optional (f : Slot σ) : Slot σ := { f with omissible := false }

end Slot

/-- What happens to the members of an object that are no fields. -/
inductive Others (σ : Type) where
  | refused
  | passed
  | kept (put : σ → String → Json → σ)

/-- A record type. -/
structure RecordShape (σ : Type) where
  name : String
  fields : List (Slot σ)
  others : Others σ := .refused
  /-- Whether the fields may also be given as a list. -/
  listed : Bool := true

namespace RecordShape

variable {σ : Type} (shape : RecordShape σ)

def names : List String := shape.fields.map (·.name)

def title : String := s!"struct {shape.name}"

def lengthTitle : String :=
  let n := shape.fields.length
  let noun := if n = 1 then "element" else "elements"
  s!"{shape.title} with {n} {noun}"

def field? (name : String) : Option (Slot σ) := shape.fields.find? (·.name == name)

/-- Whether all required fields were seen. -/
def complete (seen : List String) : Except Misfit Unit :=
  match shape.fields.find? fun f => f.required && !seen.contains f.name with
  | some f => .error (.missingField f.name)
  | none => .ok ()

/-! ## From a document -/

def takeMembers (origin : Notation) (seen : List String) (s : σ) :
    List (String × Document) → Except Misfit σ
  | [] => do
    shape.complete seen
    return s
  | (name, value) :: rest =>
    match shape.field? name with
    | some field =>
      if seen.contains name then .error (.duplicateField name)
      else do
        let s ← field.take origin s value
        takeMembers origin (name :: seen) s rest
    | none =>
      match shape.others with
      | .refused => .error (.unknownField name shape.names)
      | .passed => takeMembers origin seen s rest
      | .kept put => takeMembers origin seen (put s name value.toJson) rest

/-- Makes the fields of a list, `position` of them already made. -/
def takeItems (origin : Notation) (position : Nat) (s : σ) :
    List (Slot σ) → List Document → Except Misfit σ
  | [], [] => .ok s
  | [], _ :: rest =>
    match origin with
    | .tables => .ok s
    | .value => .error (.wrongLength (position + 1 + rest.length) "fewer elements in array")
  | field :: fields, [] =>
    if field.omissible then takeItems origin (position + 1) s fields []
    else .error (.wrongLength position shape.lengthTitle)
  | field :: fields, item :: rest => do
    let s ← field.take origin s item
    takeItems origin (position + 1) s fields rest

/-! ## From a text -/

/-- Reads a member, from behind the opening quote of its name. -/
def readMember : List String × σ → Reader (List String × σ)
  | (seen, s) => do
    let name ← Reader.quoted
    match shape.field? name with
    | some field =>
      if seen.contains name then Reader.refuse (.duplicateField name)
      else
        Reader.colon
        return (name :: seen, ← field.read s)
    | none =>
      match shape.others with
      | .refused => Reader.refuse (.unknownField name shape.names)
      | .passed =>
        Reader.colon
        Reader.pass
        return (seen, s)
      | .kept put =>
        Reader.colon
        return (seen, put s name (← Reader.value))

def readMembers (s : σ) : Reader σ := do
  let (seen, s) ← Reader.members shape.readMember ([], s)
  Reader.accept (shape.complete seen)
  return s

def readItems (position : Nat) (s : σ) : List (Slot σ) → Reader σ
  | [] => return s
  | field :: fields => do
    if ← Reader.nextItem (position = 0) then
      let s ← field.read s
      readItems (position + 1) s fields
    else if field.omissible then readItems (position + 1) s fields
    else Reader.refuse (.wrongLength position shape.lengthTitle)

/-- Decodes a record, starting from `start`. -/
def decode (start : σ) : Decoder σ where
  take origin document :=
    match document.members?, document with
    | some members, _ => shape.takeMembers origin [] start members
    | none, .list items =>
      if shape.listed then shape.takeItems origin 0 start shape.fields items
      else wrongType shape.title document
    | none, _ => wrongType shape.title document
  read := do
    match ← Reader.first with
    | 123 => Reader.inObject (shape.readMembers start)
    | 91 =>
      if shape.listed then Reader.inList (shape.readItems 0 start shape.fields)
      else (refusing shape.title).read
    | _ => (refusing shape.title).read

end RecordShape

end Gatehouse.Json
