import Gatehouse.Json.Read

/-!
# Decoders

A decoder makes a domain value of a document, or reads it off a text directly.  Both stop at the
first thing that does not fit.  Reading goes from left to right, so of a fault of the text and a
value of the wrong shape the one that comes first in the text is reported.
-/

namespace Gatehouse.Json

/-- Makes an `α` of a document, and reads one off a text. -/
structure Decoder (α : Type) where
  take : Notation → Document → Except Misfit α
  read : Reader α

namespace Decoder

def run (d : Decoder α) (bytes : List UInt8) : Except DecodeError α := d.read.run bytes

def map (f : α → β) (d : Decoder α) : Decoder β where
  take origin document := (d.take origin document).map f
  read := f <$> d.read

def ofDocument (accept : Document → Except Misfit α) : Decoder α where
  take _ document := accept document
  read := do Reader.accept (accept (← Reader.document))

/-- Judges a value without parts.  In a text, a list or an object is refused before it is
entered. -/
def ofScalar (accept : Document → Except Misfit α) : Decoder α where
  take _ document := accept document
  read := Reader.placed do
    match ← Reader.first with
    | 91 => Reader.accept (accept (.list []))
    | 123 => Reader.accept (accept (.table []))
    | _ => Reader.accept (accept (← Reader.scalar))

/-- Takes what does not fit for nothing. -/
def tolerant (d : Decoder (Option α)) : Decoder (Option α) where
  take origin document :=
    match d.take origin document with
    | .ok a => .ok a
    | .error _ => .ok none
  read := .tolerant d.read

end Decoder

def wrongType (expected : String) (document : Document) : Except Misfit α :=
  .error (.wrongType document.found expected)

def refusing (expected : String) : Decoder α := .ofScalar (wrongType expected)

def decodeString : Decoder String :=
  .ofScalar fun
    | .text s => .ok s
    | document => wrongType "a string" document

def decodeBool : Decoder Bool :=
  .ofScalar fun
    | .bool b => .ok b
    | document => wrongType "a boolean" document

def decodeInt (expected : String) (lo hi : Int) : Decoder Int :=
  .ofScalar fun
    | .int i => if lo ≤ i ∧ i ≤ hi then .ok i else .error (.wrongValue (.int i) expected)
    | document => wrongType expected document

def decodeUnsigned (bits : Nat) : Decoder Nat :=
  (decodeInt s!"u{bits}" 0 (Int.pow 2 bits - 1)).map Int.toNat

def decodeSigned (bits : Nat) : Decoder Int :=
  decodeInt s!"i{bits}" (-Int.pow 2 (bits - 1)) (Int.pow 2 (bits - 1) - 1)

def decodeDouble : Decoder Double :=
  .ofScalar fun
    | .int i => .ok (.finite (Binary64.ofInt i))
    | .float x => .ok x
    | document => wrongType "f64" document

def decodeValue : Decoder Json := .ofDocument fun document => .ok document.toJson

/-- Null is no value. -/
def decodeOption (d : Decoder α) : Decoder (Option α) where
  take origin document :=
    match document with
    | .null => .ok none
    | _ => (d.take origin document).map some
  read := do
    match ← Reader.next? with
    | some 110 =>
      let _ ← Reader.scalar
      return none
    | _ => return some (← d.read)

def decodeList (d : Decoder α) : Decoder (List α) where
  take origin document :=
    match document with
    | .list items => items.mapM (d.take origin)
    | _ => wrongType "a sequence" document
  read := do
    match ← Reader.first with
    | 91 => Reader.inList (Reader.items d.read)
    | _ => (refusing "a sequence").read

/-- Reads an object with free names; of two equal names the later wins. -/
def decodeMap (d : Decoder α) : Decoder (Table α) where
  take origin document :=
    match document.members? with
    | some members => members.foldlM (fun bound (name, value) => do
        return Table.insert name (← d.take origin value) bound) []
    | none => wrongType "a map" document
  read := do
    match ← Reader.first with
    | 123 =>
      let member (bound : Table α) : Reader (Table α) := do
        let name ← Reader.quoted
        Reader.colon
        return Table.insert name (← d.read) bound
      Reader.inObject (Reader.members member [])
    | _ => (refusing "a map").read

/-! ## Choices -/

/-- Reads one of several names. -/
def choose (choices : List (String × α)) (name : String) : Except Misfit α :=
  match choices.lookup name with
  | some a => .ok a
  | none => .error (.unknownVariant name (choices.map Prod.fst))

/-- Nothing, where something might be said about a choice. -/
def decodeNothing : Decoder Unit :=
  .ofScalar fun
    | .null => .ok ()
    | document => wrongType "unit" document

/-- Whether a document is a list or a table with nothing in it. -/
def isHollow : Document → Bool
  | .list [] | .table [] | .inlineTable [] => true
  | _ => false

/-- A choice that is made of a document.  Of a table with a header the first member counts, while a
table that is written as a value may have no other. -/
def takeChoice (choices : List (String × α)) (origin : Notation) (document : Document) :
    Except Misfit α :=
  match document, origin with
  | .text name, _ => choose choices name
  | .table [(name, argument)], .value => do
    let a ← choose choices name
    decodeNothing.take origin argument
    return a
  | .table _, .value => .error (.wrongValue .table "map with a single key")
  | _, .value => wrongType "string or map" document
  | .table ((name, argument) :: _), .tables | .inlineTable [(name, argument)], .tables => do
    let a ← choose choices name
    if isHollow argument then return a else throw .notChoice
  | _, .tables => .error .notChoice

def choiceName (choices : List (String × α)) : Reader α :=
  .placed do
    Reader.skip
    .accept (choose choices (← Reader.quoted))

/-- Reads an object that binds the name of a choice to nothing, from behind its brace. -/
def choiceMember (choices : List (String × α)) : Reader α := do
  match ← Reader.first with
  | 34 =>
    let a ← choiceName choices
    Reader.colon
    decodeNothing.read
    return a
  | 125 => .failAfter .expectedValue
  | _ => .failAfter .keyNotString

/-- Reads one of several names; also as the only name of an object that binds it to nothing. -/
def decodeChoice (choices : List (String × α)) : Decoder α where
  take := takeChoice choices
  read := do
    match ← Reader.first with
    | 34 => choiceName choices
    | 123 =>
      let a ← Reader.opened (choiceMember choices)
      match ← Reader.next? with
      | none => .fail .endInObject
      | some 125 =>
        Reader.skip
        return a
      | some _ => .fail .expectedValue
    | _ => .failAfter .expectedValue

end Gatehouse.Json
