import Gatehouse.Json.Misfit

/-!
# Readers

A reader takes a value off the front of a text.  A reader that fails keeps what it has already
passed: whoever goes on after a failure goes on there.  A misfit gets its place from the innermost
value around it, once that is left.
-/

namespace Gatehouse.Json

/-- The deepest nesting that is read. -/
def maxDepth : Nat := 127

/-- The unread bytes, the place of the first of them, and how many brackets may still be opened. -/
structure Cursor where
  rest : List UInt8
  line : Nat
  column : Nat
  depth : Nat

def isJsonBlank (b : UInt8) : Bool := b == 32 || b == 10 || b == 9 || b == 13

namespace Cursor

def start (bytes : List UInt8) : Cursor := ⟨bytes, 1, 0, maxDepth⟩

/-- Moves past one byte; a line feed starts the next line. -/
def advance (c : Cursor) : Cursor :=
  match c.rest with
  | [] => c
  | b :: rest =>
    if b = 10 then { c with rest, line := c.line + 1, column := 0 }
    else { c with rest, column := c.column + 1 }

def advanceBy : Nat → Cursor → Cursor
  | 0, c => c
  | n + 1, c => advanceBy n c.advance

/-- Moves past the bytes at the front that satisfy `p`. -/
def advanceWhile (p : UInt8 → Bool) (c : Cursor) : Cursor :=
  c.advanceBy (c.rest.takeWhile p).length

def place (c : Cursor) : Place := ⟨c.line, c.column⟩

def here (c : Cursor) (cause : Cause) : Fault := ⟨cause, c.place⟩

def after (c : Cursor) (cause : Cause) : Fault := c.advance.here cause

end Cursor

/-- Takes an `α` off the front of a text. -/
abbrev Reader (α : Type) := EStateM DecodeError Cursor α

namespace Reader

def peek : Reader (Option UInt8) := fun c => .ok c.rest.head? c

def skip : Reader Unit := fun c => .ok () c.advance

def skipWhile (p : UInt8 → Bool) : Reader Unit := fun c => .ok () (c.advanceWhile p)

def takeWhile (p : UInt8 → Bool) : Reader (List UInt8) := fun c =>
  .ok (c.rest.takeWhile p) (c.advanceWhile p)

def failAt (fault : Fault) : Reader α := throw (.fault fault)

def fail (cause : Cause) : Reader α := fun c => .error (.fault (c.here cause)) c

def failAfter (cause : Cause) : Reader α := fun c => .error (.fault (c.after cause)) c

def refuse (misfit : Misfit) : Reader α := throw (.misfit misfit .nowhere)

/-- Accepts or refuses what was read. -/
def accept : Except Misfit α → Reader α
  | .ok a => pure a
  | .error misfit => refuse misfit

/-- Passes blanks and shows the byte behind them. -/
def next? : Reader (Option UInt8) := do
  skipWhile isJsonBlank
  peek

/-- The first byte of a value, which is not passed. -/
def first : Reader UInt8 := do
  match ← next? with
  | some b => return b
  | none => failAfter .endInValue

/-- A misfit inside is put where the reader stops. -/
def placed (r : Reader α) : Reader α := fun c =>
  match r c with
  | .ok a c => .ok a c
  | .error e c => .error (e.placedAt c.place) c

/-- A failure inside counts as nothing; the text is read on from where it happened. -/
def tolerant (r : Reader (Option α)) : Reader (Option α) := fun c =>
  match r c with
  | .ok a c => .ok a c
  | .error _ c => .ok none c

/-! ## Brackets -/

/-- Reads what stands behind an opening bracket, at which the reader stands. -/
def opened (contents : Reader α) : Reader α := fun c =>
  match c.depth with
  | 0 => .error (.fault (c.after .tooDeep)) c
  | depth + 1 =>
    match contents { c.advance with depth } with
    | .ok a c => .ok a { c with depth := c.depth + 1 }
    | .error e c => .error e { c with depth := c.depth + 1 }

/-- Reads what stands between an opening bracket and its end.  The end is looked for even if the
contents are refused; then it does not matter whether it is there. -/
def bracketed (contents : Reader α) (close : Reader Unit) : Reader α := placed fun c =>
  match opened contents c with
  | .ok a c =>
    match close c with
    | .ok _ c => .ok a c
    | .error e c => .error e c
  | .error e c =>
    match close c with
    | .ok _ c | .error _ c => .error e c

def endList : Reader Unit := do
  match ← next? with
  | none => failAfter .endInList
  | some 93 => skip
  | some 44 =>
    skip
    match ← next? with
    | some 93 => failAfter .trailingComma
    | _ => failAfter .trailingCharacters
  | some _ => failAfter .trailingCharacters

def endObject : Reader Unit := do
  match ← next? with
  | none => failAfter .endInObject
  | some 125 => skip
  | some 44 => failAfter .trailingComma
  | some _ => failAfter .trailingCharacters

/-- The contents of a list, at whose bracket the reader stands. -/
def inList (contents : Reader α) : Reader α := bracketed contents endList

def inObject (contents : Reader α) : Reader α := bracketed contents endObject

/-- Goes to the next item of a list; `isFirst` says that none was read yet. -/
def nextItem (isFirst : Bool) : Reader Bool := do
  match ← next? with
  | none => failAfter .endInList
  | some 93 => return false
  | some b =>
    if isFirst then return true
    else if b = 44 then
      skip
      match ← next? with
      | none => failAfter .endInValue
      | some 93 => failAfter .trailingComma
      | some _ => return true
    else failAfter .expectedListCommaOrEnd

/-- Goes to the name of the next member of an object, behind its opening quote. -/
def nextName (isFirst : Bool) : Reader Bool := do
  match ← next? with
  | none => failAfter .endInObject
  | some 125 => return false
  | some b =>
    if isFirst then
      if b = 34 then
        skip
        return true
      else failAfter .keyNotString
    else if b = 44 then
      skip
      match ← next? with
      | none => failAfter .endInValue
      | some 34 =>
        skip
        return true
      | some 125 => failAfter .trailingComma
      | some _ => failAfter .keyNotString
    else failAfter .expectedObjectCommaOrEnd

def colon : Reader Unit := do
  match ← next? with
  | none => failAfter .endInObject
  | some 58 => skip
  | some _ => failAfter .expectedColon

/-- The items of a list, from behind the bracket or behind an item. -/
def itemsFrom (item : Reader α) : Nat → Bool → Reader (List α)
  | 0, _ => return []
  | fuel + 1, isFirst => do
    if ← nextItem isFirst then
      let a ← item
      let rest ← itemsFrom item fuel false
      return a :: rest
    else return []

/-- The items of a list.  Every item but the first takes a comma, so the bytes bound them. -/
def items (item : Reader α) : Reader (List α) := do
  let c ← get
  itemsFrom item (c.rest.length + 2) true

/-- Folds over the members of an object; `member` reads one from behind its opening quote. -/
def membersFrom (member : σ → Reader σ) : Nat → Bool → σ → Reader σ
  | 0, _, s => return s
  | fuel + 1, isFirst, s => do
    if ← nextName isFirst then
      let s ← member s
      membersFrom member fuel false s
    else return s

/-- Folds over the members of an object, each of which takes a quote. -/
def members (member : σ → Reader σ) (s : σ) : Reader σ := do
  let c ← get
  membersFrom member (c.rest.length + 2) true s

/-! ## Words -/

def word : List UInt8 → Reader Unit
  | [] => return ()
  | w :: rest => do
    match ← peek with
    | none => fail .endInValue
    | some b =>
      skip
      if b = w then word rest else fail .expectedIdent

def run (r : Reader α) (bytes : List UInt8) : Except DecodeError α :=
  let whole : Reader α := do
    let a ← r
    match ← next? with
    | none => return a
    | some _ => failAfter .trailingCharacters
  match whole (Cursor.start bytes) with
  | .ok a _ => .ok a
  | .error e _ => .error e

end Reader

end Gatehouse.Json
