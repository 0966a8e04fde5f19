import Gatehouse.Json.Numeral
import Gatehouse.Json.Quotation

/-!
# Passing over values

A value that nobody asks for is only passed over.  That is laxer than reading it: it may nest to
any depth, its numbers may be of any size and its strings need not be text.  And it is told
differently what is wrong with it: behind a comma something has to follow, whatever is closed.
-/

namespace Gatehouse.Json.Reader

inductive Bracket where
  | list | object
  deriving DecidableEq, Repr

def Bracket.close : Bracket → UInt8
  | .list => 93
  | .object => 125

def Bracket.endCause : Bracket → Cause
  | .list => .endInList
  | .object => .endInObject

/-- What follows a value is neither a comma nor the end of the bracket. -/
def Bracket.separatorCause : Bracket → Cause
  | .list => .expectedListCommaOrEnd
  | .object => .expectedObjectCommaOrEnd

/-! ## Scalars -/

/-- Passes a digit that has to be there; `take` says which byte will do. -/
def passOne (take : UInt8 → Bool) : Reader UInt8 := do
  match ← peek with
  | none => fail .invalidNumber
  | some b =>
    skip
    if take b then return b else fail .invalidNumber

def passExponent : Reader Unit := do
  skip
  let _ ← exponentSign
  let _ ← passOne isDigit
  skipWhile isDigit

def passPower : Reader Unit := do
  match ← peek with
  | some 101 | some 69 => passExponent
  | _ => return ()

def passNumber : Reader Unit := do
  if (← passOne isDigit) = 48 then
    if (← peek).any isDigit then failAfter .invalidNumber
  else skipWhile isDigit
  match ← peek with
  | some 46 =>
    skip
    if (← takeWhile isDigit).isEmpty then failAfter .invalidNumber
    passPower
  | _ => passPower

/-- The number of bytes of a string up to and with its closing quote. -/
def quotedLength (skip position : Nat) : List UInt8 → Except (Cause × Nat) Nat
  | [] => .error (.endInString, position)
  | b :: rest =>
    match skip with
    | skip + 1 => quotedLength skip (position + 1) rest
    | 0 =>
      if b = 34 then .ok (position + 1)
      else if b = 92 then
        match rest with
        | 117 :: digits =>
          match hexEscape digits with
          | .error (cause, n) => .error (cause, position + 2 + n)
          | .ok _ => quotedLength 5 (position + 1) rest
        | _ =>
          match escape rest with
          | .error (cause, n) => .error (cause, position + 1 + n)
          | .ok (_, n) => quotedLength n (position + 1) rest
      else if b < 32 then .error (.controlCharacter, position)
      else quotedLength 0 (position + 1) rest

def passQuoted : Reader Unit := fun c =>
  match quotedLength 0 0 c.rest with
  | .ok n => .ok () (c.advanceBy n)
  | .error (cause, n) =>
    let c := c.advanceBy n
    .error (.fault (c.here cause)) c

def passScalar : Reader Unit := do
  match ← peek with
  | some 110 => word [110, 117, 108, 108]
  | some 116 => word [116, 114, 117, 101]
  | some 102 => word [102, 97, 108, 115, 101]
  | some 45 =>
    skip
    passNumber
  | some 34 =>
    skip
    passQuoted
  | some b => if isDigit b then passNumber else failAfter .expectedValue
  | none => failAfter .endInValue

/-! ## Nesting -/

/-- Passes the name of a member and its colon; a list has none. -/
def Bracket.passName : Bracket → Reader Unit
  | .list => return ()
  | .object => do
    match ← next? with
    | none => failAfter .endInObject
    | some 34 =>
      skip
      passQuoted
      colon
    | some _ => failAfter .keyNotString

/-- Where the reader stands between the brackets that are open. -/
inductive Stage where
  /-- In front of a value. -/
  | value
  /-- Behind an opening bracket. -/
  | opened
  /-- Behind a value. -/
  | passed

/-- Passes what is left of a value inside the open brackets, the innermost first. -/
def passFrom : Nat → Stage → List Bracket → Reader Unit
  | 0, _, _ | _ + 1, .opened, [] | _ + 1, .passed, [] => return ()
  | fuel + 1, .value, brackets => do
    match ← first with
    | 91 =>
      skip
      passFrom fuel .opened (.list :: brackets)
    | 123 =>
      skip
      passFrom fuel .opened (.object :: brackets)
    | _ =>
      passScalar
      passFrom fuel .passed brackets
  | fuel + 1, .opened, bracket :: brackets => do
    match ← next? with
    | none => failAfter bracket.endCause
    | some b =>
      if b = bracket.close then
        skip
        passFrom fuel .passed brackets
      else
        bracket.passName
        passFrom fuel .value (bracket :: brackets)
  | fuel + 1, .passed, bracket :: brackets => do
    match ← next? with
    | none => failAfter bracket.endCause
    | some b =>
      if b = bracket.close then
        skip
        passFrom fuel .passed brackets
      else if b = 44 then
        skip
        bracket.passName
        passFrom fuel .value (bracket :: brackets)
      else failAfter bracket.separatorCause

/-- Passes a value.  Of two steps in turn one takes a byte. -/
def pass : Reader Unit := do
  let c ← get
  passFrom (2 * c.rest.length + 4) .value []

end Gatehouse.Json.Reader
