import Gatehouse.Pattern.Escape

/-!
# Classes in brackets

A class in brackets holds characters, ranges, named classes and classes in brackets, and may be an
intersection, a difference or a symmetric difference of such.
-/

namespace Gatehouse.Pattern

open Scan

def classNames : List String := [
  "alnum", "alpha", "ascii", "blank", "cntrl", "digit", "graph", "lower", "print", "punct",
  "space", "upper", "word", "xdigit"]

/-- A class with a name between colons and brackets, from its bracket; none leaves the reader where
it stands. -/
def namedClass? : Scan (Option Class) := do
  let before ← get
  if ← passes ['[', ':'] then
    let negated ← passes ['^']
    let name := (← rest).takeWhile (· != ':')
    setRest ((← rest).drop name.length)
    if (← passes [':', ']']) && String.ofList name ∈ classNames then return some (.named negated)
  set before
  return none

def classItem : Scan Pattern := do
  if (← char) = '\\' then escape
  else
    let c ← char
    bump
    return .literal { char := c }

def classRange : Scan Class := do
  let item ← classItem
  space
  let next ← char
  let behind ← peekOn
  if next != '-' || behind = some ']' || behind = some '-' then
    match item with
    | .literal l => return .literal l
    | .shorthand negated => return .shorthand negated
    | _ => failure
  else
    bumpOn
    match item, ← classItem with
    | .literal first, .literal last =>
      if first.char ≤ last.char then return .range first last else failure
    | _, _ => failure

/-- The hyphens at the start of a class, which stand for themselves. -/
def leadingHyphens : Nat → Scan (List Class)
  | 0 => return []
  | fuel + 1 => do
    if (← char) = '-' then
      bumpOn
      return .literal { char := '-' } :: (← leadingHyphens fuel)
    else return []

/-- Passes the sign of an operation between classes. -/
def passesOperation : Scan Bool := do
  if ← passes ['&', '&'] then return true
  else if ← passes ['-', '-'] then return true
  else passes ['~', '~']

mutual

/-- A class in brackets, from its bracket. -/
def bracketed : Nat → Scan Pattern
  | 0 => failure
  | fuel + 1 => do
    bumpOn
    let negated := (← char) = '^'
    if negated then bumpOn
    let hyphens ← leadingHyphens (← rest).length
    let parts ←
      if hyphens.isEmpty && (← char) = ']' then
        bumpOn
        pure [.literal { char := ']' }]
      else pure hyphens
    return .oneOf negated (← classRest fuel none parts)

/-- The rest of a class.  `left` is what stands before an operation, `parts` what was read since. -/
def classRest (fuel : Nat) (left : Option Class) (parts : List Class) : Scan Class :=
  match fuel with
  | 0 => failure
  | fuel + 1 => do
    let whole (parts : List Class) : Class :=
      match left with
      | none => .ofParts parts
      | some left => .operation left (.ofParts parts)
    space
    match ← char with
    | '[' =>
      match ← namedClass? with
      | some named => classRest fuel left (parts ++ [named])
      | none =>
        match ← bracketed fuel with
        | .oneOf negated contents => classRest fuel left (parts ++ [.nested negated contents])
        | _ => failure
    | ']' =>
      bump
      return whole parts
    | _ =>
      if ← passesOperation then classRest fuel (some (whole parts)) []
      else classRest fuel left (parts ++ [← classRange])

end

end Gatehouse.Pattern
