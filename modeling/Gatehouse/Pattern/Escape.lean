import Gatehouse.Pattern.Scan
import Gatehouse.Pattern.Support
import Gatehouse.Text.Hex

/-!
# Single characters in patterns

A character stands for itself, unless it is a dot, an anchor or a backslash; behind a backslash
stand the characters that would otherwise mean something, codes, shorthands and ends of words.
-/

namespace Gatehouse.Pattern

open Scan

/-- Passes the characters that satisfy `p`, each with what does not count behind it. -/
def takeOn (p : Char → Bool) : Nat → Scan (List Char)
  | 0 => return []
  | fuel + 1 => do
    match ← peek with
    | some c =>
      if p c then
        bump
        space
        return c :: (← takeOn p fuel)
      else return []
    | none => return []

/-- A decimal number below 2^32, with blanks around it; none where no digit stands. -/
def decimal? : Scan (Option Nat) := do
  setRest ((← rest).dropWhile Text.isBlank)
  let digits ← takeOn Char.isDigit (← rest).length
  let _ ← takeOn Text.isBlank (← rest).length
  let n := digits.foldl (fun n c => n * 10 + (c.toNat - 48)) 0
  if digits.isEmpty then return none
  else if n < Nat.pow 2 32 then return some n
  else failure

def charOfHex (digits : List Char) : Scan Char := do
  let n := digits.foldl (fun n c => n * 16 + (Text.Hex.value? c.toNat).getD 0) 0
  if n.isValidChar then return Char.ofNat n else failure

def isHexDigit (c : Char) : Bool := (Text.Hex.value? c.toNat).isSome

/-- So many hexadecimal digits; the reader stands on the first. -/
def hexDigits : Nat → Scan (List Char)
  | 0 => return []
  | 1 => do
    let c ← char
    bump
    space
    if isHexDigit c then return [c] else failure
  | count + 1 => do
    let c ← char
    if !isHexDigit c then failure
    bumpOn
    return c :: (← hexDigits count)

def hexLiteral (count : Nat) : Scan Literal := do
  bumpOn
  if (← char) = '\x7b' then
    bump
    space
    let digits ← takeOn isHexDigit (← rest).length
    expect '\x7d'
    space
    if digits.isEmpty then failure
    return { char := ← charOfHex digits }
  else
    return { char := ← charOfHex (← hexDigits count), isByte := count = 2 }

/-- A character that stands for itself behind a backslash. -/
def isEscapable (c : Char) : Bool := isAscii c && !c.isAlphanum && c != '<' && c != '>'

/-- What may follow the end of a word in braces to say which end is meant. -/
def wordEnds : List String := ["start", "end", "start-half", "end-half"]

/-- Passes the braces that say which end of a word is meant, if they are such. -/
def passWordEnd : Scan Unit := do
  let before ← get
  if (← peek) = some '\x7b' then
    bumpOn
    let isPart (c : Char) : Bool := c.isAlpha || c == '-'
    if isPart (← char) then
      let name ← takeOn isPart (← rest).length
      expect '\x7d'
      if String.ofList name ∉ wordEnds then failure
    else set before

def escape : Scan Pattern := do
  bump
  let c ← char
  match c with
  | 'x' => return .literal (← hexLiteral 2)
  | 'u' => return .literal (← hexLiteral 4)
  | 'U' => return .literal (← hexLiteral 8)
  | 'd' | 's' | 'w' =>
    bump
    return .shorthand false
  | 'D' | 'S' | 'W' =>
    bump
    return .shorthand true
  | _ =>
    bump
    if isEscapable c then return .literal { char := c }
    match c with
    | 'a' | 'f' | 't' | 'n' | 'r' | 'v' => return .literal { char := control c }
    | 'A' | 'z' => return .anchor
    | 'B' | '<' | '>' => return .wordEnd
    | 'b' =>
      passWordEnd
      return .wordEnd
    | _ => failure
where
  /-- The control character that a letter stands for. -/
  control (c : Char) : Char :=
    match c with
    | 'a' => '\x07'
    | 'f' => '\x0c'
    | 't' => '\t'
    | 'n' => '\n'
    | 'r' => '\r'
    | _ => '\x0b'

def primitive : Scan Pattern := do
  match ← char with
  | '\\' => escape
  | '.' =>
    bump
    return .dot
  | '^' | '$' =>
    bump
    return .anchor
  | c =>
    bump
    return .literal { char := c }

end Gatehouse.Pattern
