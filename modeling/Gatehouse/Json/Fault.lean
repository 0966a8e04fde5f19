/-!
# Faults of a text

Why a text is no structured value, and where its reader stood when that became clear.
-/

namespace Gatehouse.Json

/-- Why a text is not a structured value. -/
inductive Cause where
  | endInList | endInObject | endInString | endInValue
  | expectedColon | expectedListCommaOrEnd | expectedObjectCommaOrEnd
  | expectedIdent | expectedValue
  | invalidEscape | invalidNumber | numberOutOfRange | invalidCodePoint
  | controlCharacter | keyNotString | loneSurrogate | trailingComma | trailingCharacters
  | unfinishedSurrogate | tooDeep
  deriving DecidableEq, Repr

def Cause.message : Cause → String
  | .endInList => "EOF while parsing a list"
  | .endInObject => "EOF while parsing an object"
  | .endInString => "EOF while parsing a string"
  | .endInValue => "EOF while parsing a value"
  | .expectedColon => "expected `:`"
  | .expectedListCommaOrEnd => "expected `,` or `]`"
  | .expectedObjectCommaOrEnd => "expected `,` or `\x7d`"
  | .expectedIdent => "expected ident"
  | .expectedValue => "expected value"
  | .invalidEscape => "invalid escape"
  | .invalidNumber => "invalid number"
  | .numberOutOfRange => "number out of range"
  | .invalidCodePoint => "invalid unicode code point"
  | .controlCharacter => "control character (\\u0000-\\u001F) found while parsing a string"
  | .keyNotString => "key must be a string"
  | .loneSurrogate => "lone leading surrogate in hex escape"
  | .trailingComma => "trailing comma"
  | .trailingCharacters => "trailing characters"
  | .unfinishedSurrogate => "unexpected end of hex escape"
  | .tooDeep => "recursion limit exceeded"

/-- A place in a text: lines from 1, bytes of the line from 0.  Line 0 is no place. -/
structure Place where
  line : Nat
  column : Nat
  deriving DecidableEq, Repr

def Place.nowhere : Place := ⟨0, 0⟩

/-- What a message says about a place. -/
def Place.suffix (p : Place) : String :=
  if p.line = 0 then "" else s!" at line {p.line} column {p.column}"

/-- A cause and the place where the reader stood. -/
structure Fault where
  cause : Cause
  place : Place
  deriving DecidableEq, Repr

def Fault.message (f : Fault) : String :=
  f.cause.message ++ f.place.suffix

end Gatehouse.Json
