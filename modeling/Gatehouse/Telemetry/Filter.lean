import Gatehouse.Pattern.Parser
import Gatehouse.Text.AsciiCase
import Gatehouse.Text.Quoted
import Gatehouse.Text.Split
import Gatehouse.Text.Utf8

/-!
# Log filters

A filter is a list of directives with commas between.  A directive names a level, or a target, or
a target and a span with a field in brackets, and behind an equals sign the level for what it names.
A field may be given a value, which is a pattern unless it is a truth value or a number.
-/

namespace Gatehouse.Telemetry

open Pattern (PatternFault)

/-- Why a filter is refused. -/
inductive FilterFault where
  | directive
  | level
  | field (fault : PatternFault)
  deriving DecidableEq, Repr

def FilterFault.message : FilterFault → String
  | .directive => "invalid filter directive"
  | .level =>
    "error parsing level filter: expected one of \"off\", \"error\", \"warn\", \"info\", " ++
      "\"debug\", \"trace\", or a number 0-5"
  | .field fault => s!"invalid field filter: {fault.message}"

/-! ## Levels -/

/-- Whether a text names a level: a word in any case, a number up to five, or nothing at all. -/
def isLevel (text : List Char) : Bool :=
  let number := match text with
    | '+' :: rest => rest
    | cs => cs
  let value := number.foldl (fun n c => n * 10 + (c.toNat - 48)) 0
  let word := String.ofList (text.map Char.toLower)
  (!number.isEmpty && number.all Char.isDigit && value ≤ 5)
    || word ∈ ["", "error", "warn", "info", "debug", "trace", "off"]

/-! ## Fields -/

def dropSign : List Char → List Char
  | '+' :: rest | '-' :: rest => rest
  | cs => cs

/-- Whether a text is nothing or an exponent. -/
def isExponent : List Char → Bool
  | [] => true
  | c :: rest =>
    let digits := dropSign rest
    (c == 'e' || c == 'E') && !digits.isEmpty && digits.all Char.isDigit

/-- Whether a text is a number: decimal digits with a point or an exponent, or a word for what is
not finite. -/
def isNumber (text : List Char) : Bool :=
  let magnitude := dropSign text
  let (whole, rest) := magnitude.span Char.isDigit
  let (fraction, rest) := match rest with
    | '.' :: rest => rest.span Char.isDigit
    | _ => ([], rest)
  (!(whole ++ fraction).isEmpty && isExponent rest)
    || String.ofList (magnitude.map Char.toLower) ∈ ["inf", "infinity", "nan"]

def checkField (field : List Char) : Except FilterFault Unit :=
  match Text.splitChars '=' field with
  | _ :: value :: _ =>
    if isNumber value then .ok () else (Pattern.check value).mapError .field
  | _ => .ok ()

/-! ## Directives -/

/-- Where the reading of a directive stands. -/
inductive DirectiveState where
  | start
  /-- In a level or a target. -/
  | target
  /-- In the name of a span. -/
  | span
  /-- In a field, which begins at an offset. -/
  | field (start : Nat)
  /-- Behind the field of a span. -/
  | fields
  /-- Behind a span. -/
  | closed
  /-- In the level, which begins at an offset. -/
  | level (start : Nat)

/-- Whether a directive may begin with a character. -/
def beginsDirective (c : Char) : Bool := c ∈ ['-', ':', '_'] || Text.isAlphanumeric c

/-- The text between two offsets, unless one of them is inside a character. -/
def between? (directive : List Char) (start stop : Nat) : Option (List Char) :=
  let bytes := Text.Utf8.encode (String.ofList directive)
  (Text.Utf8.decode? ((bytes.take stop).drop start)).map String.toList

/-- Reads a character of a directive; `place` is its offset. -/
def DirectiveState.next (directive : List Char) (place : Nat) :
    DirectiveState → Char → Except FilterFault DirectiveState
  | .start, '[' => .ok .span
  | .start, c => if beginsDirective c then .ok .target else .error .directive
  | .target, '=' | .closed, '=' => .ok (.level (place + 1))
  | .target, '[' => .ok .span
  | .target, _ => .ok .target
  | .span, ']' => .ok .closed
  | .span, '\x7b' => .ok (.field (place + 1))
  | .span, _ => .ok .span
  | .field begun, '\x7d' => do
    if begun = place then throw .directive
    match between? directive begun place with
    | some text => checkField text
    | none => throw .directive
    return .fields
  | .field begun, _ => .ok (.field begun)
  | .fields, ']' => .ok .closed
  | .closed, _ | .fields, _ => .error .directive
  | .level begun, _ => .ok (.level begun)

def DirectiveState.run (directive : List Char) (place : Nat) (state : DirectiveState) :
    List Char → Except FilterFault DirectiveState
  | [] => .ok state
  | c :: rest => do
    let state ← state.next directive place c
    state.run directive (place + c.utf8Size) rest

def checkDirective (directive : List Char) : Except FilterFault Unit := do
  match ← DirectiveState.start.run directive 0 (Text.trimChars directive) with
  | .target | .closed => return ()
  | .level start =>
    match between? directive start (String.ofList directive).utf8ByteSize with
    | some level => if !isLevel level then throw .level
    | none => throw .level
  | _ => throw .directive

/-- Checks a filter; empty directives do not count. -/
def checkFilter (filter : String) : Except FilterFault Unit :=
  ((Text.splitChars ',' filter.toList).filter (!·.isEmpty)).forM checkDirective

end Gatehouse.Telemetry
