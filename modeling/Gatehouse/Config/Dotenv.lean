import Gatehouse.Table
import Gatehouse.Text.Blank
import Gatehouse.Text.Letter
import Gatehouse.Text.Split
import Gatehouse.Text.Utf8

/-!
# Environment files

An environment file assigns texts to variables, one assignment a line.  A value may be quoted, and a
quoted value may go on over several lines; `$NAME` and `$\x7bNAME\x7d` stand for variables of the
environment or, failing that, for values assigned before.  The first line that is malformed ends the
file; what stands before it counts.
-/

namespace Gatehouse.Config.Dotenv

/-- Why a file is given up. -/
inductive Trouble where
  /-- A malformed line, and where in it. -/
  | line (text : String) (index : Nat)
  | notText
  deriving DecidableEq, Repr

def Trouble.message : Trouble → String
  | .line text index => s!"Error parsing line: '{text}', error at line index: {index}"
  | .notText => "stream did not contain valid UTF-8"

/-! ## Lines -/

/-- What a reader of lines is in the middle of. -/
inductive Posture where
  | plain | afterBackslash | inStrong | inStrongBackslash | inWeak | inWeakBackslash | blank
  deriving DecidableEq, Repr

/-- The posture behind a character; none where a comment begins. -/
def Posture.next (p : Posture) (c : Char) : Option Posture :=
  let opened : Posture :=
    if c = '\\' then .afterBackslash else if c = '"' then .inWeak
    else if c = '\'' then .inStrong else .plain
  match p with
  | .blank => if c = '#' then none else some opened
  | .afterBackslash => some .plain
  | .plain => if Text.isBlank c && c != '\n' && c != '\r' then some .blank else some opened
  | .inWeak => some (if c = '\\' then .inWeakBackslash else if c = '"' then .plain else .inWeak)
  | .inWeakBackslash => some .inWeak
  | .inStrong =>
    some (if c = '\\' then .inStrongBackslash else if c = '\'' then .plain else .inStrong)
  | .inStrongBackslash => some .inStrong

/-- Reads through a line: the posture at its end, or the text before a comment. -/
def Posture.through (p : Posture) (seen : List Char) : List Char → Except (List Char) Posture
  | [] => .ok p
  | c :: rest =>
    match p.next c with
    | none => .error seen.reverse
    | some q => q.through (c :: seen) rest

/-- The lines of a file, each with its line feed if it has one. -/
def physicalLines : List UInt8 → List (List UInt8)
  | [] => []
  | b :: rest =>
    if b = 0x0A then [b] :: physicalLines rest
    else
      match physicalLines rest with
      | [] => [[b]]
      | line :: more => (b :: line) :: more

def dropLineEnd (line : List Char) : List Char :=
  match line.reverse with
  | '\n' :: '\r' :: rest => rest.reverse
  | '\n' :: rest => rest.reverse
  | _ => line

/-- Joins the lines of quoted values.  A line that begins with `#` is empty.  The last item is the
trouble of a line that is no text, or of a file that ends in the middle of a value. -/
def logicalLines (held : List Char) (p : Posture) : List (Option String) →
    List (Except Trouble (List Char))
  | [] =>
    if p = .plain then []
    else [.error (.line (String.ofList held) (String.ofList held).utf8ByteSize)]
  | none :: _ => [.error .notText]
  | some line :: rest =>
    let line := line.toList
    let all := held ++ line
    if (Text.trimStartChars all).head? = some '#' then .ok [] :: logicalLines [] .plain rest
    else
      match p.through [] line with
      | .error before => .ok (held ++ before) :: logicalLines [] .plain rest
      | .ok .plain => .ok (dropLineEnd all) :: logicalLines [] .plain rest
      | .ok q => logicalLines all q rest

/-! ## Values -/

/-- What variables stand for: the environment, and the values assigned so far. -/
structure Meaning where
  environment : Table String
  assigned : Table String

/-- The value of a variable of an environment.  The environment is searched as if each variable were
written `name=value`, so a name that goes on into a value finds what is left of it. -/
def valueIn (environment : Table String) (name : List Char) : Option (List Char) :=
  match Text.cut? '=' name with
  | none => (Table.get? (String.ofList name) environment).map String.toList
  | some (front, begun) => do
    let value ← Table.get? (String.ofList front) environment
    Text.stripLead? (begun ++ ['=']) value.toList

def Meaning.of (m : Meaning) (name : List Char) : List Char :=
  (valueIn m.environment name <|>
    (Table.get? (String.ofList name) m.assigned).map String.toList).getD []

/-- A reference to a variable that is being read: its name so far, backwards. -/
inductive Reference where
  | bare (name : List Char)
  | braced (name : List Char)

/-- A value that is being read; the text so far stands backwards. -/
structure ValueState where
  output : List Char := []
  strong : Bool := false
  weak : Bool := false
  backslash : Bool := false
  /-- Only blanks and a comment may follow. -/
  ending : Bool := false
  reference : Option Reference := none

namespace ValueState

def emit (s : ValueState) (text : List Char) : ValueState :=
  { s with output := text.reverse ++ s.output }

def plainStep (s : ValueState) (c : Char) : ValueState :=
  if c = '$' then { s with reference := some (.bare []) }
  else if s.weak then
    if c = '"' then { s with weak := false }
    else if c = '\\' then { s with backslash := true }
    else s.emit [c]
  else if c = '\'' then { s with strong := true }
  else if c = '"' then { s with weak := true }
  else if c = '\\' then { s with backslash := true }
  else if c = ' ' || c = '\t' then { s with ending := true }
  else s.emit [c]

def referenceStep (m : Meaning) (s : ValueState) (c : Char) : Reference → ValueState
  | .bare name =>
    if Text.isAlphanumeric c then { s with reference := some (.bare (c :: name)) }
    else if c = '\x7b' && name.isEmpty then { s with reference := some (.braced []) }
    else
      let s := s.emit (m.of name.reverse)
      if c = '$' then { s with reference := some (.bare []) }
      else { s with reference := none }.emit [c]
  | .braced name =>
    if c != '\x7d' then { s with reference := some (.braced (c :: name)) }
    else { s with reference := none }.emit (m.of name.reverse)

/-- Reads a value.  The answer is none where a comment ends it, and an error where a character is
out of place. -/
def step (m : Meaning) (s : ValueState) (c : Char) : Except Unit (Option ValueState) :=
  if s.ending then
    if c = ' ' || c = '\t' then .ok (some s) else if c = '#' then .ok none else .error ()
  else if s.backslash then
    let s := { s with backslash := false }
    if c ∈ ['\\', '\'', '"', '$', ' '] then .ok (some (s.emit [c]))
    else if c = 'n' then .ok (some (s.emit ['\n']))
    else .error ()
  else if s.strong then
    .ok (some (if c = '\'' then { s with strong := false } else s.emit [c]))
  else
    match s.reference with
    | some r => .ok (some (referenceStep m s c r))
    | none => .ok (some (plainStep s c))

def finish (m : Meaning) (s : ValueState) : Option (List Char) :=
  match s.reference with
  | some (.braced _) => none
  | some (.bare name) =>
    if s.strong || s.weak then none else some (s.emit (m.of name.reverse)).output.reverse
  | none => if s.strong || s.weak then none else some s.output.reverse

end ValueState

/-- Reads the characters of a value, `index` of them already read; an error is the index of the
character that is out of place, or of the last byte if something is left open. -/
def readValue (m : Meaning) (size index : Nat) (s : ValueState) : List Char →
    Except Nat (List Char)
  | [] =>
    match s.finish m with
    | some value => .ok value
    | none => .error (size - 1)
  | c :: rest =>
    match s.step m c with
    | .error () => .error index
    | .ok (some s) => readValue m size (index + 1) s rest
    | .ok none =>
      match s.finish m with
      | some value => .ok value
      | none => .error (size - 1)

/-! ## Assignments -/

def isKeyStart (c : Char) : Bool := c.isAlpha || c == '_'

def isKeyChar (c : Char) : Bool := c.isAlphanum || c == '_' || c == '.'

/-- A line that is being read: what is left, and how many characters were taken. -/
structure Cursor where
  rest : List Char
  position : Nat := 0

namespace Cursor

def skipBlanks (c : Cursor) : Cursor :=
  let blanks := c.rest.takeWhile Text.isBlank
  ⟨c.rest.drop blanks.length, c.position + (String.ofList blanks).utf8ByteSize⟩

def key? (c : Cursor) : Option (String × Cursor) :=
  match c.rest with
  | first :: _ =>
    if isKeyStart first then
      let (name, rest) := c.rest.span isKeyChar
      some (String.ofList name, ⟨rest, c.position + name.length⟩)
    else none
  | [] => none

def equals? (c : Cursor) : Option Cursor :=
  match c.rest with
  | '=' :: rest => some ⟨rest, c.position + 1⟩
  | _ => none

def isDone (c : Cursor) : Bool := c.rest.isEmpty || c.rest.head? == some '#'

end Cursor

/-- Reads the name of an assignment up to its equals sign.  The word `export` before it does not
count, unless it is the name itself. -/
def readName (start : Cursor) : Except Nat (String × Cursor) :=
  match start.key? with
  | none => .error start.position
  | some (name, c) =>
    let c := c.skipBlanks
    match c.equals? with
    | some c => .ok (name, c)
    | none =>
      if name = "export" then
        match c.key? with
        | none => .error c.position
        | some (name, c) =>
          let c := c.skipBlanks
          match c.equals? with
          | some c => .ok (name, c)
          | none => .error c.position
      else .error c.position

/-- Reads an assignment; an empty line and a comment hold none. -/
def readLine (m : Meaning) (line : List Char) : Except Trouble (Option (String × String)) :=
  let start := Cursor.skipBlanks ⟨Text.trimEndChars line, 0⟩
  if start.isDone then .ok none
  else
    match readName start with
    | .error index => .error (.line (String.ofList line) index)
    | .ok (name, c) =>
      let c := c.skipBlanks
      if c.isDone then .ok (some (name, ""))
      else
        let text := String.ofList c.rest
        match readValue m text.utf8ByteSize 0 {} c.rest with
        | .ok value => .ok (some (name, String.ofList value))
        | .error index => .error (.line text index)

/-- Carries assignments out in order; a variable that is set keeps its value. -/
def assign (m : Meaning) : List (Except Trouble (List Char)) → Table String × Option Trouble
  | [] => (m.environment, none)
  | .error trouble :: _ => (m.environment, some trouble)
  | .ok line :: rest =>
    match readLine m line with
    | .error trouble => (m.environment, some trouble)
    | .ok none => assign m rest
    | .ok (some (name, value)) =>
      let assigned := Table.insert name value m.assigned
      let environment :=
        if (Table.get? name m.environment).isSome then m.environment
        else Table.insert name value m.environment
      assign ⟨environment, assigned⟩ rest

def fileLines (bytes : List UInt8) : List (Except Trouble (List Char)) :=
  let bytes := match bytes with
    | 0xEF :: 0xBB :: 0xBF :: rest => rest
    | bytes => bytes
  logicalLines [] .plain ((physicalLines bytes).map Text.Utf8.decode?)

/-- The environment after a file has been read into it, and why the file was given up, if it
was. -/
def apply (environment : Table String) (bytes : List UInt8) : Table String × Option Trouble :=
  assign ⟨environment, []⟩ (fileLines bytes)

end Gatehouse.Config.Dotenv
