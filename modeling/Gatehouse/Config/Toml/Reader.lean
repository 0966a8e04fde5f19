import Gatehouse.Config.Toml.Node
import Gatehouse.Config.Toml.Scalar

/-!
# Reading TOML documents

A document is a sequence of lines: bindings of keys, and headers that say which table the bindings
behind them belong to.  `read?` gives the document's tables in order of appearance, or nothing if
the text is malformed or defines something twice.
-/

namespace Gatehouse.Config.Toml

open Json (Document)

/-! ## Values -/

/-- How deep lists and inline tables may be nested. -/
def maxDepth : Nat := 79

def list (value : Front Document) : Front Document := do
  char '['
  let item : Front Document := do spacing; let v ← value; spacing; return v
  let items ← (separated (char ',') item) <|> pure []
  if !items.isEmpty then
    let _ ← optional? (char ',')
  spacing
  char ']'
  return .list items

def binding (value : Front Document) : Front (List String × Document) := do
  let parts ← key
  char '='
  blanks
  return (parts, ← value)

def inlineTable (value : Front Document) : Front Document := do
  char '{'
  let pair := do let b ← binding value; blanks; return b
  let pairs ← (separated (char ',') pair) <|> pure []
  blanks
  char '}'
  let node ← liftM (pairs.foldlM (fun node (parts, v) => Node.insert parts v node) Node.empty)
  return node.toInline

/-- A value whose lists and inline tables are nested at most `depth` deep. -/
def value : Nat → Front Document
  | 0 => scalar
  | depth + 1 => scalar <|> list (value depth) <|> inlineTable (value depth)

/-! ## Lines -/

/-- What stands on a line. -/
inductive Line where
  | empty
  | binding (parts : List String) (value : Document)
  | header (parts : List String)
  /-- A header in double brackets. -/
  | listHeader (parts : List String)

def line : Front Line := do
  blanks
  (do newline; return .empty)
    <|> (do comment; newline <|> atEnd; return .empty)
    <|> (do
      literal ['[', '[']
      let parts ← key
      literal [']', ']']
      lineRest
      return .listHeader parts)
    <|> (do
      char '['
      let parts ← key
      char ']'
      lineRest
      return .header parts)
    <|> (do
      let (parts, v) ← Toml.binding (value maxDepth)
      lineRest
      return .binding parts v)

/-- All lines of a document. -/
def lines : Front (List Line) := do
  let all ← many line
  blanks
  atEnd
  return all

/-! ## Tables -/

/-- Where bindings go. -/
structure Draft where
  root : Node := .empty
  /-- The table that bindings go to, and where it will stand. -/
  current : Node := .empty
  path : List String := []
  inList : Bool := false

namespace Draft

def close (d : Draft) : Option Node :=
  match d.path.getLast? with
  | none => some d.current
  | some name =>
    let place := if d.inList then Node.push name d.current else Node.define name d.current
    (Node.alter false place d.path.dropLast d.root).map Prod.snd

def open? (d : Draft) (parts : List String) (inList : Bool) : Option Draft := do
  let root ← d.close
  let name ← parts.getLast?
  let claim := if inList then Node.claimTables name else Node.claim name
  let (current, root) ← Node.alter false claim parts.dropLast root
  return { root, current, path := parts, inList }

def add (d : Draft) : Line → Option Draft
  | .empty => some d
  | .binding parts v => (d.current.insert parts v).map fun current => { d with current }
  | .header parts => d.open? parts false
  | .listHeader parts => d.open? parts true

end Draft

def read? (text : String) : Option Document := do
  let cs := match text.toList with
    | '\uFEFF' :: rest => rest
    | cs => cs
  let (all, _) ← lines cs
  let draft ← all.foldlM Draft.add {}
  return (← draft.close).toDocument

end Gatehouse.Config.Toml
