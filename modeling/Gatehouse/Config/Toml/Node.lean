import Gatehouse.Json.Document

/-!
# Tables under construction

The tables of a TOML document are built from headers and keys in any order, but each table may be
defined only once.  A table that is only mentioned on the way to another is implicit and may still
be defined by a header; one that comes from the points of a key may only be extended by such keys.
-/

namespace Gatehouse.Config.Toml

open Json (Document)

/-- A part of a document under construction. -/
inductive Node where
  | leaf (document : Document)
  /-- A table, with its entries in order of appearance. -/
  | table («implicit» dotted : Bool) (entries : List (String × Node))
  /-- Tables that headers in double brackets add one by one. -/
  | tables (items : List Node)

namespace Node

def empty : Node := .table false false []

def replace (name : String) (node : Node) (entries : List (String × Node)) :
    List (String × Node) :=
  entries.map fun (key, old) => (key, if key = name then node else old)

/-- Changes the table at a path.  Tables that are missing on the way are made; of several tables the
last is meant.  Where the path comes from a dotted key it may not pass through a table that is
defined otherwise. -/
def alter (dotted : Bool) (change : Node → Option (α × Node)) : List String → Node →
    Option (α × Node)
  | [], node => change node
  | name :: path, .table isImplicit isDotted entries =>
    match entries.lookup name with
    | none => do
      let (a, child) ← alter dotted change path (.table true dotted [])
      return (a, .table isImplicit isDotted (entries ++ [(name, child)]))
    | some (.table true childDotted children) => do
      let (a, child) ← alter dotted change path (.table true childDotted children)
      return (a, .table isImplicit isDotted (replace name child entries))
    | some (.table false childDotted children) =>
      if dotted then none
      else do
        let (a, child) ← alter dotted change path (.table false childDotted children)
        return (a, .table isImplicit isDotted (replace name child entries))
    | some (.tables items) =>
      match items.getLast? with
      | none => none
      | some last => do
        let (a, child) ← alter dotted change path last
        return (a, .table isImplicit isDotted
          (replace name (.tables (items.dropLast ++ [child])) entries))
    | some (.leaf _) => none
  | _ :: _, _ => none

/-- Binds a key in a table.  `direct` says that the key has no points; only a table that comes from
the points of keys takes others. -/
def bind (direct : Bool) (name : String) (value : Node) : Node → Option (Unit × Node)
  | .table isImplicit dotted entries =>
    if dotted = direct ∨ (entries.lookup name).isSome then none
    else some ((), .table isImplicit dotted (entries ++ [(name, value)]))
  | _ => none

def insert (parts : List String) (value : Document) (node : Node) : Option Node := do
  let path := parts.dropLast
  let name ← parts.getLast?
  let ((), node) ← alter true (bind path.isEmpty name (.leaf value)) path node
  return node

/-- Takes out the table that a header is about to define: what is already there must be implicit. -/
def claim (name : String) : Node → Option (Node × Node)
  | .table isImplicit dotted entries =>
    match entries.lookup name with
    | none => some (empty, .table isImplicit dotted entries)
    | some (.table true false children) =>
      some (.table false false children,
        .table isImplicit dotted (entries.filter fun (key, _) => key ≠ name))
    | some _ => none
  | _ => none

/-- Puts a defined table back. -/
def define (name : String) (table : Node) : Node → Option (Unit × Node)
  | .table isImplicit dotted entries =>
    match entries.lookup name with
    | none => some ((), .table isImplicit dotted (entries ++ [(name, table)]))
    | some _ => none
  | _ => none

/-- Makes sure that a name stands for a list of tables. -/
def claimTables (name : String) : Node → Option (Node × Node)
  | .table isImplicit dotted entries =>
    match entries.lookup name with
    | none => some (empty, .table isImplicit dotted (entries ++ [(name, .tables [])]))
    | some (.tables _) => some (empty, .table isImplicit dotted entries)
    | some _ => none
  | _ => none

def push (name : String) (table : Node) : Node → Option (Unit × Node)
  | .table isImplicit dotted entries =>
    match entries.lookup name with
    | some (.tables items) =>
      some ((), .table isImplicit dotted (replace name (.tables (items ++ [table])) entries))
    | _ => none
  | _ => none

mutual

def toDocument : Node → Document
  | .leaf document => document
  | .table _ _ entries => .table (toEntries entries)
  | .tables items => .list (toDocuments items)

def toEntries : List (String × Node) → List (String × Document)
  | [] => []
  | (name, node) :: rest => (name, toDocument node) :: toEntries rest

def toDocuments : List Node → List Document
  | [] => []
  | node :: rest => toDocument node :: toDocuments rest

end

mutual

/-- The finished document of a table that is written as a value. -/
def toInline : Node → Document
  | .leaf document => document
  | .table _ _ entries => .inlineTable (toInlineEntries entries)
  | .tables items => .list (toDocuments items)

def toInlineEntries : List (String × Node) → List (String × Document)
  | [] => []
  | (name, node) :: rest => (name, toInline node) :: toInlineEntries rest

end

end Node

end Gatehouse.Config.Toml
