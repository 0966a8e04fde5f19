import Gatehouse.Component.Work
import Gatehouse.Policy.Rules

/-!
# Exported methods

A component exports methods by name.  An export starts afresh: what an earlier export of the name
declared is gone, and the declarations that follow belong to the new one.
-/

namespace Gatehouse.Component

open Response (Edit MethodResult)

/-- Completes a response on its own, from the result that a method returned. -/
abbrev Finisher (σ : Type) := σ → RequestContext → MethodResult → Edit Unit

/-- An exported method. -/
structure Method (σ : Type) where
  name : String
  call : Work σ MethodResult
  /-- The properties of which a caller needs one, if the method declares any. -/
  required : Option (List String) := none
  finisher : Option (Finisher σ) := none

/-- What the names of exports begin with. -/
def exportLead : String := "export_"

def Method.exportName {σ : Type} (m : Method σ) : String := exportLead ++ m.name

/-- The exported methods by name. -/
abbrev MethodTable (σ : Type) := Table (Method σ)

namespace MethodTable

variable {σ : Type}

def publish (table : MethodTable σ) (name : String) (call : Work σ MethodResult) :
    MethodTable σ :=
  Table.insert name { name, call } table

/-- Changes the declarations of an exported method. -/
def declare (table : MethodTable σ) (name : String) (change : Method σ → Method σ) :
    MethodTable σ :=
  table.map fun (key, method) => (key, if key = name then change method else method)

def auth (table : MethodTable σ) (name : String) (properties : List String) : MethodTable σ :=
  table.declare name fun method => { method with required := some properties }

/-- Declares the properties of a comma-separated list. -/
def authList (table : MethodTable σ) (name : String) (list : String) : MethodTable σ :=
  table.auth name (Policy.parseProperties list)

/-- Declares that a method's responses are completed by `finisher`. -/
def finishWith (table : MethodTable σ) (name : String) (finisher : Finisher σ) : MethodTable σ :=
  table.declare name fun method => { method with finisher := some finisher }

def resolve (table : MethodTable σ) (name : String) : Option (Method σ) := Table.get? name table

end MethodTable

end Gatehouse.Component
