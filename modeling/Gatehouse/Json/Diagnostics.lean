import Gatehouse.Json.Basic

/-!
# Diagnostic members

Methods may leave execution details and call stacks in their results.  They are for the log, not
for the client: `strip` removes them from a value at every depth.
-/

namespace Gatehouse.Json

def execInfoKey : String := "ExecInfo"

def callStackKey : String := "CallStack"

/-- A member name that is never sent. -/
def isDiagnostic (name : String) : Bool := name == execInfoKey || name == callStackKey

mutual

/-- The value without diagnostic members. -/
def strip : Json → Json
  | .obj members => .obj (stripMembers members)
  | .arr items => .arr (stripItems items)
  | value => value

def stripItems : List Json → List Json
  | [] => []
  | item :: rest => strip item :: stripItems rest

def stripMembers : List (String × Json) → List (String × Json)
  | [] => []
  | (name, value) :: rest =>
    if isDiagnostic name then stripMembers rest
    else (name, strip value) :: stripMembers rest

end

mutual

/-- Whether a diagnostic member stands somewhere in the value. -/
def hasDiagnostics : Json → Bool
  | .obj members => membersHaveDiagnostics members
  | .arr items => itemsHaveDiagnostics items
  | _ => false

def itemsHaveDiagnostics : List Json → Bool
  | [] => false
  | item :: rest => hasDiagnostics item || itemsHaveDiagnostics rest

def membersHaveDiagnostics : List (String × Json) → Bool
  | [] => false
  | (name, value) :: rest =>
    isDiagnostic name || hasDiagnostics value || membersHaveDiagnostics rest

end

end Gatehouse.Json
