import Gatehouse.Response.Writer

/-!
# Deferred responses

A method cannot touch the response while it runs.  It records what should be done in a log, which
is replayed on the writer afterwards.
-/

namespace Gatehouse.Response

open Http (Status)

/-- One recorded operation. -/
inductive Action where
  | setStatus (status : Status)
  | setHeader (name value : String)
  | addHeader (name value : String)
  | clearHeader (name : String)
  | write (payload : Payload)
  | redirect (location : String) (status : Status)
  | finish (payload : Option Payload)
  | sendError (status : Status) (message : String)
  | custom (script : Edit Unit)

namespace Action

def apply : Action → Edit Unit
  | .setStatus status => Edit.setStatus status
  | .setHeader name value => Edit.setHeader name value
  | .addHeader name value => Edit.addHeader name value
  | .clearHeader name => Edit.clearHeader name
  | .write payload => Edit.write payload
  | .redirect location status => Edit.redirect location status
  | .finish payload => Edit.finish payload
  | .sendError status message => Edit.sendError status message
  | .custom script => script

def strip : Action → Action
  | .write payload => .write payload.strip
  | .finish payload => .finish (payload.map Payload.strip)
  | other => other

end Action

/-- Applies recorded operations in order, up to the first error. -/
def applyAll : List Action → Edit Unit
  | [] => pure ()
  | action :: rest => do
    action.apply
    applyAll rest

/-- A log: a status to begin with, operations, and a payload to end with. -/
structure Deferred where
  payload : Option Payload := none
  status : Option Status := none
  actions : List Action := []

namespace Deferred

def strip (log : Deferred) : Deferred :=
  { log with payload := log.payload.map Payload.strip, actions := log.actions.map Action.strip }

/-- Replays the log and completes the response unless an operation already did. -/
def replay (log : Deferred) : Edit Unit := do
  Edit.ensureOpen
  match log.status with
  | some status => Edit.setStatus status
  | none => pure ()
  applyAll log.actions
  if !(← get).finished then Edit.finish log.payload

end Deferred

end Gatehouse.Response
