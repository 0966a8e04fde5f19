import Gatehouse.Http.Header
import Gatehouse.Json.Diagnostics
import Gatehouse.Response.Codec
import Gatehouse.ServiceError

/-!
# Response writers

A writer collects status, headers and body until it is finished, and from then on refuses every
operation.  Operations run in `Edit`, whose failures keep the writer as it stands at that moment:
an operation that fails half-way shows what it had already done.
-/

namespace Gatehouse.Response

open Http (Headers Status)

/-- Why a writer refuses an operation. -/
inductive TransportError where
  | alreadyFinished
  | invalidHeader (name reason : String)
  | codec (error : CodecError)
  deriving DecidableEq, Repr

def TransportError.message : TransportError → String
  | .alreadyFinished => "response already finished"
  | .invalidHeader name reason => s!"invalid header {name}: {reason}"
  | .codec error => error.message

/-- A piece of a body. -/
inductive Payload where
  | bytes (bytes : List UInt8)
  | text (text : String)
  | structured (value : Json)

def Payload.strip : Payload → Payload
  | .structured value => .structured value.strip
  | other => other

/-- A response under construction. -/
structure Writer where
  codec : Codec
  status : Status := .ok
  headers : Headers := .empty
  body : List UInt8 := []
  finished : Bool := false

def Writer.new (codec : Codec := .json) : Writer := { codec }

/-- Operations on a writer.  An error ends them; the writer keeps what was done before it. -/
abbrev Edit := ExceptT TransportError (StateM Writer)

/-- Runs an operation: its result and the writer it leaves. -/
def Writer.edit (w : Writer) (op : Edit α) : Except TransportError α × Writer :=
  op.run w

def badHeaderName : String := "invalid HTTP header name"

def badHeaderValue : String := "failed to parse header value"

namespace Edit

def ensureOpen : Edit Unit := do
  if (← get).finished then throw .alreadyFinished

def checkHeader (name value : String) : Edit (String × List UInt8) :=
  match Http.headerName? name with
  | none => throw (.invalidHeader name badHeaderName)
  | some lower =>
    match Http.headerValue? (Text.Utf8.encode value) with
    | none => throw (.invalidHeader name badHeaderValue)
    | some bytes => return (lower, bytes)

/-- Adds a payload to the body.  A structured one is stripped, encoded by the writer's codec and
announced by its content type. -/
def append (payload : Payload) : Edit Unit := do
  match payload with
  | .bytes bytes => modify fun w => { w with body := w.body ++ bytes }
  | .text text => modify fun w => { w with body := w.body ++ Text.Utf8.encode text }
  | .structured value =>
    let w ← get
    match w.codec.encode value.strip with
    | .error error => throw (.codec error)
    | .ok encoded =>
      set { w with
        headers := w.headers.insert "content-type" (Text.Utf8.encode w.codec.contentType)
        body := w.body ++ encoded }

def setStatus (status : Status) : Edit Unit := do
  ensureOpen
  modify fun w => { w with status }

def setHeader (name value : String) : Edit Unit := do
  ensureOpen
  let (name, value) ← checkHeader name value
  modify fun w => { w with headers := w.headers.insert name value }

/-- Adds a value to those of its name. -/
def addHeader (name value : String) : Edit Unit := do
  ensureOpen
  let (name, value) ← checkHeader name value
  modify fun w => { w with headers := w.headers.append name value }

def clearHeader (name : String) : Edit Unit := do
  ensureOpen
  modify fun w => { w with headers := w.headers.remove (Text.lowerAscii name) }

def write (payload : Payload) : Edit Unit := do
  ensureOpen
  append payload

/-- Completes the response, with a last piece of body if there is one. -/
def finish (payload : Option Payload) : Edit Unit := do
  ensureOpen
  match payload with
  | some payload => append payload
  | none => pure ()
  modify fun w => { w with finished := true }

/-- Completes the response as a redirection. -/
def redirect (location : String) (status : Status) : Edit Unit := do
  ensureOpen
  match Http.headerValue? (Text.Utf8.encode location) with
  | none => throw (.invalidHeader "location" badHeaderValue)
  | some value =>
    modify fun w => { w with status, headers := w.headers.insert "location" value }
    finish none

/-- Completes the response as an error, dropping the body written so far. -/
def sendError (status : Status) (message : String) : Edit Unit := do
  ensureOpen
  modify fun w => { w with status, body := [] }
  finish (some (.structured ((ServiceError.http status message).envelope none)))

end Edit

end Gatehouse.Response
