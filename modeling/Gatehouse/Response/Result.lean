import Gatehouse.Response.Deferred

/-!
# Method results and how they complete a response

`MethodResult.finish` gives each shape of result its default encoding, `finishError` writes the
envelope of a failure, and `classify` names the outcome of a response for the log.
-/

namespace Gatehouse.Response

open Http (Status)

/-- What a method returns. -/
inductive MethodResult where
  | value (value : Json)
  | empty
  | deferred (log : Deferred)
  | raw (bytes : List UInt8)
  | text (text : String)

def MethodResult.strip : MethodResult → MethodResult
  | .value v => .value v.strip
  | .deferred log => .deferred log.strip
  | other => other

/-! ## Return structures -/

namespace Returns

def ok (value : Json) : Json := .obj [("OK", .bool true), ("Value", value)]

def error (message : String) : Json := .obj [("Message", .str message), ("OK", .bool false)]

/-- A failure with its message and where it came from. -/
def errorWithStack (message : String) (stack : List String) : Json :=
  .obj [(Json.callStackKey, Json.ofStrings stack), ("Message", .str message), ("OK", .bool false)]

/-- Whether a value is a return structure, and of which kind. -/
def outcome (value : Json) : Option (Except String Unit) :=
  match value.field? "OK" with
  | some (.bool true) => some (.ok ())
  | some (.bool false) => some (.error (((value.field? "Message").bind Json.str?).getD ""))
  | _ => none

end Returns

/-! ## Completing a response -/

/-- Completes the response with bytes of no declared structure. -/
def finishRaw (bytes : List UInt8) : Edit Unit := do
  Edit.setHeader "content-type" octetStream
  Edit.finish (some (.bytes bytes))

/-- Completes the response with a result.  `raw` asks for the body without encoding.  The answer is
the structured value that was sent, if one was. -/
def MethodResult.finish (result : MethodResult) (raw : Bool) : Edit (Option Json) := do
  match result.strip, raw with
  | .deferred log, _ =>
    log.replay
    return none
  | .empty, _ =>
    Edit.finish none
    return none
  | .raw bytes, _ =>
    finishRaw bytes
    return none
  | .text s, true =>
    finishRaw (Text.Utf8.encode s)
    return none
  | .value (.str s), true =>
    finishRaw (Text.Utf8.encode s)
    return none
  | .value v, true =>
    match (← get).codec.encode v with
    | .error error => throw (.codec error)
    | .ok bytes => finishRaw bytes
    return none
  | .text s, false =>
    Edit.finish (some (.text s))
    return none
  | .value v, false =>
    Edit.finish (some (.structured v))
    return some v

/-- Completes an open response with the envelope of an error. -/
def finishError (error : ServiceError) (requestId : Option String) : Edit Unit := do
  if (← get).finished then return
  Edit.setStatus error.status
  Edit.finish (some (.structured (error.envelope requestId)))

/-- Names the outcome of a response. -/
def classify (status : Status) (structured : Option Json) : String :=
  if status.code ≥ 400 then
    s!"ERROR {status.code}: " ++ status.reason?.getD "Unknown"
  else
    match structured.bind Returns.outcome with
    | some (.ok ()) => "OK"
    | some (.error message) => s!"ERROR: {message}"
    | none => s!"OK {status.code}"

end Gatehouse.Response
