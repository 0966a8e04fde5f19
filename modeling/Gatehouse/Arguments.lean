import Gatehouse.Request
import Gatehouse.Response.Codec
import Gatehouse.ServiceError
import Gatehouse.Text.AsciiCase

/-!
# Request arguments

The query and a form or object body make one map of arguments; the body wins over the query and the
later of two equal names over the earlier.  By default the argument `method` names the method,
`args` holds the positional arguments as a list or as the text of one, and every name that is not
reserved is a keyword argument.
-/

namespace Gatehouse

/-- The decoded arguments of a request. -/
structure Arguments where
  path : String
  values : Json.Object

namespace Arguments

def methodName : String := "method"

def argsName : String := "args"

def rawContentName : String := "rawContent"

def extraCredentialsName : String := "extraCredentials"

/-- The names that are not keyword arguments. -/
def reserved : List String := [methodName, argsName, rawContentName, extraCredentialsName]

def addPairs (values : Json.Object) (pairs : List (String × String)) : Json.Object :=
  pairs.foldl (fun values (name, value) => Table.insert name (.str value) values) values

def addBody (request : Request) (values : Json.Object) : Except ServiceError Json.Object :=
  if request.body.isEmpty then .ok values
  else
    match request.contentType? with
    | none => .ok values
    | some type =>
      if Text.sameIgnoringCase type Request.formType then
        .ok (addPairs values (Http.formDecode request.body))
      else if Text.sameIgnoringCase type Response.structuredType then
        match Response.Codec.json.decode request.body with
        | .ok (.obj members) => .ok (Table.extend values members)
        | .ok _ => .error (.badRequest "JSON body must be an object")
        | .error e => .error (.badRequest s!"Invalid JSON body: {e.message}")
      else .ok values

/-- The arguments of a request. -/
def parse (request : Request) : Except ServiceError Arguments := do
  let values := match request.query with
    | some query => addPairs [] (Http.formDecode (Text.Utf8.encode query))
    | none => []
  let values ← addBody request values
  return ⟨request.path, values⟩

def get? (a : Arguments) (name : String) : Option Json := Table.get? name a.values

def text? (a : Arguments) (name : String) : Option String := (a.get? name).bind Json.str?

/-- Whether the caller asked for a body without encoding: anything but nothing, zero, an empty
text, `0` and `false`. -/
def rawContent (a : Arguments) : Bool :=
  match a.get? rawContentName with
  | none | some .null => false
  | some (.bool flag) => flag
  | some (.str s) =>
    let s := Text.trim s
    !(s.isEmpty || s == "0" || Text.sameIgnoringCase s "false")
  | some (.int i) => i ≠ 0
  | some (.float x) => !x.isZero
  | some _ => true

/-- The method that the arguments name. -/
def defaultMethod (a : Arguments) : Except ServiceError String :=
  match a.text? methodName with
  | some method => .ok method
  | none => .error (.badRequest "Missing argument method")

/-- The positional arguments. -/
def positional (a : Arguments) : Except ServiceError (List Json) :=
  match a.get? argsName with
  | none | some .null => .ok []
  | some (.arr items) => .ok items
  | some (.str encoded) =>
    match Json.readText encoded with
    | .ok (.arr items) => .ok items
    | .ok _ => .error (.badRequest "args must be a JSON array")
    | .error fault => .error (.badRequest s!"Cannot decode args: {fault.message}")
  | some _ => .error (.badRequest "args must be a JSON array")

/-- The keyword arguments. -/
def keywords (a : Arguments) : Json.Object :=
  a.values.filter fun (name, _) => !reserved.contains name

def defaultArguments (a : Arguments) : Except ServiceError (List Json × Json.Object) := do
  let args ← a.positional
  return (args, a.keywords)

end Arguments

end Gatehouse
