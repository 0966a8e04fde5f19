import Gatehouse.Http.Form
import Gatehouse.Http.Header
import Gatehouse.Net.Address
import Gatehouse.Text.Blank
import Gatehouse.Text.Split

/-!
# Requests

A request as the service sees it, however it arrived: method, path, query, headers, body, and what
is known of the other end of the connection.
-/

namespace Gatehouse

open Http (Headers)

/-- A request. -/
structure Request where
  method : String := "GET"
  path : String
  /-- The text behind the `?`. -/
  query : Option String := none
  headers : Headers := .empty
  body : List UInt8 := []
  peer : Option Net.SocketAddress := none
  /-- The client's certificate chain, if the connection itself verified one. -/
  peerCertificates : Option (List String) := none

namespace Request

/-- A method name is a token. -/
def isMethod (s : String) : Bool :=
  !s.isEmpty && s.toList.all Http.isTokenChar

def invalidMethodMessage : String := "invalid HTTP method"

/-- A request for `/path?query`. -/
def ofTarget (method target : String) : Request :=
  match Text.cut? '?' target.toList with
  | some (path, query) =>
    { method, path := String.ofList path, query := some (String.ofList query) }
  | none => { method, path := target }

def formType : String := "application/x-www-form-urlencoded"

def form (target : String) (fields : List (String × String)) : Request :=
  { ofTarget "POST" target with
    headers := Headers.empty.offer "content-type" (Text.Utf8.encode formType)
    body := Http.formEncode fields }

/-- The content type without its parameters. -/
def contentType? (r : Request) : Option String :=
  (r.headers.text? "content-type").map fun value =>
    match Text.cut? ';' value.toList with
    | some (before, _) => String.ofList (Text.trimChars before)
    | none => Text.trim value

end Request

end Gatehouse
