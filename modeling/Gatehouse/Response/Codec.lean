import Gatehouse.Http.Header
import Gatehouse.Json.Printer
import Gatehouse.Json.Read

/-!
# Codecs

A codec writes structured values as bytes of one content type and reads them back.
-/

namespace Gatehouse.Response

/-- Why a codec refuses a value or a byte string. -/
inductive CodecError where
  | encode (reason : String)
  | decode (reason : String)
  deriving DecidableEq, Repr

def CodecError.message : CodecError → String
  | .encode reason => s!"encode failed: {reason}"
  | .decode reason => s!"decode failed: {reason}"

/-- A wire form of structured values.  Its content type is announced in a header as it stands, so
it has to be a text that a header can hold. -/
structure Codec where
  contentType : String
  encode : Json → Except CodecError (List UInt8)
  decode : List UInt8 → Except CodecError Json
  visible : ∀ b ∈ Text.Utf8.encode contentType, Http.isVisibleByte b = true := by decide +kernel

def structuredType : String := "application/json"

def octetStream : String := "application/octet-stream"

/-- Compact structured text. -/
def Codec.json : Codec where
  contentType := structuredType
  encode value := .ok value.renderBytes
  decode bytes := (Json.read bytes).mapError fun e => .decode e.message

end Gatehouse.Response
