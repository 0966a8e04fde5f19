import Gatehouse.Http.Percent

/-!
# Form coding

Pairs of texts as `name=value`, joined by `&`.  A blank is written as `+`; letters, digits and four
marks stand for themselves; every other byte is escaped.  Decoding never fails: empty pieces are
passed over, a piece without `=` has an empty value, and bytes that are not UTF-8 are replaced.
-/

namespace Gatehouse.Http

/-- A byte that stands for itself in a form. -/
def isFormByte (b : UInt8) : Bool :=
  isAlphanumericByte b || b == 42 || b == 45 || b == 46 || b == 95

def formEncodeText (s : String) : List UInt8 :=
  (Text.Utf8.encode s).flatMap fun b =>
    if isFormByte b then [b] else if b = 32 then [43] else percentEscape b

def formEncodePair (pair : String × String) : List UInt8 :=
  formEncodeText pair.1 ++ 61 :: formEncodeText pair.2

def formEncode : List (String × String) → List UInt8
  | [] => []
  | [pair] => formEncodePair pair
  | pair :: rest => formEncodePair pair ++ 38 :: formEncode rest

def formDecodeText (bytes : List UInt8) : String :=
  Text.Utf8.decodeLossy (percentDecode (bytes.map fun b => if b = 43 then 32 else b))

/-- The pieces between the occurrences of a byte. -/
def splitBytes (sep : UInt8) : List UInt8 → List (List UInt8)
  | [] => [[]]
  | b :: rest =>
    if b = sep then [] :: splitBytes sep rest
    else
      match splitBytes sep rest with
      | [] => [[b]]
      | piece :: more => (b :: piece) :: more

/-- The bytes before the first occurrence of a byte, and those after it. -/
def cutBytes (sep : UInt8) : List UInt8 → List UInt8 × List UInt8
  | [] => ([], [])
  | b :: rest =>
    if b = sep then ([], rest)
    else
      let (before, after) := cutBytes sep rest
      (b :: before, after)

/-- The pairs of a form, in order. -/
def formDecode (bytes : List UInt8) : List (String × String) :=
  (splitBytes 38 bytes).filterMap fun piece =>
    if piece.isEmpty then none
    else
      let (name, value) := cutBytes 61 piece
      some (formDecodeText name, formDecodeText value)

end Gatehouse.Http
