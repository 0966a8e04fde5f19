import Gatehouse.Base64
import Gatehouse.Text.Blank
import Gatehouse.Text.Split
import Gatehouse.Text.Utf8

/-!
# Armoured certificates

A chain is a text with blocks between two marker lines.  The body of a block is base64 in which
blanks count for nothing, and whatever stands between the blocks is passed over.
-/

namespace Gatehouse.Certificate

def beginMark : List Char := "-----BEGIN CERTIFICATE-----".toList

def endMark : List Char := "-----END CERTIFICATE-----".toList

/-- Why a text is not a chain of armoured blocks. -/
inductive PemError where
  | unterminated
  | badBody (error : Base64.DecodeError)
  deriving DecidableEq, Repr

def PemError.message : PemError → String
  | .unterminated => "unterminated PEM block"
  | .badBody error => s!"bad PEM body: {error.message}"

def decodeBody (body : List Char) : Except PemError (List UInt8) :=
  let symbols := (body.filter fun c => !Text.isBlank c).flatMap String.utf8EncodeChar
  (Base64.decode Base64.standard symbols).mapError .badBody

/-- The blocks of a text, in order. -/
def pemBlocks (text : List Char) : Except PemError (List (List UInt8)) :=
  match _hbegin : Text.cutAt? beginMark text with
  | none => .ok []
  | some (_, fromBody) =>
    match _hend : Text.cutAt? endMark fromBody with
    | none => .error .unterminated
    | some (body, rest) => do
      let block ← decodeBody body
      let blocks ← pemBlocks rest
      return block :: blocks
termination_by text.length
decreasing_by
  have hb := congrArg List.length (Text.cutAt?_eq_some _hbegin)
  have he := congrArg List.length (Text.cutAt?_eq_some _hend)
  simp only [List.length_append] at hb he
  have : beginMark.length = 27 := rfl
  omega

def armour (bytes : List UInt8) : String :=
  let symbols := (Base64.encode Base64.standard bytes).map fun b => Char.ofNat b.toNat
  String.ofList (beginMark ++ '\n' :: symbols ++ '\n' :: endMark ++ ['\n'])

end Gatehouse.Certificate
