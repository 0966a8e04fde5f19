/-!
# ASCII case

Schemes, type names and policy tokens are compared without regard to the case of the letters `A`
to `Z`; every other character stands for itself.
-/

namespace Gatehouse.Text

/-- The text with the letters `A` to `Z` in lower case. -/
def lowerAscii (s : String) : String :=
  String.ofList (s.toList.map Char.toLower)

/-- The text with the letters `a` to `z` in upper case. -/
def upperAscii (s : String) : String :=
  String.ofList (s.toList.map Char.toUpper)

/-- Equality up to the case of ASCII letters. -/
def sameIgnoringCase (s t : String) : Bool :=
  lowerAscii s == lowerAscii t

def isAsciiAlphanumeric (c : Char) : Bool :=
  c.isAlphanum

end Gatehouse.Text
