import Gatehouse.Text.AsciiCase
import Gatehouse.Text.Utf8

/-!
# Headers

Header names are tokens and compared without regard to case; they are kept in lower case.  A value
is any byte string without control characters other than the tab.  `Headers` keeps the values of
one name in the order in which they were added.
-/

namespace Gatehouse.Http

def isTokenChar (c : Char) : Bool :=
  c.isAlphanum || "!#$%&'*+-.^_`|~".toList.contains c

def maxNameLength : Nat := 65535

def headerName? (s : String) : Option String :=
  if s.isEmpty || s.length > maxNameLength || !s.toList.all isTokenChar then none
  else some (Text.lowerAscii s)

def isValueByte (b : UInt8) : Bool := (32 ≤ b && b ≠ 127) || b == 9

/-- The bytes, if they are a header value. -/
def headerValue? (bytes : List UInt8) : Option (List UInt8) :=
  if bytes.all isValueByte then some bytes else none

def isVisibleByte (b : UInt8) : Bool := (32 ≤ b && b < 127) || b == 9

/-- A header value read as text, if it is visible ASCII. -/
def visibleText? (value : List UInt8) : Option String :=
  if value.all isVisibleByte then
    some (String.ofList (value.map fun b => Char.ofNat b.toNat))
  else none

/-- The headers of a message: names in lower case, values in order of arrival. -/
structure Headers where
  entries : List (String × List UInt8) := []
  deriving DecidableEq, Repr

namespace Headers

def empty : Headers := ⟨[]⟩

def getAll (name : String) (h : Headers) : List (List UInt8) :=
  h.entries.filterMap fun (key, value) => if key = name then some value else none

def get? (name : String) (h : Headers) : Option (List UInt8) := (h.getAll name).head?

def text? (name : String) (h : Headers) : Option String := (h.get? name).bind visibleText?

def remove (name : String) (h : Headers) : Headers :=
  ⟨h.entries.filter fun (key, _) => key ≠ name⟩

/-- Adds a value after those that `name` already has. -/
def append (name : String) (value : List UInt8) (h : Headers) : Headers :=
  ⟨h.entries ++ [(name, value)]⟩

/-- Makes `value` the only value of `name`. -/
def insert (name : String) (value : List UInt8) (h : Headers) : Headers :=
  (h.remove name).append name value

/-- Adds a header as it is given; an invalid one is left out. -/
def offer (name : String) (value : List UInt8) (h : Headers) : Headers :=
  match headerName? name, headerValue? value with
  | some name, some value => h.append name value
  | _, _ => h

/-- The entries sorted by name, the values of one name in their own order. -/
def sorted (h : Headers) : List (String × List UInt8) :=
  h.entries.mergeSort fun a b => a.1 ≤ b.1

end Headers

end Gatehouse.Http
