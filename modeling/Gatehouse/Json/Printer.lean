import Gatehouse.Json.Basic
import Gatehouse.Number.Shortest
import Gatehouse.Text.Hex
import Gatehouse.Text.Utf8

/-!
# Compact text of a structured value

No blanks, members in order, control characters escaped and every other character as it is.
-/

namespace Gatehouse.Json

def escapeChar (c : Char) : List Char :=
  if c = '"' then ['\\', '"']
  else if c = '\\' then ['\\', '\\']
  else if c.toNat < 0x20 then
    if c = '\n' then ['\\', 'n']
    else if c = '\r' then ['\\', 'r']
    else if c = '\t' then ['\\', 't']
    else if c.toNat = 8 then ['\\', 'b']
    else if c.toNat = 12 then ['\\', 'f']
    else ['\\', 'u', '0', '0', Text.Hex.digit (c.toNat / 16), Text.Hex.digit (c.toNat % 16)]
  else [c]

def quoteChars (cs : List Char) : List Char :=
  '"' :: (cs.flatMap escapeChar ++ ['"'])

mutual

/-- The compact text of a value. -/
def renderChars : Json → List Char
  | .null => ['n', 'u', 'l', 'l']
  | .bool true => ['t', 'r', 'u', 'e']
  | .bool false => ['f', 'a', 'l', 's', 'e']
  | .int i => (toString i).toList
  | .float x => x.compactText.toList
  | .str s => quoteChars s.toList
  | .arr [] => ['[', ']']
  | .arr (item :: rest) => '[' :: (renderChars item ++ renderItems rest)
  | .obj [] => ['\x7b', '\x7d']
  | .obj ((name, value) :: rest) =>
    '\x7b' :: (quoteChars name.toList ++ ':' :: (renderChars value ++ renderMembers rest))

/-- The items after the first, with the closing bracket. -/
def renderItems : List Json → List Char
  | [] => [']']
  | item :: rest => ',' :: (renderChars item ++ renderItems rest)

/-- The members after the first, with the closing brace. -/
def renderMembers : List (String × Json) → List Char
  | [] => ['\x7d']
  | (name, value) :: rest =>
    ',' :: (quoteChars name.toList ++ ':' :: (renderChars value ++ renderMembers rest))

end

def render (value : Json) : String := String.ofList (renderChars value)

def renderBytes (value : Json) : List UInt8 :=
  (renderChars value).flatMap String.utf8EncodeChar

end Gatehouse.Json
