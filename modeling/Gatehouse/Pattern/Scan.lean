import Gatehouse.Text.Blank

/-!
# Scanning patterns

A scanner takes parts off the front of a pattern.  Where the switch for it is on, blanks and
comments between the parts do not count.
-/

namespace Gatehouse.Pattern

/-- What is left of a pattern, whether blanks count, and the names of the groups so far. -/
structure Remainder where
  rest : List Char
  skipsBlanks : Bool := false
  names : List (List Char) := []

/-- Reads a part of a pattern, unless it is malformed. -/
abbrev Scan := StateT Remainder Option

namespace Scan

def rest : Scan (List Char) := return (← get).rest

def peek : Scan (Option Char) := return (← rest).head?

def setRest (cs : List Char) : Scan Unit := modify fun r => { r with rest := cs }

def bump : Scan Unit := do setRest (← rest).tail

def dropBlanks (inComment : Bool) : List Char → List Char
  | [] => []
  | c :: cs =>
    if inComment then dropBlanks (c != '\n') cs
    else if Text.isBlank c then dropBlanks false cs
    else if c = '#' then dropBlanks true cs
    else c :: cs

/-- Passes what does not count. -/
def space : Scan Unit := do
  if (← get).skipsBlanks then setRest (dropBlanks false (← rest))

/-- Passes one character and what does not count behind it; something has to follow. -/
def bumpOn : Scan Unit := do
  bump
  space
  if (← rest).isEmpty then failure

def char : Scan Char := do
  match ← peek with
  | some c => return c
  | none => failure

def passes (lead : List Char) : Scan Bool := do
  let cs ← rest
  if lead.isPrefixOf cs then
    setRest (cs.drop lead.length)
    return true
  else return false

def expect (c : Char) : Scan Unit := do
  if (← char) = c then bump else failure

/-- The first character that counts behind the unread one.  In a comment the first character that is
no blank is taken for it. -/
def peekOn : Scan (Option Char) := do
  let behind := (← rest).tail
  if (← get).skipsBlanks then return (first? false behind <|> behind.head?) else return behind.head?
where
  first? (inComment : Bool) : List Char → Option Char
    | [] => none
    | c :: cs =>
      if Text.isBlank c then first? inComment cs
      else if c = '#' && !inComment then first? true cs
      else some c

end Scan

end Gatehouse.Pattern
