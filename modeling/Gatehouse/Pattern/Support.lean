import Gatehouse.Pattern.Basic

/-!
# Supported patterns

Not every well-formed pattern can be made into a matcher.  Tables of letters are not at hand, so a
pattern cannot ask for letters without regard to case, nor for the digits, blanks and word
characters of all scripts; a pattern about bytes has to stay within ASCII, so that it only matches
text.  The ends of words in all scripts are understood but cannot be matched.
-/

namespace Gatehouse.Pattern

/-- The switches that matter here. -/
structure Mode where
  ignoreCase : Bool := false
  unicode : Bool := true
  deriving DecidableEq, Repr

def Mode.switch (m : Mode) (switches : List Switch) : Mode where
  ignoreCase := (setting? .ignoreCase switches).getD m.ignoreCase
  unicode := (setting? .unicode switches).getD m.unicode

def isAscii (c : Char) : Bool := c.toNat < 0x80

mutual

def Class.isSupported (m : Mode) : Class → Bool
  | .literal l => if m.unicode then !m.ignoreCase else isAscii l.char
  | .range first last =>
    if m.unicode then !m.ignoreCase else isAscii first.char && isAscii last.char
  | .named negated => if m.unicode then !m.ignoreCase else !negated
  | .shorthand negated => !m.unicode && !negated
  | .nested negated contents => Class.isSupported m contents && (m.unicode || !negated)
  | .union parts => areSupported m parts
  | .operation left right => Class.isSupported m left && Class.isSupported m right

def areSupported (m : Mode) : List Class → Bool
  | [] => true
  | part :: parts => Class.isSupported m part && areSupported m parts

end

/-- What making a pattern comes to: the mode behind it, and whether it has ends of words in all
scripts. -/
structure Outcome where
  mode : Mode
  hasWordEnds : Bool := false
  deriving DecidableEq, Repr

def Outcome.of? (m : Mode) (supported : Bool) : Option Outcome :=
  if supported then some { mode := m } else none

mutual

/-- Makes a pattern in a mode, if it is supported. -/
def outcome? (m : Mode) : Pattern → Option Outcome
  | .empty | .anchor => some { mode := m }
  | .switched list => some { mode := m.switch list }
  | .literal l =>
    Outcome.of? m (if m.unicode then !m.ignoreCase else !l.isByte || isAscii l.char)
  | .dot => Outcome.of? m m.unicode
  | .wordEnd => some { mode := m, hasWordEnds := m.unicode }
  | .shorthand negated => Outcome.of? m (!m.unicode && !negated)
  | .oneOf negated contents =>
    Outcome.of? m (Class.isSupported m (.nested negated contents))
  | .repeated never p => do
    let made ← outcome? m p
    return { made with hasWordEnds := made.hasWordEnds && !never }
  | .group list p => do
    let made ← outcome? (m.switch list) p
    return { made with mode := m }
  | .alternatives ps | .sequence ps => outcomes? m ps

def outcomes? (m : Mode) : List Pattern → Option Outcome
  | [] => some { mode := m }
  | p :: ps => do
    let first ← outcome? m p
    let rest ← outcomes? first.mode ps
    return { rest with hasWordEnds := first.hasWordEnds || rest.hasWordEnds }

end

end Gatehouse.Pattern
