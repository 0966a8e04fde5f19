/-!
# Text patterns

A pattern describes texts: characters and classes of characters, repeated, grouped, and joined one
behind the other or as alternatives.  A pattern is kept as far as it matters whether it can be made
into a matcher; which texts it matches is left to that.
-/

namespace Gatehouse.Pattern

/-- What a pattern can be told about the letters that follow. -/
inductive Flag where
  | ignoreCase | multiLine | dotMatchesLineFeed | swapGreed | unicode | crlf | ignoreSpace
  deriving DecidableEq, Repr

structure Switch where
  flag : Flag
  on : Bool
  deriving DecidableEq, Repr

/-- What a list of switches says of a flag. -/
def setting? (flag : Flag) (switches : List Switch) : Option Bool :=
  (switches.find? (·.flag = flag)).map (·.on)

/-- One character.  `isByte` says that it is written with two hexadecimal digits, which stand for a
byte where a pattern is about bytes. -/
structure Literal where
  char : Char
  isByte : Bool := false
  deriving DecidableEq, Repr

/-- A set of characters. -/
inductive Class where
  | literal (l : Literal)
  | range (first last : Literal)
  /-- A class with a name between colons. -/
  | named (negated : Bool)
  /-- Digits, blanks or word characters, by their letter. -/
  | shorthand (negated : Bool)
  | nested (negated : Bool) (contents : Class)
  | union (parts : List Class)
  /-- What is in both, in the left alone, or in one of the two. -/
  | operation (left right : Class)

/-- The class of several parts; a single part is not wrapped. -/
def Class.ofParts : List Class → Class
  | [part] => part
  | parts => .union parts

end Pattern

/-- A pattern. -/
inductive Pattern where
  | empty
  /-- Switches for what follows in the same group. -/
  | switched (switches : List Pattern.Switch)
  | literal (l : Pattern.Literal)
  | dot
  /-- A place at an end of a line or of the text. -/
  | anchor
  /-- A place at, or not at, an end of a word. -/
  | wordEnd
  | shorthand (negated : Bool)
  | oneOf (negated : Bool) (contents : Pattern.Class)
  /-- A repetition; `never` says that it allows none. -/
  | repeated (never : Bool) (p : Pattern)
  | group (switches : List Pattern.Switch) (p : Pattern)
  | alternatives (ps : List Pattern)
  | sequence (ps : List Pattern)

namespace Pattern

/-- Patterns one behind the other; a single one is not wrapped. -/
def ofSequence : List Pattern → Pattern
  | [] => .empty
  | [p] => p
  | ps => .sequence ps

/-- Alternative patterns; a single one is not wrapped. -/
def ofAlternatives : List Pattern → Pattern
  | [p] => p
  | ps => .alternatives ps

/-! ## Depth -/

mutual

def Class.depth : Class → Nat
  | .literal _ | .range _ _ | .named _ | .shorthand _ => 0
  | .nested _ contents => Class.depth contents + 1
  | .union [] => 0
  | .union parts => deepestClass parts + 1
  | .operation left right => max (Class.depth left) (Class.depth right) + 1

def deepestClass : List Class → Nat
  | [] => 0
  | part :: parts => max (Class.depth part) (deepestClass parts)

end

mutual

def depth : Pattern → Nat
  | .empty | .switched _ | .literal _ | .dot | .anchor | .wordEnd | .shorthand _ => 0
  | .oneOf _ contents => contents.depth + 1
  | .repeated _ p => depth p + 1
  | .group _ p => depth p + 1
  | .alternatives ps => deepest ps + 1
  | .sequence ps => deepest ps + 1

def deepest : List Pattern → Nat
  | [] => 0
  | p :: ps => max (depth p) (deepest ps)

end

def maxDepth : Nat := 250

end Pattern

end Gatehouse
