import Gatehouse.Pattern.Bracket
import Gatehouse.Text.Letter

/-!
# Reading patterns

The notation is that of regular expressions without backward references and without looking around.
A pattern is accepted if it is well formed, not nested too deep, and can be made into a matcher.
-/

namespace Gatehouse.Pattern

open Scan

/-! ## Groups -/

def flagOf? : Char → Option Flag
  | 'i' => some .ignoreCase
  | 'm' => some .multiLine
  | 's' => some .dotMatchesLineFeed
  | 'U' => some .swapGreed
  | 'u' => some .unicode
  | 'R' => some .crlf
  | 'x' => some .ignoreSpace
  | _ => none

/-- The switches of a group up to its colon or its end, which is not passed.  A flag may occur only
once, and so may the hyphen, behind which flags are switched off. -/
def switchesFrom (on : Bool) (before : List Switch) : List Char → Option (List Switch × List Char)
  | [] => none
  | c :: cs =>
    if c = ':' || c = ')' then some (before.reverse, c :: cs)
    else if c = '-' then
      match on, cs with
      | true, next :: _ => if next = ':' || next = ')' then none else switchesFrom false before cs
      | _, _ => none
    else do
      let flag ← flagOf? c
      if before.any (·.flag = flag) then none
      else switchesFrom on ({ flag, on } :: before) cs

/-- The name of a group up to its bracket, which is passed. -/
def groupName : Scan Unit := do
  let r ← get
  let name := r.rest.takeWhile (· != '>')
  let isFirst (c : Char) : Bool := c == '_' || Text.isAlphabetic c
  let isPart (c : Char) : Bool := c ∈ ['_', '.', '[', ']'] || Text.isAlphanumeric c
  match name with
  | [] => failure
  | c :: cs => if !isFirst c || !cs.all isPart || name ∈ r.names then failure
  set { r with rest := r.rest.drop name.length, names := name :: r.names }
  expect '>'

/-- What the start of a group says. -/
inductive Opening where
  /-- Only switches: no group at all. -/
  | switched (switches : List Switch)
  | group (switches : List Switch)

/-- What begins a group that would look around. -/
def lookingAround : List String := ["?=", "?!", "?<=", "?<!"]

def opening : Scan Opening := do
  bump
  space
  let cs ← rest
  if lookingAround.any fun lead => lead.toList.isPrefixOf cs then failure
  if (← passes "?P<".toList) || (← passes "?<".toList) then
    groupName
    return .group []
  else if ← passes ['?'] then
    let (switches, behind) ← switchesFrom true [] (← rest)
    setRest behind
    let isGroup := (← char) = ':'
    bump
    if isGroup then return .group switches
    else if switches.isEmpty then failure
    else return .switched switches
  else return .group []

/-! ## Repetition -/

/-- Takes the last of the patterns read so far, if it can be repeated. -/
def popRepeatable : List Pattern → Scan (Pattern × List Pattern)
  | [] | .empty :: _ | .switched _ :: _ => failure
  | p :: before => return (p, before)

/-- Passes the sign that a repetition takes as little as it can. -/
def passLazySign : Scan Unit := do
  let _ ← passes ['?']

def upperBound (least : Nat) : Scan (Option Nat) := do
  if (← char) = ',' then
    bumpOn
    if (← char) = '\x7d' then return none
    else
      match ← decimal? with
      | some most => if least ≤ most then return some most else failure
      | none => failure
  else return some least

def bounds : Scan Bool := do
  bumpOn
  match ← decimal? with
  | none => failure
  | some least =>
    let most ← upperBound least
    expect '\x7d'
    space
    passLazySign
    return most = some 0

/-! ## Patterns -/

/-- A pattern up to the end of its group or of the text, which is not passed.  `branches` and
`before` are the alternatives and the parts read so far, both backwards. -/
def patternFrom (fuel : Nat) (branches before : List Pattern) : Scan Pattern :=
  match fuel with
  | 0 => failure
  | fuel + 1 => do
    let done : List Pattern := ofSequence before.reverse :: branches
    space
    match ← peek with
    | none | some ')' => return ofAlternatives done.reverse
    | some '|' =>
      bump
      patternFrom fuel done []
    | some '(' =>
      match ← opening with
      | .switched switches =>
        modify fun r =>
          { r with skipsBlanks := (setting? .ignoreSpace switches).getD r.skipsBlanks }
        patternFrom fuel branches (.switched switches :: before)
      | .group switches =>
        let skipsBlanks := (← get).skipsBlanks
        modify fun r =>
          { r with skipsBlanks := (setting? .ignoreSpace switches).getD skipsBlanks }
        let p ← patternFrom fuel [] []
        expect ')'
        modify fun r => { r with skipsBlanks }
        patternFrom fuel branches (.group switches p :: before)
    | some '[' => patternFrom fuel branches ((← bracketed (← rest).length) :: before)
    | some '\x7b' =>
      let (p, before) ← popRepeatable before
      let never ← bounds
      patternFrom fuel branches (.repeated never p :: before)
    | some c =>
      if c ∈ ['?', '*', '+'] then
        let (p, before) ← popRepeatable before
        bump
        passLazySign
        patternFrom fuel branches (.repeated false p :: before)
      else patternFrom fuel branches ((← primitive) :: before)

def parse? (text : List Char) : Option Pattern := do
  let (p, r) ← (patternFrom (text.length + 1) [] []).run { rest := text }
  if r.rest.isEmpty && p.depth ≤ maxDepth then some p else none

/-! ## Matchers -/

/-- Why no matcher is made of a pattern. -/
inductive PatternFault where
  /-- Malformed or not supported. -/
  | malformed
  | wordEnds
  deriving DecidableEq, Repr

def PatternFault.message : PatternFault → String
  | .malformed => "error building NFA"
  | .wordEnds =>
    "unsupported regex feature for DFAs: cannot build DFAs for regexes with Unicode word " ++
      "boundaries; switch to ASCII word boundaries, or heuristically enable Unicode word " ++
      "boundaries or use a different regex engine"

def check (text : List Char) : Except PatternFault Unit :=
  match (parse? text).bind (outcome? {}) with
  | none => .error .malformed
  | some made => if made.hasWordEnds then .error .wordEnds else .ok ()

end Gatehouse.Pattern
