import Gatehouse.Config.Toml.Text
import Gatehouse.Json.Document

/-!
# Scalars of TOML documents

Numbers and points of time.  Digits may be grouped by single underscores; integers have the range
of 64-bit signed integers; a point of time becomes a table with one member, its normal text.
-/

namespace Gatehouse.Config.Toml

open Json (Document)

/-! ## Numbers -/

/-- Digits of a base, in groups with single underscores between. -/
def digitGroups (test : Char → Bool) : Front (List Char) := do
  let groups ← separated (char '_') (do
    match ← takeWhile test with
    | [] => failure
    | digits => return digits)
  return groups.flatten

def isDecimal (c : Char) : Bool := c.isDigit

def decimalDigits : Front (List Char) := do
  match ← digitGroups isDecimal with
  | '0' :: _ :: _ => failure
  | digits => return digits

def valueIn (base : Nat) (digits : List Char) : Nat :=
  digits.foldl (fun n c => n * base + (Text.Hex.value? c.toNat).getD 0) 0

/-- A sign; true is minus. -/
def sign : Front Bool :=
  (do char '-'; return true) <|> (do char '+'; return false) <|> pure false

def integerOf (negative : Bool) (n : Nat) : Front Document :=
  let i : Int := if negative then -n else n
  if -Int.pow 2 63 ≤ i ∧ i < Int.pow 2 63 then pure (.int i) else failure

def basedInteger : Front Document := do
  char '0'
  let (base, test) ← (do char 'x'; return (16, fun c => (Text.Hex.value? c.toNat).isSome))
    <|> (do char 'o'; return (8, fun c => '0' ≤ c && c ≤ '7'))
    <|> (do char 'b'; return (2, fun c => c == '0' || c == '1'))
  integerOf false (valueIn base (← digitGroups test))

def decimalInteger : Front Document := do
  let negative ← sign
  integerOf negative (valueIn 10 (← decimalDigits))

/-- The number `digits * 10^power`, unless it is above the largest. -/
def floatOf (negative : Bool) (digits : Nat) (power : Int) : Front Document :=
  let length := (Nat.toDigits 10 digits).length
  if digits = 0 ∨ power + length < -400 then pure (.float (.finite (Binary64.zero negative)))
  else
    match if power + length > 400 then none else Binary64.ofDecimal negative digits power with
    | some x => pure (.float (.finite x))
    | none => if negative then pure (.float (.infinite true)) else failure

def float : Front Document := do
  let negative ← sign
  let whole ← decimalDigits
  let fraction ← optional? (do char '.'; digitGroups isDecimal)
  let exponent ← optional? (do
    let _ ← satisfy fun c => c == 'e' || c == 'E'
    let negative ← sign
    let n : Int := valueIn 10 (← digitGroups isDecimal)
    return if negative then -n else n)
  if fraction.isNone && exponent.isNone then failure
  let fraction := fraction.getD []
  floatOf negative (valueIn 10 (whole ++ fraction)) (exponent.getD 0 - fraction.length)

def specialFloat : Front Document := do
  let negative ← sign
  (do literal "inf".toList; return .float (.infinite negative))
    <|> do literal "nan".toList; return .float .nan

/-! ## Points of time -/

/-- A number of exactly `count` digits between two bounds. -/
def fixedDigits (count lo hi : Nat) : Front Nat := fun cs =>
  let digits := cs.take count
  let n := valueIn 10 digits
  if digits.length = count ∧ digits.all isDecimal ∧ lo ≤ n ∧ n ≤ hi then some (n, cs.drop count)
  else none

def padded (width n : Nat) : String :=
  let digits := Nat.toDigits 10 n
  String.ofList (List.replicate (width - digits.length) '0' ++ digits)

def daysInMonth (year month : Nat) : Nat :=
  if month = 2 then
    if year % 4 = 0 ∧ (year % 100 ≠ 0 ∨ year % 400 = 0) then 29 else 28
  else if month ∈ [4, 6, 9, 11] then 30
  else 31

def date : Front String := do
  let year ← fixedDigits 4 0 9999
  char '-'
  let month ← fixedDigits 2 1 12
  char '-'
  let day ← fixedDigits 2 1 (daysInMonth year month)
  return s!"{padded 4 year}-{padded 2 month}-{padded 2 day}"

/-- A fraction of a second: nine digits count, and zeros at the end do not. -/
def secondFraction : Front String := do
  char '.'
  match ← takeWhile isDecimal with
  | [] => failure
  | digits =>
    match ((digits.take 9).reverse.dropWhile (· == '0')).reverse with
    | [] => return ""
    | kept => return "." ++ String.ofList kept

def time : Front String := do
  let hour ← fixedDigits 2 0 23
  char ':'
  let minute ← fixedDigits 2 0 59
  char ':'
  let second ← fixedDigits 2 0 60
  let fraction ← optional? secondFraction
  return s!"{padded 2 hour}:{padded 2 minute}:{padded 2 second}" ++ fraction.getD ""

def offset : Front String :=
  (do let _ ← satisfy fun c => c == 'Z' || c == 'z'; return "Z") <|> do
    let negative ← (do char '+'; return false) <|> (do char '-'; return true)
    let hour ← fixedDigits 2 0 23
    char ':'
    let minute ← fixedDigits 2 0 59
    let mark := if negative && hour + minute > 0 then "-" else "+"
    return s!"{mark}{padded 2 hour}:{padded 2 minute}"

/-- A date, a time, or both with or without an offset. -/
def pointOfTime : Front String :=
  (do
    let day ← date
    let moment ← optional? (do
      let _ ← satisfy fun c => c == 'T' || c == 't' || c == ' '
      let moment ← time
      return moment ++ (← optional? offset).getD "")
    return day ++ (moment.map ("T" ++ ·)).getD "")
  <|> time

/-! ## Scalars -/

/-- A scalar, up to the first character that does not belong to it. -/
def scalar : Front Document :=
  (do return .text (← quotedText))
    <|> (do return .moment (← pointOfTime))
    <|> float <|> specialFloat <|> basedInteger <|> decimalInteger
    <|> (do literal "true".toList; return .bool true)
    <|> (do literal "false".toList; return .bool false)

end Gatehouse.Config.Toml
