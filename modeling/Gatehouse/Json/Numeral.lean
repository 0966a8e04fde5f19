import Gatehouse.Json.Reader

/-!
# Reading numbers

Integers outside the 64-bit ranges become doubles, `-0` is a double, and a number's digits beyond
the 64-bit significand are dropped before its power of ten is applied in doubles.
-/

namespace Gatehouse.Json

def isDigit (b : UInt8) : Bool := 48 ≤ b && b ≤ 57

def digitValue (b : UInt8) : Nat := b.toNat - 48

def maxSignificand : Nat := Nat.pow 2 64 - 1

/-- Reads integer digits into the significand; the second part counts the digits that no longer
fit, the first of which ends the reading. -/
def takeInteger (significand : Nat) : List Nat → Nat × Nat
  | [] => (significand, 0)
  | d :: ds =>
    if significand * 10 + d > maxSignificand then (significand, ds.length + 1)
    else takeInteger (significand * 10 + d) ds

/-- Reads digits after the point into the significand; the second part counts those that fit. -/
def takeFraction (significand : Nat) : List Nat → Nat × Nat
  | [] => (significand, 0)
  | d :: ds =>
    if significand * 10 + d > maxSignificand then (significand, 0)
    else
      let (s, n) := takeFraction (significand * 10 + d) ds
      (s, n + 1)

def powerOfTen (n : Nat) : Binary64 :=
  (Binary64.ofDecimal false 1 n).getD (Binary64.zero false)

/-- Applies a power of ten in doubles; `none` when the result is too large. -/
def applyPower (x : Binary64) (exponent : Int) : Option Binary64 :=
  if exponent > 308 then (if x.isZero then some x else none)
  else if exponent ≥ 0 then x.mul? (powerOfTen exponent.toNat)
  else shrink 4 x exponent
where
  /-- Divides in steps of at most `10^308`. -/
  shrink : Nat → Binary64 → Int → Option Binary64
    | 0, x, _ => some (Binary64.zero x.negative)
    | fuel + 1, x, exponent =>
      if x.isZero then some x
      else if exponent ≥ -308 then x.div? (powerOfTen exponent.natAbs)
      else (x.div? (powerOfTen 308)).bind fun y => shrink fuel y (exponent + 308)

/-- The largest exponent that is added up digit by digit. -/
def maxExponent : Nat := Nat.pow 2 31 - 1

/-- Adds up exponent digits; `inr n` when the first `n` digits pass `maxExponent`. -/
def takeExponent (value position : Nat) : List Nat → Nat ⊕ Nat
  | [] => .inl value
  | d :: ds =>
    if value * 10 + d > maxExponent then .inr (position + 1)
    else takeExponent (value * 10 + d) (position + 1) ds

def withSign (positive : Bool) (x : Binary64) : Document :=
  .float (.finite (if positive then x else x.neg))

namespace Reader

def digits : Reader (List Nat) := return (← takeWhile isDigit).map digitValue

def finishDouble (positive : Bool) (significand : Nat) (exponent : Int) : Reader Document :=
  match applyPower (Binary64.ofInt significand) exponent with
  | some x => return withSign positive x
  | none => fail .numberOutOfRange

def exponentSign : Reader Bool := do
  match ← peek with
  | some 43 =>
    skip
    return true
  | some 45 =>
    skip
    return false
  | _ => return true

def exponent (positive : Bool) (significand : Nat) (exponent : Int) : Reader Document := do
  skip
  let grows ← exponentSign
  match ← peek with
  | none => fail .endInValue
  | some b =>
    if !isDigit b then failAfter .invalidNumber
    else
      let c ← get
      match takeExponent 0 0 (← digits) with
      | .inl e => finishDouble positive significand (if grows then exponent + e else exponent - e)
      | .inr n =>
        if significand ≠ 0 && grows then failAt ((c.advanceBy n).here .numberOutOfRange)
        else return withSign positive (Binary64.zero false)

def power (positive : Bool) (significand : Nat) (scale : Int) : Reader Document := do
  match ← peek with
  | some 101 | some 69 => exponent positive significand scale
  | _ => finishDouble positive significand scale

/-- The digits after the point, at which the reader stands; `dropped` digits before it did not
fit. -/
def fraction (positive : Bool) (significand dropped : Nat) : Reader Document := do
  skip
  match ← digits with
  | [] =>
    match ← peek with
    | none => failAfter .endInValue
    | some _ => failAfter .invalidNumber
  | first :: rest =>
    if significand * 10 + first > maxSignificand then power positive significand dropped
    else
      let (s, n) := takeFraction significand (first :: rest)
      power positive s ((dropped : Int) - n)

def afterInteger (positive : Bool) (significand dropped : Nat) : Reader Document := do
  match ← peek with
  | some 46 => fraction positive significand dropped
  | some 101 | some 69 => exponent positive significand dropped
  | _ =>
    if dropped > 0 then finishDouble positive significand dropped
    else if positive then return .int significand
    else if significand = 0 ∨ significand > Nat.pow 2 63 then
      return withSign false (Binary64.ofInt significand)
    else return .int (-(significand : Int))

/-- A number; the reader stands behind its sign. -/
def number (positive : Bool) : Reader Document := do
  match ← peek with
  | none => fail .endInValue
  | some 48 =>
    skip
    match ← peek with
    | some b => if isDigit b then failAfter .invalidNumber else afterInteger positive 0 0
    | none => afterInteger positive 0 0
  | some b =>
    if !isDigit b then failAfter .invalidNumber
    else
      let (significand, dropped) := takeInteger 0 (← digits)
      afterInteger positive significand dropped

end Reader

end Gatehouse.Json
