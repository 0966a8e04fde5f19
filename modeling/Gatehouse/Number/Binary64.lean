/-!
# Double-precision numbers

A finite double is a sign, a significand and a power of two.  All arithmetic is exact arithmetic on
`Nat` followed by one rounding to the nearest double (ties to the even significand), so nothing
here depends on the machine's floating-point unit and every step can be reasoned about.
-/

namespace Gatehouse

/-- The finite double `(-1)^negative * significand * 2^exponent`.  The functions of this module
keep `significand < 2^53` and `-1074 ≤ exponent ≤ 971`, with the exponent as small as possible. -/
structure Binary64 where
  negative : Bool
  significand : Nat
  exponent : Int
  deriving DecidableEq, Repr

namespace Binary64

def zero (negative : Bool) : Binary64 := ⟨negative, 0, -1074⟩

def isZero (x : Binary64) : Bool := x.significand == 0

def neg (x : Binary64) : Binary64 := { x with negative := !x.negative }

/-- `2^k` as a fraction, numerator and denominator. -/
def powTwo (k : Int) : Nat × Nat :=
  match k with
  | .ofNat n => (Nat.pow 2 n, 1)
  | .negSucc n => (1, Nat.pow 2 (n + 1))

/-- The quotient rounded to the nearest integer, a tie to the even one. -/
def roundQuotient (num den : Nat) : Nat :=
  let q := num / den
  let r := num % den
  if 2 * r < den then q
  else if 2 * r = den then (if q % 2 = 0 then q else q + 1)
  else q + 1

/-- The double nearest to `num / den`, `none` if it is beyond the largest one. -/
def ofRatio (negative : Bool) (num den : Nat) : Option Binary64 :=
  if num = 0 then some (zero negative)
  else
    let guess : Int := (num.log2 : Int) - den.log2 - 53
    let scaled (e : Int) : Nat × Nat :=
      let (up, down) := powTwo e
      (num * down, den * up)
    let (n, d) := scaled guess
    let fitted := if n / d < Nat.pow 2 53 then guess else guess + 1
    let e := max fitted (-1074)
    let (n, d) := scaled e
    let s := roundQuotient n d
    let (s, e) := if s = Nat.pow 2 53 then (Nat.pow 2 52, e + 1) else (s, e)
    if e > 971 then none else some ⟨negative, s, e⟩

/-- The magnitude as an exact fraction. -/
def magnitude (x : Binary64) : Nat × Nat :=
  let (up, down) := powTwo x.exponent
  (x.significand * up, down)

def mul? (x y : Binary64) : Option Binary64 :=
  let (a, b) := x.magnitude
  let (c, d) := y.magnitude
  ofRatio (x.negative != y.negative) (a * c) (b * d)

def div? (x y : Binary64) : Option Binary64 :=
  let (a, b) := x.magnitude
  let (c, d) := y.magnitude
  ofRatio (x.negative != y.negative) (a * d) (b * c)

/-- The sum, rounded.  A sum of zero is positive unless both terms are negative. -/
def add? (x y : Binary64) : Option Binary64 :=
  let (a, b) := x.magnitude
  let (c, d) := y.magnitude
  let signed (s : Bool) (n : Nat) : Int := if s then -(n : Int) else n
  let total := signed x.negative (a * d) + signed y.negative (c * b)
  if total = 0 then some (zero (x.negative && y.negative))
  else ofRatio (decide (total < 0)) total.natAbs (b * d)

def ofInt (i : Int) : Binary64 :=
  (ofRatio (decide (i < 0)) i.natAbs 1).getD (zero false)

/-- The double nearest to `digits * 10^power`. -/
def ofDecimal (negative : Bool) (digits : Nat) (power : Int) : Option Binary64 :=
  match power with
  | .ofNat n => ofRatio negative (digits * Nat.pow 10 n) 1
  | .negSucc n => ofRatio negative digits (Nat.pow 10 (n + 1))

def le (x y : Binary64) : Bool :=
  let (a, b) := x.magnitude
  let (c, d) := y.magnitude
  let signed (s : Bool) (n : Nat) : Int := if s then -(n : Int) else n
  decide (signed x.negative (a * d) ≤ signed y.negative (c * b))

/-- The value rounded to the nearest integer, a tie away from zero. -/
def roundHalfAway (x : Binary64) : Int :=
  let (a, b) := x.magnitude
  let n : Int := ((2 * a + b) / (2 * b) : Nat)
  if x.negative then -n else n

end Binary64

/-- A double that need not be finite. -/
inductive Double where
  | finite (x : Binary64)
  | infinite (negative : Bool)
  | nan
  deriving DecidableEq, Repr

end Gatehouse
