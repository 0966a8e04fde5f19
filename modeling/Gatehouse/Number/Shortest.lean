import Gatehouse.Number.Binary64

/-!
# Shortest decimal text of a double

The decimals that round to a double form an interval around it.  `shortest` walks the decimal grids
from coarse to fine, stops at the first that has a point in the interval, and takes the point
nearest to the double.  Two layouts share the digits: `compact`, which goes over to an exponent for
very large and very small numbers, and `positional`, which never does.
-/

namespace Gatehouse

/-- The decimal `digits * 10^power`. -/
structure Decimal where
  digits : Nat
  power : Int
  deriving DecidableEq, Repr

namespace Binary64

/-- The interval of reals that round to a nonzero double, each end in quarters of the unit
`2^exponent`, and whether the ends belong to it. -/
def quarters (x : Binary64) : Nat × Nat × Bool :=
  let m := x.significand
  let below := if m = Nat.pow 2 52 ∧ x.exponent > -1074 then 1 else 2
  (4 * m - below, 4 * m + 2, m % 2 == 0)

/-- The points `c * 10^power` next to the value that round to it; the nearer one. -/
def gridPoint? (x : Binary64) (power : Int) : Option Nat :=
  let (lo, hi, closed) := x.quarters
  let (up, down) := powTwo x.exponent
  let (tenUp, tenDown) : Nat × Nat := match power with
    | .ofNat n => (Nat.pow 10 n, 1)
    | .negSucc n => (1, Nat.pow 10 (n + 1))
  -- one quarter of the unit is `unit / (4 * whole)` grid steps
  let unit := up * tenDown
  let whole := down * tenUp
  let inside (c : Nat) : Bool :=
    let v := 4 * c * whole
    if closed then decide (lo * unit ≤ v ∧ v ≤ hi * unit)
    else decide (lo * unit < v ∧ v < hi * unit)
  let num := x.significand * unit
  let f := num / whole
  let r := num % whole
  match inside f, inside (f + 1) with
  | true, true =>
    if 2 * r < whole then some f
    else if 2 * r = whole then some (if f % 2 = 0 then f else f + 1)
    else some (f + 1)
  | true, false => some f
  | false, true => some (f + 1)
  | false, false => none

def searchGrids (x : Binary64) : Nat → Int → Decimal
  | 0, power => ⟨0, power⟩
  | fuel + 1, power =>
    match x.gridPoint? power with
    | some c => ⟨c, power⟩
    | none => searchGrids x fuel (power - 1)

/-- The fewest digits that read back as the magnitude of `x`. -/
def shortest (x : Binary64) : Decimal :=
  if x.isZero then ⟨0, 0⟩
  else
    let top := ((x.significand.log2 : Int) + x.exponent) * 30103 / 100000 + 2
    x.searchGrids 30 top

end Binary64

namespace Decimal

def zeros (n : Nat) : String := String.ofList (List.replicate n '0')

/-- Positional digits with at least one place after the point. -/
def positional (d : Decimal) : String :=
  let text := toString d.digits
  let n := text.length
  match d.power with
  | .ofNat k => text ++ zeros (if d.digits = 0 then 0 else k) ++ ".0"
  | .negSucc k =>
    let places := k + 1
    if places < n then
      String.ofList (text.toList.take (n - places)) ++ "." ++
        String.ofList (text.toList.drop (n - places))
    else "0." ++ zeros (places - n) ++ text

def compact (d : Decimal) : String :=
  let text := toString d.digits
  let n := text.length
  let point : Int := d.power + n
  if d.digits = 0 ∨ (-5 < point ∧ point ≤ 16) then d.positional
  else
    let e := point - 1
    let lead := String.ofList (text.toList.take 1)
    let rest := String.ofList (text.toList.drop 1)
    let mantissa := if rest.isEmpty then lead else lead ++ "." ++ rest
    mantissa ++ "e" ++ (if e < 0 then "-" else "+") ++ toString e.natAbs

end Decimal

namespace Binary64

def sign (x : Binary64) : String := if x.negative then "-" else ""

/-- Shortest digits, with an exponent for extreme magnitudes. -/
def compactText (x : Binary64) : String := x.sign ++ x.shortest.compact

/-- Shortest digits, always positional. -/
def positionalText (x : Binary64) : String := x.sign ++ x.shortest.positional

end Binary64

namespace Double

/-- Shortest digits, always positional; the other doubles by name. -/
def positionalText : Double → String
  | .finite x => x.positionalText
  | .infinite negative => if negative then "-inf" else "inf"
  | .nan => "NaN"

end Double

end Gatehouse
