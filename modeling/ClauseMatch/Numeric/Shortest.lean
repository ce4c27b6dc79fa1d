import ClauseMatch.Numeric.Decimal

/-!
# Shortest decimal text of a double

The text of a finite double has the fewest digits that read back as the same double and, among
those, the ones nearest to it; an exact tie goes up. The search walks decimal grids from coarse
to fine and tries the two grid points around the value; the finest grid contains the value
itself, so the search always ends with a point that reads back.
-/

namespace ClauseMatch

/-- The reals that read back as one double, in quarters of its unit in the last place: the value
is at `4 * significand`, the ends are halfway to its neighbours, and they belong to the interval
exactly when the significand is even. -/
structure ReadingInterval where
  low : Nat
  value : Nat
  high : Nat
  closed : Bool

/-- The decimal `digits * 10 ^ exponent`. -/
structure DecimalPoint where
  digits : Nat
  exponent : Int
deriving DecidableEq, Inhabited

namespace Binary64

/-- The reading interval of a finite non-zero double. Below a power of two the neighbour is
nearer by half. -/
def readingInterval (x : Binary64) : ReadingInterval :=
  let m := x.significand
  { low := 4 * m - (if m = 1 <<< 52 ∧ 0 < x.scale then 1 else 2)
    value := 4 * m
    high := 4 * m + 2
    closed := m % 2 == 0 }

end Binary64

/-- One decimal grid seen from a double: a quarter unit in the last place measures `quarter` and a
grid step measures `step` on a common integer scale. -/
structure DecimalGrid where
  quarter : Nat
  step : Nat

namespace DecimalGrid

/-- The grid of multiples of `10 ^ exponent`, for a double whose unit in the last place is
`2 ^ scale` smallest subnormals. -/
def ofExponent (scale : Nat) (exponent : Int) : DecimalGrid where
  quarter := 1 <<< scale * powerOfTen (-exponent).toNat
  step := 4 <<< FloatFormat.binary64.unitShift * powerOfTen exponent.toNat

/-- Whether a grid point lies in the reading interval. -/
def readsBack (g : DecimalGrid) (r : ReadingInterval) (digits : Nat) : Bool :=
  let point := digits * g.step
  let low := r.low * g.quarter
  let high := r.high * g.quarter
  if r.closed then low ≤ point && point ≤ high else low < point && point < high

/-- The grid point nearest to the value among those of its two neighbours that read back; a tie
goes up. -/
def nearest? (g : DecimalGrid) (r : ReadingInterval) : Option Nat :=
  let value := r.value * g.quarter
  let below := value / g.step
  match g.readsBack r below, g.readsBack r (below + 1) with
  | true, true => if 2 * (value % g.step) < g.step then some below else some (below + 1)
  | true, false => some below
  | false, true => some (below + 1)
  | false, false => none

end DecimalGrid

namespace DecimalPoint

/-- Moves factors of ten from the digits to the exponent. -/
def trim (p : DecimalPoint) : DecimalPoint :=
  if h : p.digits ≠ 0 ∧ p.digits % 10 = 0 then
    trim ⟨p.digits / 10, p.exponent + 1⟩
  else p
termination_by p.digits
decreasing_by omega

end DecimalPoint

namespace Binary64

/-- The first point that reads back on the grids `10 ^ exponent`, `10 ^ (exponent - 1)`, …,
`steps` further grids being tried after the first. -/
def searchGrids (x : Binary64) : Nat → Int → DecimalPoint
  | steps, exponent =>
    let g := DecimalGrid.ofExponent x.scale exponent
    match g.nearest? x.readingInterval, steps with
    | some digits, _ => ⟨digits, exponent⟩
    | none, 0 => ⟨x.readingInterval.value * g.quarter / g.step, exponent⟩
    | none, steps + 1 => searchGrids x steps (exponent - 1)

/-- A decimal exponent that is not below the order of magnitude of a finite non-zero double. -/
def orderBound (x : Binary64) : Int :=
  ((Nat.log2 x.significand + x.scale + 1 : Nat) - FloatFormat.binary64.unitShift : Int)
    * 30103 / 100000 + 1

/-- The shortest decimal that reads back as a finite non-zero double. On the last grid,
`10 ^ -unitShift`, every double is itself a grid point. -/
def shortest (x : Binary64) : DecimalPoint :=
  let start := x.orderBound
  (x.searchGrids (start + FloatFormat.binary64.unitShift).toNat start).trim

/-- The decimal text of a finite magnitude: positional from `1e-4` up to but not including `1e16`
with at least one digit after the point, and with an exponent otherwise. -/
def magnitudeText (x : Binary64) : String :=
  if x.isZero then "0.0"
  else
    let p := x.shortest
    let digits := Nat.toDigits 10 p.digits
    let order : Int := digits.length + p.exponent - 1
    if -4 ≤ order ∧ order < 16 then
      if order < 0 then
        "0." ++ String.ofList (List.replicate (-order - 1).toNat '0' ++ digits)
      else
        let wholeLength := order.toNat + 1
        let whole := digits.take wholeLength ++ List.replicate (wholeLength - digits.length) '0'
        let fraction := digits.drop wholeLength
        String.ofList (whole ++ '.' :: (if fraction.isEmpty then ['0'] else fraction))
    else
      let mantissa :=
        match digits with
        | [] => []
        | first :: [] => [first]
        | first :: more => first :: '.' :: more
      String.ofList (mantissa ++ 'e' :: (toString order).toList)

/-- The text of a double: NaN carries no sign, everything else a minus sign if negative. -/
def text (x : Binary64) : String :=
  if x.isNaN then "NaN"
  else
    let magnitude := if x.isInfinite then "inf" else x.magnitudeText
    if x.isNegative then "-" ++ magnitude else magnitude

end Binary64

end ClauseMatch
