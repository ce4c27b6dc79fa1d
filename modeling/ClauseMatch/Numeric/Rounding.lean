/-!
# Rounding exact ratios to binary formats

A binary format is described by the width of its exponent field and its precision. Rounding an
exact ratio of natural numbers yields the bit pattern of the nearest magnitude, a tie going to
the even neighbour. Everything is natural-number arithmetic: magnitudes are counted in units of
the smallest subnormal, so no exponent is ever negative.
-/

namespace ClauseMatch

/-- The shape of a binary floating-point format: the width of its exponent field and the number
of significant bits, the leading one included. -/
structure FloatFormat where
  exponentBits : Nat
  precision : Nat

namespace FloatFormat

/-- Double precision. -/
def binary64 : FloatFormat := ⟨11, 53⟩

/-- Single precision. -/
def binary32 : FloatFormat := ⟨8, 24⟩

/-- The smallest subnormal of the format is `2 ^ -unitShift`. -/
def unitShift (F : FloatFormat) : Nat := 1 <<< (F.exponentBits - 1) + F.precision - 3

/-- The bit pattern of positive infinity. -/
def infinityBits (F : FloatFormat) : Nat := (1 <<< F.exponentBits - 1) <<< (F.precision - 1)

end FloatFormat

/-- The natural number nearest to `num / den`; an exact half goes to the even neighbour. -/
def roundHalfEven (num den : Nat) : Nat :=
  let quotient := num / den
  let twice := 2 * (num % den)
  if twice < den then quotient
  else if den < twice then quotient + 1
  else quotient + quotient % 2

namespace FloatFormat

/-- How many times the unit in the last place of a magnitude of `units` smallest subnormals has
doubled. -/
def scaleOf (F : FloatFormat) (units : Nat) : Nat := Nat.log2 units + 1 - F.precision

/-- The bit pattern of the magnitude nearest to `num / den`. A significand that rounds up to the
next power of two carries into the exponent field, and what is too large becomes infinity. -/
def roundRatio (F : FloatFormat) (num den : Nat) : Nat :=
  let scaled := num <<< F.unitShift
  let scale := F.scaleOf (scaled / den)
  min (scale <<< (F.precision - 1) + roundHalfEven scaled (den <<< scale)) F.infinityBits

end FloatFormat

end ClauseMatch
