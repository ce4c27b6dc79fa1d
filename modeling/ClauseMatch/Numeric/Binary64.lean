import ClauseMatch.Numeric.Rounding

/-!
# Double-precision numbers

A double is kept as its 64 bits, and every operation on it is exact natural-number arithmetic on
the fields of the bit pattern, so that two doubles are the same Lean value exactly when they have
the same bits. Numeric comparison is a separate operation: it identifies the two zeros and
separates NaN from itself.
-/

namespace ClauseMatch

/-- A double-precision number, given by its bit pattern. -/
structure Binary64 where
  bits : UInt64
deriving DecidableEq, Inhabited

/-- The last `width` base-256 digits of `n`, most significant first. -/
def bigEndianBytes : Nat → Nat → List Nat
  | 0, _ => []
  | width + 1, n => bigEndianBytes width (n / 256) ++ [n % 256]

namespace Binary64

/-- The sign bit. -/
def isNegative (x : Binary64) : Bool := 1 <<< 63 ≤ x.bits.toNat

/-- The bit pattern without its sign. -/
def magnitudeBits (x : Binary64) : Nat := x.bits.toNat % (1 <<< 63)

/-- The number with the given sign and magnitude bits. -/
def ofSignMagnitude (negative : Bool) (magnitude : Nat) : Binary64 :=
  ⟨UInt64.ofNat (if negative then 1 <<< 63 + magnitude else magnitude)⟩

/-- Positive or negative zero. -/
def isZero (x : Binary64) : Bool := x.magnitudeBits == 0

/-- Positive or negative infinity. -/
def isInfinite (x : Binary64) : Bool := x.magnitudeBits == FloatFormat.binary64.infinityBits

/-- No number at all. -/
def isNaN (x : Binary64) : Bool := FloatFormat.binary64.infinityBits < x.magnitudeBits

/-- The exponent field. -/
def exponentField (x : Binary64) : Nat := x.magnitudeBits >>> 52

/-- The fraction field. -/
def fractionField (x : Binary64) : Nat := x.magnitudeBits % (1 <<< 52)

/-- The significand of a finite number, with the implicit leading bit of normal numbers. -/
def significand (x : Binary64) : Nat :=
  if x.exponentField = 0 then x.fractionField else 1 <<< 52 + x.fractionField

/-- A finite number has magnitude `significand * 2 ^ scale` smallest subnormals. -/
def scale (x : Binary64) : Nat := x.exponentField - 1

/-- Numeric equality: the zeros are equal, and NaN equals nothing. -/
def numericEq (x y : Binary64) : Bool :=
  !x.isNaN && !y.isNaN && (x == y || (x.isZero && y.isZero))

/-- Numeric equality with NaN equal to itself. -/
def sameNumber (x y : Binary64) : Bool := x.numericEq y || (x.isNaN && y.isNaN)

/-- The double nearest to an integer, a tie going to the even neighbour. -/
def ofInt (n : Int) : Binary64 :=
  ofSignMagnitude (n < 0) (FloatFormat.binary64.roundRatio n.natAbs 1)

/-- The bit pattern of the nearest single-precision number. NaN stays NaN: it turns quiet and
keeps the leading bits of its payload. -/
def toBinary32Bits (x : Binary64) : Nat :=
  let magnitude :=
    if x.isNaN then
      let payload := x.fractionField >>> 29
      FloatFormat.binary32.infinityBits + (if payload < 1 <<< 22 then 1 <<< 22 + payload else payload)
    else if x.isInfinite then FloatFormat.binary32.infinityBits
    else
      FloatFormat.binary32.roundRatio (x.significand <<< x.scale)
        (1 <<< FloatFormat.binary64.unitShift)
  if x.isNegative then 1 <<< 31 + magnitude else magnitude

/-- The eight bytes of the bit pattern, most significant first. -/
def bytes (x : Binary64) : List Nat := bigEndianBytes 8 x.bits.toNat

/-- The four bytes of the nearest single-precision number, most significant first. -/
def narrowBytes (x : Binary64) : List Nat := bigEndianBytes 4 x.toBinary32Bits

end Binary64

end ClauseMatch
