import ClauseMatch.Numeric.Binary64

/-!
# Reading decimal numerals

Digit strings denote natural numbers in a base; a decimal numeral with a fraction and an exponent
denotes the nearest double. The exponent is bounded before any power of ten is formed, which
keeps the arithmetic small without changing the nearest double.
-/

namespace ClauseMatch

/-- A hexadecimal digit in either case. -/
def isHexDigit (c : Char) : Bool :=
  c.isDigit || ('a' ≤ c && c ≤ 'f') || ('A' ≤ c && c ≤ 'F')

/-- The value of a hexadecimal digit; other characters count as zero. -/
def digitValue (c : Char) : Nat :=
  if '0' ≤ c ∧ c ≤ '9' then c.toNat - '0'.toNat
  else if 'a' ≤ c ∧ c ≤ 'f' then c.toNat - 'a'.toNat + 10
  else if 'A' ≤ c ∧ c ≤ 'F' then c.toNat - 'A'.toNat + 10
  else 0

/-- The number that a string of digits denotes in the given base. -/
def natOfDigits (base : Nat) (digits : List Char) : Nat :=
  digits.foldl (fun n c => n * base + digitValue c) 0

/-- The size of a decimal exponent. Once it has reached five digits past `65535` further digits
are read but not counted, since every exponent of that size is out of range. -/
def exponentOfDigits (digits : List Char) : Nat :=
  digits.foldl (fun n c => if n < 65536 then n * 10 + digitValue c else n) 0

/-- A decimal numeral as written: a sign, the digits before and after the point, and the sign and
digits of the exponent if there is one. -/
structure DecimalNumeral where
  negative : Bool
  whole : List Char
  fraction : List Char
  exponent : Option (Bool × List Char)

/-- The powers of ten. -/
def powerOfTen (n : Nat) : Nat := Nat.pow 10 n

namespace Binary64

/-- The double nearest to `digits * 10 ^ exponent`, where `digits` is written with `count`
decimal digits. Magnitudes beyond the range of doubles are cut off before powers of ten are
formed. -/
def ofScientific (negative : Bool) (digits count : Nat) (exponent : Int) : Binary64 :=
  let order := exponent + count
  ofSignMagnitude negative <|
    if digits = 0 then 0
    else if 310 ≤ order then FloatFormat.binary64.infinityBits
    else if order ≤ -324 then 0
    else FloatFormat.binary64.roundRatio (digits * powerOfTen exponent.toNat)
      (powerOfTen (-exponent).toNat)

end Binary64

namespace DecimalNumeral

/-- A numeral is complete if it has a digit before the exponent, and one in the exponent if that
is present. -/
def isComplete (d : DecimalNumeral) : Bool :=
  !(d.whole.isEmpty && d.fraction.isEmpty) &&
    match d.exponent with
    | none => true
    | some (_, digits) => !digits.isEmpty

/-- The power of ten that scales the digits of the numeral read as one natural number. -/
def scale (d : DecimalNumeral) : Int :=
  let written : Int :=
    match d.exponent with
    | none => 0
    | some (negative, digits) =>
      if negative then -(exponentOfDigits digits : Int) else exponentOfDigits digits
  written - d.fraction.length

/-- The double nearest to a complete numeral. -/
def toBinary64? (d : DecimalNumeral) : Option Binary64 :=
  if d.isComplete then
    let digits := (d.whole ++ d.fraction).dropWhile (· == '0')
    some (.ofScientific d.negative (natOfDigits 10 digits) digits.length d.scale)
  else none

end DecimalNumeral

end ClauseMatch
