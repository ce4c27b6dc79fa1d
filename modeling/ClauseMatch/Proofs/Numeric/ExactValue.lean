import ClauseMatch.Numeric.Binary64

/-!
# The exact values of doubles

A finite double is a whole number of smallest subnormals, and so is every integer; in these units
both can be compared without rounding. From one bit pattern to the next the magnitude grows by one
unit in the last place. Bit patterns without their signs are therefore in the order of the
magnitudes that they stand for, and two finite doubles are numerically equal when their exact values
are.
-/

namespace ClauseMatch.Binary64

variable {x y : Binary64} {scale significand : Nat}

/-! ## Shifted numbers -/

theorem shiftLeft_le_iff {m n : Nat} : m <<< scale ≤ n <<< scale ↔ m ≤ n := by
  rw [Nat.shiftLeft_eq, Nat.shiftLeft_eq, Nat.mul_le_mul_right_iff (Nat.two_pow_pos scale)]

theorem shiftLeft_lt_iff {m n : Nat} : m <<< scale < n <<< scale ↔ m < n := by
  rw [← Nat.not_le, shiftLeft_le_iff, Nat.not_le]

theorem shiftLeft_inj {m n : Nat} : m <<< scale = n <<< scale ↔ m = n := by
  rw [Nat.le_antisymm_iff, shiftLeft_le_iff, shiftLeft_le_iff, ← Nat.le_antisymm_iff]

theorem one_shiftLeft_pos (n : Nat) : 0 < 1 <<< n := by
  rw [Nat.one_shiftLeft]
  exact Nat.two_pow_pos n

/-- Leading bits are compared by their places. -/
theorem leading_le_iff {place place' scale' : Nat} :
    (1 <<< place) <<< scale ≤ (1 <<< place') <<< scale' ↔ place + scale ≤ place' + scale' := by
  rw [← Nat.shiftLeft_add, ← Nat.shiftLeft_add, Nat.one_shiftLeft, Nat.one_shiftLeft,
    Nat.pow_le_pow_iff_right (by decide)]

/-! ## Magnitudes -/

/-- The magnitude of a finite bit pattern without its sign, in smallest subnormals. -/
def magnitudeOfBits (bits : Nat) : Nat :=
  (if bits >>> 52 = 0 then bits % (1 <<< 52) else 1 <<< 52 + bits % (1 <<< 52)) <<<
    (bits >>> 52 - 1)

theorem fractionModulus_eq : (1 <<< 52 : Nat) = 4503599627370496 := rfl

/-- The bit pattern of a significand at a scale. A significand of one bit more than there is room
for has carried into the exponent, and stands for the same magnitude there. -/
theorem magnitudeOfBits_eq (hsignificand : significand ≤ 1 <<< 53)
    (hscale : scale = 0 ∨ 1 <<< 52 ≤ significand) :
    magnitudeOfBits (scale <<< 52 + significand) = significand <<< scale := by
  rw [magnitudeOfBits, fractionModulus_eq]
  rcases Nat.lt_or_ge significand (1 <<< 52) with hsmall | hlarge
  · obtain rfl : scale = 0 := by omega
    have hexponent : (0 <<< 52 + significand) >>> 52 = 0 := by omega
    have hfraction : (0 <<< 52 + significand) % 4503599627370496 = significand := by omega
    rw [hexponent, if_pos rfl, hfraction]
  · rcases Nat.lt_or_eq_of_le hsignificand with hfits | hcarries
    · have hexponent : (scale <<< 52 + significand) >>> 52 = scale + 1 := by omega
      have hfraction :
          4503599627370496 + (scale <<< 52 + significand) % 4503599627370496 = significand := by
        omega
      rw [hexponent, if_neg (Nat.succ_ne_zero scale), hfraction, Nat.add_sub_cancel]
    · have hexponent : (scale <<< 52 + significand) >>> 52 = scale + 2 := by omega
      have hfraction : (scale <<< 52 + significand) % 4503599627370496 = 0 := by omega
      rw [hexponent, if_neg (Nat.succ_ne_zero _), hfraction, Nat.shiftLeft_eq, Nat.shiftLeft_eq,
        show scale + 2 - 1 = scale + 1 from rfl, Nat.pow_succ, hcarries]
      omega

/-- Every bit pattern is that of a significand at a scale. -/
theorem exists_bits_eq (bits : Nat) : ∃ scale significand,
    bits = scale <<< 52 + significand ∧ significand < 1 <<< 53 ∧
      (scale = 0 ∨ 1 <<< 52 ≤ significand) := by
  rcases Nat.lt_or_ge bits (1 <<< 52) with hsubnormal | hnormal
  · exact ⟨0, bits, by omega, by omega, Or.inl rfl⟩
  · refine ⟨bits >>> 52 - 1, 4503599627370496 + bits % 4503599627370496, ?_, ?_, Or.inr ?_⟩ <;> omega

/-- From one bit pattern to the next the magnitude grows. -/
theorem magnitudeOfBits_lt_succ (bits : Nat) :
    magnitudeOfBits bits < magnitudeOfBits (bits + 1) := by
  obtain ⟨scale, significand, rfl, hlt, hscale⟩ := exists_bits_eq bits
  rw [Nat.add_assoc, magnitudeOfBits_eq (Nat.succ_le_of_lt hlt) (by omega),
    magnitudeOfBits_eq (Nat.le_of_lt hlt) hscale, shiftLeft_lt_iff]
  exact Nat.lt_succ_self significand

theorem magnitudeOfBits_lt {bits bits' : Nat} (h : bits < bits') :
    magnitudeOfBits bits < magnitudeOfBits bits' := by
  induction h with
  | refl => exact magnitudeOfBits_lt_succ bits
  | @step bits' _ ih => exact Nat.lt_trans ih (magnitudeOfBits_lt_succ bits')

theorem magnitudeOfBits_inj {bits bits' : Nat} :
    magnitudeOfBits bits = magnitudeOfBits bits' ↔ bits = bits' := by
  refine ⟨fun h => ?_, fun h => h ▸ rfl⟩
  rcases Nat.lt_trichotomy bits bits' with hlt | heq | hlt
  · have := magnitudeOfBits_lt hlt
    omega
  · exact heq
  · have := magnitudeOfBits_lt hlt
    omega

/-! ## Values -/

/-- A number that is neither infinite nor NaN. -/
def isFinite (x : Binary64) : Bool := x.magnitudeBits < FloatFormat.binary64.infinityBits

/-- The exact value of a finite number, in smallest subnormals. -/
def units (x : Binary64) : Int :=
  if x.isNegative then -(x.significand <<< x.scale : Nat) else (x.significand <<< x.scale : Nat)

/-- An integer in the same units. -/
def integerUnits (n : Int) : Int := n * (1 <<< FloatFormat.binary64.unitShift : Nat)

theorem integerUnits_inj {m n : Int} : integerUnits m = integerUnits n ↔ m = n := by
  refine ⟨fun h => ?_, fun h => h ▸ rfl⟩
  exact Int.eq_of_mul_eq_mul_right (Int.natCast_ne_zero_iff_pos.mpr (one_shiftLeft_pos _)) h

/-- The exact value of the number is the integer. -/
structure HasValue (x : Binary64) (n : Int) : Prop where
  isFinite : x.isFinite = true
  units_eq : x.units = integerUnits n

theorem significand_shiftLeft_scale (x : Binary64) :
    x.significand <<< x.scale = magnitudeOfBits x.magnitudeBits := rfl

theorem eq_of_fields (hsign : x.isNegative = y.isNegative)
    (hmagnitude : x.magnitudeBits = y.magnitudeBits) : x = y := by
  obtain ⟨bits⟩ := x
  obtain ⟨bits'⟩ := y
  have hbits : bits = bits' := by
    have hlt := bits.toNat_lt
    have hlt' := bits'.toNat_lt
    rw [isNegative, isNegative, decide_eq_decide] at hsign
    simp only [magnitudeBits, show (1 <<< 63 : Nat) = 9223372036854775808 from rfl]
      at hmagnitude hsign
    rw [← UInt64.toNat_inj]
    omega
  rw [hbits]

theorem isNaN_eq_false_of_isFinite (h : x.isFinite = true) : x.isNaN = false := by
  rw [isFinite, decide_eq_true_eq] at h
  exact decide_eq_false (Nat.not_lt_of_lt h)

theorem isZero_iff : x.isZero = true ↔ magnitudeOfBits x.magnitudeBits = 0 := by
  rw [isZero, beq_iff_eq, ← magnitudeOfBits_inj]
  rfl

theorem units_eq_zero_of_isZero (h : x.isZero = true) : x.units = 0 := by
  rw [units, significand_shiftLeft_scale, isZero_iff.mp h]
  split <;> rfl

theorem isFinite_of_numericEq (h : x.numericEq y = true) (hx : x.isFinite = true) :
    y.isFinite = true := by
  simp only [numericEq, Bool.and_eq_true, Bool.or_eq_true, beq_iff_eq] at h
  obtain ⟨-, rfl | ⟨-, hzero⟩⟩ := h
  · exact hx
  · rw [isZero, beq_iff_eq] at hzero
    rw [isFinite, hzero]
    rfl

/-- Finite numbers are numerically equal when they have the same exact value. -/
theorem numericEq_iff_units_eq (hx : x.isFinite = true) (hy : y.isFinite = true) :
    x.numericEq y = true ↔ x.units = y.units := by
  have hxnan := isNaN_eq_false_of_isFinite hx
  have hynan := isNaN_eq_false_of_isFinite hy
  simp only [numericEq, hxnan, hynan, Bool.not_false, Bool.true_and, Bool.or_eq_true,
    Bool.and_eq_true, beq_iff_eq]
  constructor
  · rintro (rfl | ⟨hxzero, hyzero⟩)
    · rfl
    · rw [units_eq_zero_of_isZero hxzero, units_eq_zero_of_isZero hyzero]
  · intro h
    simp only [isZero_iff]
    rw [units, units, significand_shiftLeft_scale, significand_shiftLeft_scale] at h
    by_cases hsign : x.isNegative = y.isNegative
    · refine Or.inl (eq_of_fields hsign (magnitudeOfBits_inj.mp ?_))
      rw [hsign] at h
      split at h <;> omega
    -- Of two numbers with different signs and the same value both are zeros.
    · refine Or.inr ?_
      cases hxsign : x.isNegative <;> cases hysign : y.isNegative <;>
        simp_all only [Bool.false_eq_true, if_false, if_true, not_true_eq_false] <;> omega

end ClauseMatch.Binary64
