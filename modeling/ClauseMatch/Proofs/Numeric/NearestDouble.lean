import Mathlib.Data.Nat.Dist
import ClauseMatch.Proofs.Numeric.ExactValue

/-!
# Integers as doubles

The double that an integer of 64 bits is converted to is finite and no other finite double is nearer
to it; of two that are equally near it is the one with an even significand. In units of the smallest
subnormal the doubles from the leading bit of the integer on lie on a grid whose spacing is the unit
in the last place, and those below cannot compete; on the grid the nearest point is found by one
division. An integer is the value of some double exactly when it is a number of at most 53 bits with
zeros behind it, and then it is converted to that double.
-/

namespace ClauseMatch

/-! ## The nearest point of a grid -/

/-- Rounding to a multiple finds the nearest one, and of two that are equally near the one with the
even factor. -/
theorem roundHalfEven_nearest {den : Nat} (num k : Nat) (hden : 0 < den) :
    Nat.dist (roundHalfEven num den * den) num ≤ Nat.dist (k * den) num ∧
      (Nat.dist (k * den) num = Nat.dist (roundHalfEven num den * den) num →
        k ≠ roundHalfEven num den → roundHalfEven num den % 2 = 0) := by
  have hnum : num / den * den + num % den = num := Nat.div_add_mod' num den
  have hremainder : num % den < den := Nat.mod_lt num hden
  have hside : k * den ≤ num / den * den ∨ num / den * den + den ≤ k * den := by
    rcases Nat.lt_or_ge (num / den) k with hlt | hle
    · right
      rw [← Nat.succ_mul]
      exact Nat.mul_le_mul_right den hlt
    · exact Or.inl (Nat.mul_le_mul_right den hle)
  have hfactor : k * den = num / den * den → k = num / den := Nat.eq_of_mul_eq_mul_right hden
  have hfactor' : k * den = num / den * den + den → k = num / den + 1 := by
    rw [← Nat.succ_mul]
    exact Nat.eq_of_mul_eq_mul_right hden
  have hparity := Nat.mod_two_eq_zero_or_one (num / den)
  simp only [roundHalfEven, Nat.dist]
  split
  · omega
  · split
    · rw [Nat.add_mul, Nat.one_mul]
      omega
    · rw [Nat.add_mul]
      rcases hparity with heven | hodd
      · rw [heven, Nat.zero_mul]
        omega
      · rw [hodd, Nat.one_mul]
        omega

/-- Rounding to a multiple stays between the two neighbours. -/
theorem roundHalfEven_bounds (num den : Nat) :
    num / den ≤ roundHalfEven num den ∧ roundHalfEven num den ≤ num / den + 1 := by
  simp only [roundHalfEven]
  split
  · omega
  · split <;> omega

namespace Binary64

variable {units : Nat} {n : Int} {x : Binary64}

/-! ## The scale of a magnitude -/

/-- The scale at which a magnitude has the bits of a double. -/
def scaleOf (units : Nat) : Nat := FloatFormat.binary64.scaleOf units

theorem units_lt_shiftLeft (units : Nat) : units < (1 <<< 53) <<< scaleOf units := by
  have hlog : units < 2 ^ (units.log2 + 1) := Nat.lt_log2_self
  have hle : units.log2 + 1 ≤ 53 + scaleOf units := by
    show units.log2 + 1 ≤ 53 + (units.log2 + 1 - 53)
    omega
  rw [← Nat.shiftLeft_add, Nat.one_shiftLeft]
  exact Nat.lt_of_lt_of_le hlog (Nat.pow_le_pow_right (by decide) hle)

theorem shiftLeft_le_units (hscale : scaleOf units ≠ 0) :
    (1 <<< 52) <<< scaleOf units ≤ units := by
  have heq : 52 + scaleOf units = units.log2 := by
    have hdef : scaleOf units = units.log2 + 1 - 53 := rfl
    omega
  rw [← Nat.shiftLeft_add, Nat.one_shiftLeft, heq]
  refine Nat.log2_self_le ?_
  rintro rfl
  exact hscale rfl

/-! ## The nearest bit pattern -/

/-- The significand that a magnitude is rounded to. -/
def roundedSignificand (units : Nat) : Nat := roundHalfEven units (1 <<< scaleOf units)

/-- The bit pattern that a magnitude is rounded to, unless that is infinity. -/
def roundedBits (units : Nat) : Nat := scaleOf units <<< 52 + roundedSignificand units

theorem roundedSignificand_le (units : Nat) : roundedSignificand units ≤ 1 <<< 53 := by
  have hlt := units_lt_shiftLeft units
  have hquotient : units / 1 <<< scaleOf units < 1 <<< 53 := by
    rw [Nat.div_lt_iff_lt_mul (one_shiftLeft_pos _)]
    rwa [Nat.shiftLeft_eq _ (scaleOf units), ← Nat.one_shiftLeft] at hlt
  exact Nat.le_trans (roundHalfEven_bounds units _).2 hquotient

theorem le_roundedSignificand (hscale : scaleOf units ≠ 0) :
    1 <<< 52 ≤ roundedSignificand units := by
  have hle := shiftLeft_le_units hscale
  have hquotient : 1 <<< 52 ≤ units / 1 <<< scaleOf units := by
    rw [Nat.le_div_iff_mul_le (one_shiftLeft_pos _)]
    rwa [Nat.shiftLeft_eq _ (scaleOf units), ← Nat.one_shiftLeft] at hle
  exact Nat.le_trans hquotient (roundHalfEven_bounds units _).1

theorem magnitudeOfBits_roundedBits (units : Nat) :
    magnitudeOfBits (roundedBits units) = roundedSignificand units <<< scaleOf units := by
  refine magnitudeOfBits_eq (roundedSignificand_le units) ?_
  by_cases hscale : scaleOf units = 0
  · exact Or.inl hscale
  · exact Or.inr (le_roundedSignificand hscale)

/-- A magnitude is on the grid of a scale, or below the significands that begin it. -/
theorem on_grid_or_lt (bits scale : Nat) :
    (∃ k, magnitudeOfBits bits = k <<< scale) ∨
      (scale ≠ 0 ∧ magnitudeOfBits bits < (1 <<< 52) <<< scale) := by
  obtain ⟨scale', significand, rfl, hlt, hscale'⟩ := exists_bits_eq bits
  rw [magnitudeOfBits_eq (Nat.le_of_lt hlt) hscale']
  rcases Nat.lt_or_ge scale' scale with hbelow | hgrid
  · refine Or.inr ⟨by omega, ?_⟩
    exact Nat.lt_of_lt_of_le (shiftLeft_lt_iff.mpr hlt) (leading_le_iff.mpr (by omega))
  · refine Or.inl ⟨significand <<< (scale' - scale), ?_⟩
    rw [← Nat.shiftLeft_add, Nat.sub_add_cancel hgrid]

/-- No magnitude is nearer than the rounded one; if another one is as near, the rounded bit pattern
is even. -/
theorem roundedBits_nearest (units bits : Nat) :
    Nat.dist (magnitudeOfBits (roundedBits units)) units ≤
        Nat.dist (magnitudeOfBits bits) units ∧
      (Nat.dist (magnitudeOfBits bits) units =
          Nat.dist (magnitudeOfBits (roundedBits units)) units →
        bits ≠ roundedBits units → roundedBits units % 2 = 0) := by
  have hgrid (k : Nat) : k <<< scaleOf units = k * 1 <<< scaleOf units := by
    rw [Nat.shiftLeft_eq, Nat.one_shiftLeft]
  have hden : 0 < 1 <<< scaleOf units := one_shiftLeft_pos _
  have hparity : roundedBits units % 2 = roundedSignificand units % 2 := by
    rw [roundedBits]
    omega
  rcases on_grid_or_lt bits (scaleOf units) with ⟨k, hk⟩ | ⟨hscale, hbelow⟩
  · obtain ⟨hnearest, heven⟩ := roundHalfEven_nearest units k hden
    rw [magnitudeOfBits_roundedBits, hk, hgrid k, hgrid (roundedSignificand units), hparity]
    refine ⟨hnearest, fun hdist hne => heven hdist ?_⟩
    rintro rfl
    exact hne (magnitudeOfBits_inj.mp (hk.trans (magnitudeOfBits_roundedBits units).symm))
  -- Between such a magnitude and the one to be rounded lies a point of the grid.
  · have hle := shiftLeft_le_units hscale
    obtain ⟨hnearest, -⟩ := roundHalfEven_nearest units (1 <<< 52) hden
    rw [← hgrid, ← hgrid] at hnearest
    rw [magnitudeOfBits_roundedBits, roundedSignificand]
    have hfarther : Nat.dist ((1 <<< 52) <<< scaleOf units) units <
        Nat.dist (magnitudeOfBits bits) units := by
      rw [Nat.dist_eq_sub_of_le hle, Nat.dist_eq_sub_of_le (by omega)]
      omega
    exact ⟨by omega, fun hdist => by omega⟩

/-! ## The double of an integer -/

/-- The magnitude of an integer in smallest subnormals. -/
def integerMagnitude (n : Int) : Nat := n.natAbs <<< FloatFormat.binary64.unitShift

theorem integerUnits_eq (n : Int) :
    integerUnits n = if n < 0 then -(integerMagnitude n : Int) else integerMagnitude n := by
  simp only [integerUnits, integerMagnitude, Nat.shiftLeft_eq, Nat.one_mul, Int.natCast_mul]
  split
  · rw [← Int.neg_mul, Int.ofNat_natAbs_of_nonpos (by omega), Int.neg_neg]
  · rw [Int.natAbs_of_nonneg (by omega)]

theorem roundedBits_lt_infinityBits (hn : n.natAbs ≤ 1 <<< 63) :
    roundedBits (integerMagnitude n) < FloatFormat.binary64.infinityBits := by
  have hscale : scaleOf (integerMagnitude n) ≤ 1085 := by
    by_cases hzero : scaleOf (integerMagnitude n) = 0
    · omega
    · have hle := shiftLeft_le_units hzero
      have hplaces := leading_le_iff.mp (Nat.le_trans hle (shiftLeft_le_iff.mpr hn))
      rw [show FloatFormat.binary64.unitShift = 1074 from rfl] at hplaces
      omega
  have hsignificand := roundedSignificand_le (integerMagnitude n)
  rw [roundedBits, show FloatFormat.binary64.infinityBits = 9218868437227405312 from rfl]
  omega

theorem fields_ofSignMagnitude {negative : Bool} {magnitude : Nat}
    (h : magnitude < 1 <<< 63) :
    (ofSignMagnitude negative magnitude).isNegative = negative ∧
      (ofSignMagnitude negative magnitude).magnitudeBits = magnitude := by
  have hmodulus : (1 <<< 63 : Nat) = 9223372036854775808 := rfl
  rw [hmodulus] at h
  simp only [isNegative, magnitudeBits, ofSignMagnitude, hmodulus, UInt64.toNat_ofNat']
  cases negative
  · simp only [Bool.false_eq_true, if_false, decide_eq_false_iff_not]
    omega
  · simp only [if_true, decide_eq_true_eq]
    omega

theorem fields_ofInt (hn : n.natAbs ≤ 1 <<< 63) :
    (ofInt n).isNegative = decide (n < 0) ∧
      (ofInt n).magnitudeBits = roundedBits (integerMagnitude n) := by
  have hlt := roundedBits_lt_infinityBits hn
  have hratio : FloatFormat.binary64.roundRatio n.natAbs 1 = roundedBits (integerMagnitude n) := by
    have hmin : FloatFormat.binary64.roundRatio n.natAbs 1 =
        min (roundedBits (integerMagnitude n)) FloatFormat.binary64.infinityBits := by
      simp only [FloatFormat.roundRatio, Nat.div_one]
      rfl
    rw [hmin, Nat.min_eq_left (Nat.le_of_lt hlt)]
  rw [ofInt, hratio]
  exact fields_ofSignMagnitude (Nat.lt_trans hlt (by decide))

/-- How far an integer is from the exact value of a double. -/
def error (x : Binary64) (n : Int) : Nat := (x.units - integerUnits n).natAbs

theorem error_eq (x : Binary64) (n : Int) :
    x.error n = if x.isNegative = decide (n < 0) then
        Nat.dist (magnitudeOfBits x.magnitudeBits) (integerMagnitude n)
      else magnitudeOfBits x.magnitudeBits + integerMagnitude n := by
  rw [error, units, integerUnits_eq, significand_shiftLeft_scale, Nat.dist]
  cases x.isNegative <;> by_cases hn : n < 0 <;>
    simp only [hn, decide_true, decide_false, reduceCtorEq, if_true, if_false] <;> omega

/-- The double is finite, none is nearer to the integer, and of two that are equally near it is
the even one. -/
structure NearestTo (n : Int) (x : Binary64) : Prop where
  isFinite : x.isFinite = true
  nearest : ∀ y : Binary64, y.isFinite = true → x.error n ≤ y.error n
  even : ∀ y : Binary64, y.isFinite = true → y.error n = x.error n → y.units ≠ x.units →
    x.significand % 2 = 0

theorem significand_mod_two (x : Binary64) : x.significand % 2 = x.magnitudeBits % 2 := by
  have hfraction : x.fractionField = x.magnitudeBits % 4503599627370496 := rfl
  rw [significand, hfraction]
  split <;> omega

/-- An integer of 64 bits is converted to the nearest double. -/
theorem nearestTo_ofInt (hn : n.natAbs ≤ 1 <<< 63) : NearestTo n (ofInt n) := by
  obtain ⟨hsign, hbits⟩ := fields_ofInt hn
  have herror : (ofInt n).error n =
      Nat.dist (magnitudeOfBits (roundedBits (integerMagnitude n))) (integerMagnitude n) := by
    rw [error_eq, hsign, if_pos rfl, hbits]
  -- Zero bounds the error, which settles the doubles with the other sign.
  have hzero : Nat.dist (magnitudeOfBits 0) (integerMagnitude n) = integerMagnitude n :=
    Nat.dist_zero_left _
  obtain ⟨hle, heven⟩ := roundedBits_nearest (integerMagnitude n) 0
  rw [hzero] at hle heven
  refine ⟨?_, fun y _ => ?_, fun y _ hdist hne => ?_⟩
  · rw [Binary64.isFinite, hbits]
    exact decide_eq_true (roundedBits_lt_infinityBits hn)
  · rw [herror, error_eq]
    split
    · exact (roundedBits_nearest _ _).1
    · exact Nat.le_trans hle (Nat.le_add_left ..)
  · rw [herror, error_eq] at hdist
    rw [significand_mod_two, hbits]
    split at hdist
    · rename_i hysign
      refine (roundedBits_nearest _ _).2 hdist fun hybits => hne ?_
      rw [eq_of_fields (hysign.trans hsign.symm) (hybits.trans hbits.symm)]
    · have hymagnitude : magnitudeOfBits y.magnitudeBits = 0 := by omega
      refine heven (by omega) fun hr => hne ?_
      have hofInt : magnitudeOfBits (ofInt n).magnitudeBits = 0 := by
        rw [hbits, ← hr]
        rfl
      rw [units_eq_zero_of_isZero (isZero_iff.mpr hymagnitude),
        units_eq_zero_of_isZero (isZero_iff.mpr hofInt)]

/-! ## Integers that are the values of doubles -/

theorem error_eq_zero_iff : x.error n = 0 ↔ x.units = integerUnits n := by
  rw [error]
  omega

/-- An integer that some double has as its value is converted to that value. -/
theorem HasValue.ofInt (h : x.HasValue n) (hn : n.natAbs ≤ 1 <<< 63) :
    (Binary64.ofInt n).HasValue n := by
  obtain ⟨hfinite, hnearest, -⟩ := nearestTo_ofInt hn
  have hle := hnearest x h.isFinite
  rw [error_eq_zero_iff.mpr h.units_eq, Nat.le_zero] at hle
  exact ⟨hfinite, error_eq_zero_iff.mp hle⟩

/-- A significand of 53 bits at any scale is the magnitude of a bit pattern. -/
theorem exists_magnitudeOfBits_eq {significand : Nat} (h : significand < 1 <<< 53) (scale : Nat) :
    ∃ bits, magnitudeOfBits bits = significand <<< scale := by
  generalize hunits : significand <<< scale = units
  have hle : scaleOf units ≤ scale := by
    by_cases hzero : scaleOf units = 0
    · omega
    · have hhigh : units < (1 <<< 53) <<< scale := hunits ▸ shiftLeft_lt_iff.mpr h
      have hplaces := Nat.lt_of_le_of_lt (shiftLeft_le_units hzero) hhigh
      rw [← Nat.not_le, leading_le_iff] at hplaces
      omega
  have hsplit : (significand <<< (scale - scaleOf units)) <<< scaleOf units = units := by
    rw [← Nat.shiftLeft_add, Nat.sub_add_cancel hle, hunits]
  refine ⟨scaleOf units <<< 52 + significand <<< (scale - scaleOf units), ?_⟩
  rw [magnitudeOfBits_eq, hsplit]
  · have hlt := units_lt_shiftLeft units
    conv at hlt => lhs; rw [← hsplit]
    exact Nat.le_of_lt (shiftLeft_lt_iff.mp hlt)
  · by_cases hzero : scaleOf units = 0
    · exact Or.inl hzero
    · have hlow := shiftLeft_le_units hzero
      conv at hlow => rhs; rw [← hsplit]
      exact Or.inr (shiftLeft_le_iff.mp hlow)

theorem HasValue.magnitude_eq (h : x.HasValue n) :
    magnitudeOfBits x.magnitudeBits = integerMagnitude n := by
  have herror := error_eq_zero_iff.mpr h.units_eq
  rw [error_eq] at herror
  split at herror
  · exact Nat.eq_of_dist_eq_zero herror
  · omega

/-- The magnitude of an integer that is the value of a double has at most 53 bits before the zeros
at its end. -/
theorem HasValue.exists_significand (h : x.HasValue n) :
    ∃ significand zeros, significand < 1 <<< 53 ∧ n.natAbs = significand <<< zeros := by
  obtain ⟨scale, significand, hbits, hlt, hscale⟩ := exists_bits_eq x.magnitudeBits
  have hmagnitude := h.magnitude_eq
  rw [hbits, magnitudeOfBits_eq (Nat.le_of_lt hlt) hscale, integerMagnitude] at hmagnitude
  rcases Nat.le_total FloatFormat.binary64.unitShift scale with hle | hle
  · refine ⟨significand, scale - FloatFormat.binary64.unitShift, hlt, ?_⟩
    rw [← Nat.sub_add_cancel hle, Nat.shiftLeft_add] at hmagnitude
    exact shiftLeft_inj.mp hmagnitude.symm
  -- The significand has a fraction behind the integer, which therefore has no more bits than it.
  · refine ⟨n.natAbs, 0, Nat.lt_of_le_of_lt ?_ hlt, rfl⟩
    rw [← Nat.sub_add_cancel hle, Nat.shiftLeft_add] at hmagnitude
    rw [shiftLeft_inj.mp hmagnitude, Nat.shiftLeft_eq]
    exact Nat.le_mul_of_pos_right _ (Nat.two_pow_pos _)

/-- An integer with at most 53 bits before the zeros at its end is converted without loss. -/
theorem hasValue_ofInt {significand : Nat} (zeros : Nat) (hn : n.natAbs ≤ 1 <<< 63)
    (hlt : significand < 1 <<< 53) (hsplit : n.natAbs = significand <<< zeros) :
    (ofInt n).HasValue n := by
  obtain ⟨bits, hbits⟩ := exists_magnitudeOfBits_eq hlt (zeros + FloatFormat.binary64.unitShift)
  obtain ⟨hsign, hofInt⟩ := fields_ofInt hn
  have hexact : magnitudeOfBits bits = integerMagnitude n := by
    rw [hbits, Nat.shiftLeft_add, ← hsplit, integerMagnitude]
  have hle := (roundedBits_nearest (integerMagnitude n) bits).1
  rw [hexact, Nat.dist_self] at hle
  refine ⟨(nearestTo_ofInt hn).isFinite, error_eq_zero_iff.mp ?_⟩
  rw [error_eq, hsign, if_pos rfl, hofInt]
  exact Nat.le_zero.mp hle

theorem exists_hasValue_iff (hn : n.natAbs ≤ 1 <<< 63) :
    (∃ x : Binary64, x.HasValue n) ↔
      ∃ significand zeros, significand < 1 <<< 53 ∧ n.natAbs = significand <<< zeros := by
  constructor
  · rintro ⟨x, hx⟩
    exact hx.exists_significand
  · rintro ⟨significand, zeros, hlt, hsplit⟩
    exact ⟨ofInt n, hasValue_ofInt zeros hn hlt hsplit⟩

/-! ## Comparison with a double -/

/-- A double is numerically equal to a converted integer when it is finite and has the value of the
double nearest to the integer. -/
theorem ofInt_numericEq_iff (hn : n.natAbs ≤ 1 <<< 63) :
    (ofInt n).numericEq x = true ↔ x.isFinite = true ∧ x.units = (ofInt n).units := by
  have hfinite := (nearestTo_ofInt hn).isFinite
  constructor
  · intro h
    have hx := isFinite_of_numericEq h hfinite
    exact ⟨hx, ((numericEq_iff_units_eq hfinite hx).mp h).symm⟩
  · rintro ⟨hx, hunits⟩
    exact (numericEq_iff_units_eq hfinite hx).mpr hunits.symm

end Binary64

end ClauseMatch
