import ClauseMatch.Numeric.Shortest
import ClauseMatch.Proofs.Numeric.NearestDouble

/-!
# Ratios that read back as a double

The reading interval of a finite double holds the ratios that are rounded to it. Its ends lie halfway
to the neighbours, so that inside it the nearest significand is the double's own; below a power of
two, where the lower neighbour is nearer by half, the ratio is first seen at the scale of that
neighbour, and its significand carries into the exponent. On an end the two significands are equally
near, and the end belongs to the interval of the even one.
-/

namespace ClauseMatch

theorem mul_eq_of_near {k m den : Nat} (hden : 0 < den) (hlt : k < m)
    (h : m * den ≤ k * den + den) : m = k + 1 ∧ m * den = k * den + den := by
  rw [← Nat.succ_mul] at h
  have hle := Nat.le_of_mul_le_mul_right h hden
  obtain rfl : m = k + 1 := by omega
  exact ⟨rfl, Nat.succ_mul k den⟩

/-- A ratio is rounded to the integer that it lies within a half of, an even one if it lies exactly
there. -/
theorem roundHalfEven_eq {num den m : Nat} (hden : 0 < den) (hlow : 2 * (m * den) ≤ 2 * num + den)
    (hhigh : 2 * num ≤ 2 * (m * den) + den)
    (htie : 2 * (m * den) = 2 * num + den ∨ 2 * num = 2 * (m * den) + den → m % 2 = 0) :
    roundHalfEven num den = m := by
  obtain ⟨hnearest, heven⟩ := roundHalfEven_nearest num m hden
  simp only [Nat.dist] at hnearest heven
  -- Of two neighbours the ratio lies halfway between, and only one is even.
  rcases Nat.lt_trichotomy (roundHalfEven num den) m with hlt | heq | hlt
  · obtain ⟨hnext, hproduct⟩ := mul_eq_of_near hden hlt (by omega)
    have hrounded := heven (by omega) (Nat.ne_of_gt hlt)
    have hm := htie (Or.inl (by omega))
    omega
  · exact heq
  · obtain ⟨hnext, hproduct⟩ := mul_eq_of_near hden hlt (by omega)
    have hrounded := heven (by omega) (Nat.ne_of_lt hlt)
    have hm := htie (Or.inr (by omega))
    omega

namespace Binary64

variable {x : Binary64} {num den : Nat}

/-! ## The fields of a double -/

theorem magnitudeBits_eq (x : Binary64) : x.magnitudeBits = x.scale <<< 52 + x.significand := by
  have hfraction : x.fractionField = x.magnitudeBits % 4503599627370496 := rfl
  have hexponent : x.exponentField = x.magnitudeBits >>> 52 := rfl
  rw [scale, significand, hfraction, hexponent]
  split <;> omega

theorem significand_lt (x : Binary64) : x.significand < 1 <<< 53 := by
  have hfraction : x.fractionField < 4503599627370496 := Nat.mod_lt _ (by decide)
  rw [significand]
  split <;> omega

/-- A normal double has a leading bit. -/
theorem scale_eq_zero_or (x : Binary64) : x.scale = 0 ∨ 1 <<< 52 ≤ x.significand := by
  rw [scale, significand]
  split
  · left
    omega
  · right
    omega

theorem significand_pos (h : x.isZero = false) : 0 < x.significand := by
  rw [Nat.pos_iff_ne_zero]
  intro hzero
  have hscale : x.scale = 0 := x.scale_eq_zero_or.resolve_right (by rw [hzero]; decide)
  have hbits := x.magnitudeBits_eq
  rw [hzero, hscale] at hbits
  rw [isZero, hbits] at h
  exact Bool.noConfusion h

theorem scaleOf_eq {units scale : Nat} (hlt : units < (1 <<< 53) <<< scale)
    (hle : scale = 0 ∨ (1 <<< 52) <<< scale ≤ units) : scaleOf units = scale := by
  rcases Nat.lt_trichotomy (scaleOf units) scale with hbelow | heq | habove
  · have hlow := hle.resolve_left (by omega)
    have hplaces := Nat.lt_of_le_of_lt hlow (units_lt_shiftLeft units)
    rw [← Nat.not_le, leading_le_iff] at hplaces
    omega
  · exact heq
  · have hplaces := Nat.lt_of_le_of_lt (shiftLeft_le_units (by omega)) hlt
    rw [← Nat.not_le, leading_le_iff] at hplaces
    omega

end Binary64

/-! ## The interval -/

/-- A point lies in the interval, where a quarter of the unit in the last place measures `quarter`.
The ends belong to the interval if it is closed. -/
structure ReadingInterval.Contains (r : ReadingInterval) (quarter point : Nat) : Prop where
  low : r.low * quarter ≤ point
  high : point ≤ r.high * quarter
  inside : r.closed = false → r.low * quarter < point ∧ point < r.high * quarter

namespace Binary64

variable {x : Binary64} {num den : Nat}

/-- A ratio lies in the reading interval of the double. -/
def ReadsRatio (x : Binary64) (num den : Nat) : Prop :=
  x.readingInterval.Contains (den <<< x.scale) (4 * num <<< FloatFormat.binary64.unitShift)

/-- A multiple is within half a unit in the last place, and on an odd significand within less. Right
above a power of two it is within a quarter from below. -/
structure Near (m scale quotient unit : Nat) : Prop where
  low : 4 * (m * unit) ≤ 4 * quotient + 2 * unit
  high : 4 * quotient ≤ 4 * (m * unit) + 2 * unit
  odd : m % 2 = 1 → 4 * (m * unit) < 4 * quotient + 2 * unit ∧ 4 * quotient < 4 * (m * unit) + 2 * unit
  power : m = 1 <<< 52 → 0 < scale → 4 * (m * unit) ≤ 4 * quotient + unit

theorem ReadsRatio.near (h : x.ReadsRatio num den) (hzero : x.isZero = false) :
    Near x.significand x.scale (num <<< FloatFormat.binary64.unitShift) (den <<< x.scale) := by
  have hpos := significand_pos hzero
  obtain ⟨hlow, hhigh, hinside⟩ := h
  have hclosed : x.readingInterval.closed = false ↔ x.significand % 2 = 1 := by
    have hparity : x.readingInterval.closed = (x.significand % 2 == 0) := rfl
    rw [hparity, beq_eq_false_iff_ne]
    omega
  have hends : x.readingInterval.low =
        4 * x.significand - (if x.significand = 1 <<< 52 ∧ 0 < x.scale then 1 else 2) ∧
      x.readingInterval.high = 4 * x.significand + 2 := ⟨rfl, rfl⟩
  rw [hclosed] at hinside
  rw [hends.1, hends.2] at hinside
  rw [hends.1] at hlow
  rw [hends.2] at hhigh
  generalize num <<< FloatFormat.binary64.unitShift = units at *
  generalize den <<< x.scale = unit at *
  have hunit : unit ≤ x.significand * unit := Nat.le_mul_of_pos_left unit hpos
  rw [Nat.sub_mul, Nat.add_mul, Nat.mul_assoc] at hinside
  rw [Nat.sub_mul, Nat.mul_assoc] at hlow
  rw [Nat.add_mul, Nat.mul_assoc] at hhigh
  by_cases hpower : x.significand = 1 <<< 52 ∧ 0 < x.scale
  · rw [if_pos hpower] at hlow hinside
    exact ⟨by omega, hhigh, fun hodd => by have := hinside hodd; omega, fun _ _ => by omega⟩
  · rw [if_neg hpower] at hlow hinside
    exact ⟨by omega, hhigh, fun hodd => by have := hinside hodd; omega,
      fun hm hscale => absurd ⟨hm, hscale⟩ hpower⟩

/-! ## Rounding -/

theorem shiftLeft_mul (k n scale : Nat) : k <<< scale * n = k * n <<< scale := by
  rw [Nat.shiftLeft_eq, Nat.shiftLeft_eq, Nat.mul_right_comm, Nat.mul_assoc]

theorem mul_shiftLeft (k n scale : Nat) : (k * n) <<< scale = k * n <<< scale := by
  rw [Nat.shiftLeft_eq, Nat.shiftLeft_eq, Nat.mul_assoc]

/-- The scale of a ratio is known from the significands that begin and end the scale. -/
theorem scaleOf_div_eq {units scale : Nat} (hden : 0 < den)
    (hlt : units < 1 <<< 53 * den <<< scale)
    (hle : scale = 0 ∨ 1 <<< 52 * den <<< scale ≤ units) : scaleOf (units / den) = scale := by
  refine scaleOf_eq ?_ (hle.imp_right fun hle => ?_)
  · rw [Nat.div_lt_iff_lt_mul hden, shiftLeft_mul]
    exact hlt
  · rw [Nat.le_div_iff_mul_le hden, shiftLeft_mul]
    exact hle

/-- Rounding, once the scale is known. -/
theorem roundRatio_of_scaleOf {scale m : Nat}
    (hscale : scaleOf (num <<< FloatFormat.binary64.unitShift / den) = scale)
    (hround : roundHalfEven (num <<< FloatFormat.binary64.unitShift) (den <<< scale) = m) :
    FloatFormat.binary64.roundRatio num den =
      min (scale <<< 52 + m) FloatFormat.binary64.infinityBits := by
  rw [← hround, ← hscale]
  rfl

theorem shiftLeft_pos {n : Nat} (hn : 0 < n) (scale : Nat) : 0 < n <<< scale := by
  rw [Nat.shiftLeft_eq]
  exact Nat.mul_pos hn (Nat.two_pow_pos scale)

theorem shiftLeft_succ (n scale : Nat) : n <<< (scale + 1) = 2 * n <<< scale := by
  rw [Nat.shiftLeft_eq, Nat.shiftLeft_eq, Nat.pow_succ, Nat.mul_comm 2, Nat.mul_assoc]

/-- At the scale of the double the ratio is rounded to the double's significand. -/
theorem Near.roundRatio_eq {m scale : Nat} (hden : 0 < den) (hm : 0 < m ∧ m < 1 <<< 53)
    (h : Near m scale (num <<< FloatFormat.binary64.unitShift) (den <<< scale))
    (hle : scale = 0 ∨ 1 <<< 52 * den <<< scale ≤ num <<< FloatFormat.binary64.unitShift) :
    FloatFormat.binary64.roundRatio num den =
      min (scale <<< 52 + m) FloatFormat.binary64.infinityBits := by
  obtain ⟨hlow, hhigh, hodd, -⟩ := h
  have hunit : 0 < den <<< scale := shiftLeft_pos hden scale
  have hbelow := Nat.mul_le_mul_right (den <<< scale) (Nat.succ_le_of_lt hm.2)
  rw [Nat.succ_mul] at hbelow
  refine roundRatio_of_scaleOf (scaleOf_div_eq hden (by omega) hle) ?_
  refine roundHalfEven_eq hunit (by omega) (by omega) fun htie => ?_
  by_contra hne
  have := hodd (by omega)
  omega

/-- Below a power of two the ratio is rounded up to the power, at the scale of the lower
neighbour. -/
theorem Near.roundRatio_eq_power {scale : Nat} (hden : 0 < den)
    (h : Near (1 <<< 52) (scale + 1) (num <<< FloatFormat.binary64.unitShift) (den <<< (scale + 1)))
    (hlt : num <<< FloatFormat.binary64.unitShift < 1 <<< 52 * den <<< (scale + 1)) :
    FloatFormat.binary64.roundRatio num den =
      min ((scale + 1) <<< 52 + 1 <<< 52) FloatFormat.binary64.infinityBits := by
  have hpower := h.power rfl (Nat.succ_pos scale)
  have hunit : 0 < den <<< scale := shiftLeft_pos hden scale
  rw [shiftLeft_succ den scale] at hpower hlt
  have hcarried : (scale + 1) <<< 52 + 1 <<< 52 = scale <<< 52 + 1 <<< 53 := by omega
  rw [hcarried]
  refine roundRatio_of_scaleOf (scaleOf_div_eq hden (by omega) (Or.inr (by omega))) ?_
  exact roundHalfEven_eq hunit (by omega) (by omega) fun _ => by decide

/-- A ratio in the reading interval is rounded to the double. -/
theorem ReadsRatio.roundRatio_eq (h : x.ReadsRatio num den) (hden : 0 < den)
    (hfinite : x.isFinite = true) (hzero : x.isZero = false) :
    FloatFormat.binary64.roundRatio num den = x.magnitudeBits := by
  have hnear := h.near hzero
  have hrounded : FloatFormat.binary64.roundRatio num den =
      min (x.scale <<< 52 + x.significand) FloatFormat.binary64.infinityBits := by
    rcases Nat.lt_or_ge (num <<< FloatFormat.binary64.unitShift) (1 <<< 52 * den <<< x.scale) with
      hbelow | hfrom
    · by_cases hscale : x.scale = 0
      · exact hnear.roundRatio_eq hden ⟨significand_pos hzero, x.significand_lt⟩ (Or.inl hscale)
      -- With a leading bit and yet below the power of two, the significand is this power.
      · have hleading := x.scale_eq_zero_or.resolve_left hscale
        have hlow := hnear.low
        have hstep : x.significand = 1 <<< 52 := by
          by_contra hne
          have hnext := Nat.mul_le_mul_right (den <<< x.scale)
            (Nat.succ_le_of_lt (Nat.lt_of_le_of_ne hleading (Ne.symm hne)))
          rw [Nat.succ_mul] at hnext
          omega
        obtain ⟨scale, hsucc⟩ := Nat.exists_eq_succ_of_ne_zero hscale
        rw [hstep, hsucc] at hnear ⊢
        rw [hsucc] at hbelow
        exact hnear.roundRatio_eq_power hden hbelow
    · exact hnear.roundRatio_eq hden ⟨significand_pos hzero, x.significand_lt⟩ (Or.inr hfrom)
  rw [hrounded, ← magnitudeBits_eq]
  rw [isFinite, decide_eq_true_eq] at hfinite
  exact Nat.min_eq_left (Nat.le_of_lt hfinite)

/-! ## Ratios in other terms -/

/-- A ratio reads back as what it does in lower terms. -/
theorem readsRatio_mul_iff {c : Nat} (hc : 0 < c) :
    x.ReadsRatio (c * num) (c * den) ↔ x.ReadsRatio num den := by
  have hscaled (k n : Nat) : k * (c * n) = c * (k * n) := Nat.mul_left_comm k c n
  simp only [ReadsRatio, mul_shiftLeft]
  constructor
  · rintro ⟨hlow, hhigh, hinside⟩
    simp only [hscaled, Nat.mul_le_mul_left_iff hc, Nat.mul_lt_mul_left hc] at hlow hhigh hinside
    exact ⟨hlow, hhigh, hinside⟩
  · rintro ⟨hlow, hhigh, hinside⟩
    refine ⟨?_, ?_, fun hopen => ?_⟩
    all_goals simp only [hscaled, Nat.mul_le_mul_left_iff hc, Nat.mul_lt_mul_left hc]
    · exact hlow
    · exact hhigh
    · exact hinside hopen

end Binary64

end ClauseMatch
