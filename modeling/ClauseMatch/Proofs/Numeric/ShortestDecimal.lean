import ClauseMatch.Proofs.Numeric.ReadingInterval

/-!
# The shortest decimal reads back

The search for the text of a double walks over decimal grids and stops at a point in the reading
interval. It always finds one, wherever it starts, since on the last grid every double is a point
itself. Moving zeros from the digits to the exponent does not change the point. Read as a numeral,
whatever zeros are written behind its digits, the point is therefore rounded to the double, and its
order of magnitude is one that the reader does not cut off.
-/

namespace ClauseMatch

/-! ## Powers of ten -/

theorem powerOfTen_succ (n : Nat) : powerOfTen (n + 1) = 10 * powerOfTen n :=
  (Nat.pow_succ 10 n).trans (Nat.mul_comm _ _)

theorem powerOfTen_pos (n : Nat) : 0 < powerOfTen n := Nat.pow_pos (by decide)

theorem powerOfTen_add (m n : Nat) : powerOfTen (m + n) = powerOfTen m * powerOfTen n :=
  Nat.pow_add 10 m n

theorem powerOfTen_le {m n : Nat} (h : m ≤ n) : powerOfTen m ≤ powerOfTen n :=
  Nat.pow_le_pow_right (by decide) h

/-- A power of ten is divisible by the same power of two. -/
theorem exists_powerOfTen_eq (n : Nat) : ∃ k, powerOfTen n = k <<< n := by
  induction n with
  | zero => exact ⟨1, rfl⟩
  | succ n ih =>
    obtain ⟨k, hk⟩ := ih
    refine ⟨5 * k, ?_⟩
    rw [powerOfTen_succ, hk, Binary64.shiftLeft_succ, Nat.shiftLeft_eq, Nat.shiftLeft_eq,
      Nat.mul_assoc 5]
    omega

namespace DecimalPoint

/-- The numerator of a decimal as a ratio. -/
def numerator (p : DecimalPoint) : Nat := p.digits * powerOfTen p.exponent.toNat

/-- The denominator of a decimal as a ratio. -/
def denominator (p : DecimalPoint) : Nat := powerOfTen (-p.exponent).toNat

theorem denominator_pos (p : DecimalPoint) : 0 < p.denominator := powerOfTen_pos _

end DecimalPoint

namespace Binary64

variable {x : Binary64} {p : DecimalPoint}

/-- A decimal lies in the reading interval of the double. -/
def ReadsPoint (x : Binary64) (p : DecimalPoint) : Prop := x.ReadsRatio p.numerator p.denominator

/-! ## Moving zeros -/

/-- A zero behind the digits stands for one more in the exponent. -/
theorem readsPoint_ten_mul_iff (x : Binary64) (digits : Nat) (exponent : Int) :
    x.ReadsPoint ⟨10 * digits, exponent⟩ ↔ x.ReadsPoint ⟨digits, exponent + 1⟩ := by
  rw [ReadsPoint, ReadsPoint]
  simp only [DecimalPoint.numerator, DecimalPoint.denominator]
  rcases Int.lt_or_le exponent 0 with hneg | hnonneg
  · have hnum : exponent.toNat = 0 ∧ (exponent + 1).toNat = 0 := by omega
    have hden : (-exponent).toNat = (-(exponent + 1)).toNat + 1 := by omega
    rw [hnum.1, hnum.2, hden, powerOfTen_succ, Nat.mul_assoc, readsRatio_mul_iff (by decide)]
  · have hnum : (exponent + 1).toNat = exponent.toNat + 1 := by omega
    have hden : (-exponent).toNat = (-(exponent + 1)).toNat := by omega
    rw [hnum, hden, powerOfTen_succ, Nat.mul_left_comm, Nat.mul_assoc]

theorem readsPoint_zeros_iff (x : Binary64) (digits : Nat) (exponent : Int) (zeros : Nat) :
    x.ReadsPoint ⟨digits * powerOfTen zeros, exponent - zeros⟩ ↔ x.ReadsPoint ⟨digits, exponent⟩ := by
  induction zeros with
  | zero => simp [powerOfTen]
  | succ zeros ih =>
    have hexponent : exponent - (zeros + 1 : Nat) + 1 = exponent - zeros := by omega
    rw [powerOfTen_succ, Nat.mul_left_comm, readsPoint_ten_mul_iff, hexponent, ih]

theorem ReadsPoint.trim (h : x.ReadsPoint p) : x.ReadsPoint p.trim := by
  fun_induction DecimalPoint.trim p with
  | case1 p hzero ih =>
    refine ih ((readsPoint_ten_mul_iff x _ _).mp ?_)
    have hdigits : 10 * (p.digits / 10) = p.digits := by omega
    rwa [hdigits]
  | case2 => exact h

end Binary64

/-! ## Grids -/

namespace DecimalGrid

variable {g : DecimalGrid} {r : ReadingInterval} {digits : Nat}

theorem readsBack_iff_contains :
    g.readsBack r digits = true ↔ r.Contains g.quarter (digits * g.step) := by
  rw [readsBack]
  cases hclosed : r.closed with
  | true =>
    simp only [if_true, Bool.and_eq_true, decide_eq_true_eq]
    refine ⟨fun ⟨hlow, hhigh⟩ => ⟨hlow, hhigh, fun hopen => ?_⟩, fun h => ⟨h.low, h.high⟩⟩
    rw [hclosed] at hopen
    exact Bool.noConfusion hopen
  | false =>
    simp only [Bool.false_eq_true, if_false, Bool.and_eq_true, decide_eq_true_eq]
    exact ⟨fun h => ⟨Nat.le_of_lt h.1, Nat.le_of_lt h.2, fun _ => h⟩, fun h => h.inside hclosed⟩

/-- What is found on a grid reads back. -/
theorem readsBack_of_nearest? (h : g.nearest? r = some digits) : g.readsBack r digits = true := by
  simp only [nearest?] at h
  split at h
  · split at h <;> obtain rfl := Option.some.inj h <;> assumption
  · obtain rfl := Option.some.inj h
    assumption
  · obtain rfl := Option.some.inj h
    assumption
  · cases h

/-- Something is found on a grid if the point below the value reads back. -/
theorem nearest?_ne_none (h : g.readsBack r (r.value * g.quarter / g.step) = true) :
    g.nearest? r ≠ none := by
  simp only [nearest?, h]
  split
  · split <;> simp
  · simp
  · simp at *
  · simp at *

end DecimalGrid

namespace Binary64

variable {x : Binary64} {p : DecimalPoint}

/-! ## The search -/

/-- A point of a grid reads back if the decimal lies in the reading interval. -/
theorem readsBack_iff (x : Binary64) (p : DecimalPoint) :
    (DecimalGrid.ofExponent x.scale p.exponent).readsBack x.readingInterval p.digits = true ↔
      x.ReadsPoint p := by
  have hquarter : (DecimalGrid.ofExponent x.scale p.exponent).quarter =
      p.denominator <<< x.scale := by
    rw [DecimalGrid.ofExponent, shiftLeft_mul, Nat.one_mul]
    rfl
  have hpoint : p.digits * (DecimalGrid.ofExponent x.scale p.exponent).step =
      4 * p.numerator <<< FloatFormat.binary64.unitShift := by
    rw [DecimalGrid.ofExponent, Nat.mul_left_comm, shiftLeft_mul]
    rfl
  rw [DecimalGrid.readsBack_iff_contains, hquarter, hpoint]
  rfl

theorem readingInterval_around (hzero : x.isZero = false) :
    0 < x.readingInterval.low ∧ x.readingInterval.low < x.readingInterval.value ∧
      x.readingInterval.value < x.readingInterval.high := by
  have hpos := significand_pos hzero
  have hlow : x.readingInterval.low =
    4 * x.significand - (if x.significand = 1 <<< 52 ∧ 0 < x.scale then 1 else 2) := rfl
  have hvalue : x.readingInterval.value = 4 * x.significand := rfl
  have hhigh : x.readingInterval.high = 4 * x.significand + 2 := rfl
  rw [hlow, hvalue, hhigh]
  split <;> omega

/-- From the smallest subnormal on, a grid has every double as a point. -/
theorem readsBack_value (hzero : x.isZero = false) {exponent : Int}
    (h : exponent ≤ -FloatFormat.binary64.unitShift) :
    (DecimalGrid.ofExponent x.scale exponent).readsBack x.readingInterval
      (x.readingInterval.value * (DecimalGrid.ofExponent x.scale exponent).quarter /
        (DecimalGrid.ofExponent x.scale exponent).step) = true := by
  obtain ⟨-, hlow, hhigh⟩ := readingInterval_around hzero
  generalize hgrid : DecimalGrid.ofExponent x.scale exponent = g
  obtain ⟨hquarter, hstep⟩ : 0 < g.quarter ∧ g.step ∣ x.readingInterval.value * g.quarter := by
    obtain ⟨k, hk⟩ := exists_powerOfTen_eq (-exponent).toNat
    have hzeros : exponent.toNat = 0 := by omega
    have hplaces : FloatFormat.binary64.unitShift ≤ (-exponent).toNat := by omega
    rw [← hgrid, DecimalGrid.ofExponent, hzeros]
    refine ⟨Nat.mul_pos (one_shiftLeft_pos _) (powerOfTen_pos _), ?_⟩
    have hvalue : x.readingInterval.value = 4 * x.significand := rfl
    obtain ⟨places, hsum⟩ := Nat.exists_eq_add_of_le' hplaces
    have hsplit : powerOfTen (-exponent).toNat = k <<< places <<< FloatFormat.binary64.unitShift := by
      rw [hk, hsum, Nat.shiftLeft_add]
    have hone : powerOfTen 0 = 1 := rfl
    refine ⟨x.significand * (1 <<< x.scale * k <<< places), ?_⟩
    rw [hvalue, hsplit, hone, Nat.mul_one, shiftLeft_mul 4, mul_shiftLeft, mul_shiftLeft,
      Nat.mul_assoc 4]
  have hexact : x.readingInterval.value * g.quarter / g.step * g.step =
      x.readingInterval.value * g.quarter := Nat.div_mul_cancel hstep
  rw [DecimalGrid.readsBack_iff_contains, hexact]
  have hbelow := Nat.mul_lt_mul_of_pos_right hlow hquarter
  have habove := Nat.mul_lt_mul_of_pos_right hhigh hquarter
  exact ⟨Nat.le_of_lt hbelow, Nat.le_of_lt habove, fun _ => ⟨hbelow, habove⟩⟩

/-- A search that goes on to the smallest subnormal finds a decimal in the reading interval. -/
theorem readsPoint_searchGrids (hzero : x.isZero = false) (steps : Nat) (exponent : Int)
    (h : exponent - steps ≤ -FloatFormat.binary64.unitShift) :
    x.ReadsPoint (x.searchGrids steps exponent) := by
  have hfound {digits : Nat} {exponent : Int}
      (hnearest : (DecimalGrid.ofExponent x.scale exponent).nearest? x.readingInterval =
        some digits) : x.ReadsPoint ⟨digits, exponent⟩ :=
    (readsBack_iff x ⟨digits, exponent⟩).mp (DecimalGrid.readsBack_of_nearest? hnearest)
  induction steps generalizing exponent with
  | zero =>
    cases hnearest : (DecimalGrid.ofExponent x.scale exponent).nearest? x.readingInterval with
    | some digits =>
      unfold searchGrids
      simp only [hnearest]
      exact hfound hnearest
    | none =>
      exact absurd hnearest (DecimalGrid.nearest?_ne_none (readsBack_value hzero (by omega)))
  | succ steps ih =>
    cases hnearest : (DecimalGrid.ofExponent x.scale exponent).nearest? x.readingInterval with
    | some digits =>
      unfold searchGrids
      simp only [hnearest]
      exact hfound hnearest
    | none =>
      unfold searchGrids
      simp only [hnearest]
      exact ih (exponent - 1) (by omega)

/-- The shortest decimal of a double reads back as it. -/
theorem readsPoint_shortest (hzero : x.isZero = false) : x.ReadsPoint x.shortest := by
  refine ReadsPoint.trim (readsPoint_searchGrids hzero _ _ ?_)
  omega

theorem ReadsPoint.digits_pos (h : x.ReadsPoint p) (hzero : x.isZero = false) : 0 < p.digits := by
  rw [Nat.pos_iff_ne_zero]
  intro hdigits
  have hlow := h.low
  have hpos : 0 < x.readingInterval.low * p.denominator <<< x.scale :=
    Nat.mul_pos (readingInterval_around hzero).1 (shiftLeft_pos p.denominator_pos _)
  rw [DecimalPoint.numerator, hdigits, Nat.zero_mul, Nat.zero_shiftLeft] at hlow
  omega

/-! ## Orders of magnitude -/

section

variable {digits count : Nat} {exponent : Int}

theorem scale_le (hfinite : x.isFinite = true) : x.scale ≤ 2045 := by
  have hbits := x.magnitudeBits_eq
  have hleading := x.scale_eq_zero_or
  rw [isFinite, decide_eq_true_eq,
    show FloatFormat.binary64.infinityBits = 9218868437227405312 from rfl] at hfinite
  omega

theorem shiftLeft_le_shiftLeft (n : Nat) {scale scale' : Nat} (h : scale ≤ scale') :
    n <<< scale ≤ n <<< scale' := by
  rw [Nat.shiftLeft_eq, Nat.shiftLeft_eq]
  exact Nat.mul_le_mul_left n (Nat.pow_le_pow_right (by decide) h)

theorem range_le_powerOfTen : 1 <<< 1024 ≤ powerOfTen 309 ∧ 1 <<< 1075 ≤ powerOfTen 324 := by
  decide +kernel

/-- No double is as large as the decimals that are cut off above. -/
theorem ReadsPoint.order_lt (h : x.ReadsPoint ⟨digits, exponent⟩) (hfinite : x.isFinite = true)
    (hzero : x.isZero = false) (hdigits : powerOfTen count ≤ 10 * digits) :
    exponent + count < 310 := by
  by_contra hlarge
  generalize hnum : digits * powerOfTen exponent.toNat = num
  generalize hden : powerOfTen (-exponent).toNat = den
  have hratio : x.ReadsRatio num den := hnum ▸ hden ▸ h
  have hbelow : num < den <<< 1024 := by
    have hhigh := (hratio.near hzero).high
    have hscaled := shiftLeft_le_shiftLeft den (scale_le hfinite)
    have hunit : 0 < den <<< x.scale := shiftLeft_pos (hden ▸ powerOfTen_pos _) _
    have hnext := Nat.mul_le_mul_right (den <<< x.scale) (Nat.succ_le_of_lt x.significand_lt)
    rw [Nat.succ_mul] at hnext
    have hlt : num <<< FloatFormat.binary64.unitShift < 1 <<< 53 * den <<< 2045 := by omega
    have hplaces : 1 <<< 53 * den <<< 2045 = den <<< 1024 <<< FloatFormat.binary64.unitShift := by
      rw [shiftLeft_mul, Nat.one_mul, ← Nat.shiftLeft_add, ← Nat.shiftLeft_add]
      rfl
    exact shiftLeft_lt_iff.mp (hplaces ▸ hlt)
  have habove : powerOfTen 310 * den ≤ 10 * num := by
    calc powerOfTen 310 * den = powerOfTen (310 + (-exponent).toNat) := by
          rw [powerOfTen_add, hden]
      _ ≤ powerOfTen (count + exponent.toNat) := powerOfTen_le (by omega)
      _ = powerOfTen count * powerOfTen exponent.toNat := powerOfTen_add _ _
      _ ≤ 10 * digits * powerOfTen exponent.toNat := Nat.mul_le_mul_right _ hdigits
      _ = 10 * num := by rw [Nat.mul_assoc, hnum]
  have hrange := Nat.mul_le_mul_right den range_le_powerOfTen.1
  rw [powerOfTen_succ 309, Nat.mul_assoc] at habove
  rw [shiftLeft_mul, Nat.one_mul] at hrange
  omega

/-- No double but zero is as small as the decimals that are cut off below. -/
theorem ReadsPoint.lt_order (h : x.ReadsPoint ⟨digits, exponent⟩) (hzero : x.isZero = false)
    (hdigits : digits < powerOfTen count) : -324 < exponent + count := by
  by_contra hsmall
  generalize hnum : digits * powerOfTen exponent.toNat = num
  generalize hden : powerOfTen (-exponent).toNat = den
  have hratio : x.ReadsRatio num den := hnum ▸ hden ▸ h
  have habove : den ≤ num <<< 1075 := by
    have hlow := (hratio.near hzero).low
    have hunit := shiftLeft_le_shiftLeft den (Nat.zero_le x.scale)
    have hfirst := Nat.le_mul_of_pos_left (den <<< x.scale) (significand_pos hzero)
    have hshift : num <<< 1075 = 2 * num <<< FloatFormat.binary64.unitShift :=
      shiftLeft_succ num FloatFormat.binary64.unitShift
    rw [Nat.shiftLeft_zero] at hunit
    omega
  have hbelow : powerOfTen 324 * num < den := by
    calc powerOfTen 324 * num = digits * (powerOfTen 324 * powerOfTen exponent.toNat) := by
          rw [← hnum, Nat.mul_left_comm]
      _ < powerOfTen count * (powerOfTen 324 * powerOfTen exponent.toNat) :=
          Nat.mul_lt_mul_of_pos_right hdigits (Nat.mul_pos (powerOfTen_pos _) (powerOfTen_pos _))
      _ = powerOfTen (count + (324 + exponent.toNat)) := by rw [powerOfTen_add, powerOfTen_add]
      _ ≤ powerOfTen (-exponent).toNat := powerOfTen_le (by omega)
      _ = den := hden
  have hrange := Nat.mul_le_mul_right num range_le_powerOfTen.2
  rw [shiftLeft_mul, Nat.one_mul] at hrange
  omega

/-- A decimal in the reading interval is read as the double. -/
theorem ReadsPoint.ofScientific_eq (h : x.ReadsPoint ⟨digits, exponent⟩)
    (hfinite : x.isFinite = true) (hzero : x.isZero = false)
    (hlow : powerOfTen count ≤ 10 * digits) (hhigh : digits < powerOfTen count) (negative : Bool) :
    ofScientific negative digits count exponent = ofSignMagnitude negative x.magnitudeBits := by
  have hlarge : ¬ 310 ≤ exponent + count := Int.not_le.mpr (h.order_lt hfinite hzero hlow)
  have hsmall : ¬ exponent + count ≤ -324 := Int.not_le.mpr (h.lt_order hzero hhigh)
  have hrounded := ReadsRatio.roundRatio_eq h (DecimalPoint.denominator_pos _) hfinite hzero
  rw [ofScientific, if_neg (h.digits_pos hzero).ne', if_neg hlarge, if_neg hsmall]
  exact congrArg (ofSignMagnitude negative) hrounded

end

end Binary64

end ClauseMatch
