import ClauseMatch.Proofs.Literal.IntegerSpelling
import ClauseMatch.Proofs.Numeric.ShortestDecimal
import Mathlib.Data.List.Induction

/-!
# The text of a double as a numeral

The digits of the shortest decimal are laid out in one of three notations: behind leading zeros, with
the point among them or behind further zeros, or with an exponent. Each of them is a numeral whose
digits are those of the decimal, up to zeros at either end, and whose exponent makes up for the
zeros. The text of a finite double is therefore a complete numeral that denotes the double.
-/

namespace ClauseMatch

open Literal (signChars signedInt)

/-! ## Digits -/

/-- Digits that spell a number without leading zeros. -/
structure DigitsOf (n : Nat) (digits : List Char) : Prop where
  head : ∃ c rest, digits = c :: rest ∧ c ≠ '0'
  isDigit : ∀ c ∈ digits, c.isDigit = true
  value : natOfDigits 10 digits = n
  low : powerOfTen digits.length ≤ 10 * n
  high : n < powerOfTen digits.length

theorem DigitsOf.ne_nil {n : Nat} {digits : List Char} (h : DigitsOf n digits) : digits ≠ [] := by
  obtain ⟨c, rest, rfl, -⟩ := h.head
  exact List.cons_ne_nil c rest

theorem toDigits_head {n : Nat} (hn : 0 < n) :
    ∃ c rest, Nat.toDigits 10 n = c :: rest ∧ c ≠ '0' := by
  induction n using Nat.strongRecOn with
  | ind n ih =>
    rcases Nat.lt_or_ge n 10 with hsmall | hlarge
    · have hdigit : ∀ d < 10, 0 < d → Nat.digitChar d ≠ '0' := by decide
      exact ⟨Nat.digitChar n, [], Nat.toDigits_of_lt_base hsmall, hdigit n hsmall hn⟩
    · obtain ⟨c, rest, hrest, hc⟩ := ih (n / 10) (by omega) (by omega)
      refine ⟨c, rest ++ [Nat.digitChar (n % 10)], ?_, hc⟩
      rw [Nat.toDigits_of_base_le (by decide) hlarge, hrest, List.cons_append]

theorem toDigits_bounds {n : Nat} (hn : 0 < n) :
    powerOfTen (Nat.toDigits 10 n).length ≤ 10 * n ∧ n < powerOfTen (Nat.toDigits 10 n).length := by
  induction n using Nat.strongRecOn with
  | ind n ih =>
    rcases Nat.lt_or_ge n 10 with hsmall | hlarge
    · rw [Nat.toDigits_of_lt_base hsmall, List.length_singleton,
        show powerOfTen 1 = 10 from rfl]
      omega
    · have hbounds := ih (n / 10) (by omega) (by omega)
      rw [Nat.toDigits_of_base_le (by decide) hlarge, List.length_append, List.length_singleton,
        powerOfTen_succ]
      omega

theorem digitsOf_toDigits {n : Nat} (hn : 0 < n) : DigitsOf n (Nat.toDigits 10 n) where
  head := toDigits_head hn
  isDigit := fun _ => Literal.isDigit_of_mem_toDigits
  value := Literal.natOfDigits_toDigits n
  low := (toDigits_bounds hn).1
  high := (toDigits_bounds hn).2

theorem natOfDigits_zeros (digits : List Char) (zeros : Nat) :
    natOfDigits 10 (digits ++ List.replicate zeros '0') =
      natOfDigits 10 digits * powerOfTen zeros := by
  induction zeros with
  | zero => simp [powerOfTen]
  | succ zeros ih =>
    have hzero : digitValue '0' = 0 := rfl
    rw [List.replicate_succ', ← List.append_assoc, Literal.natOfDigits_append_singleton, ih, hzero,
      powerOfTen_succ, Nat.mul_left_comm]
    omega

/-- A small exponent is read in full. -/
theorem exponentOfDigits_eq {digits : List Char} (h : natOfDigits 10 digits < 65536) :
    exponentOfDigits digits = natOfDigits 10 digits := by
  induction digits using List.reverseRecOn with
  | nil => rfl
  | append_singleton digits c ih =>
    rw [Literal.natOfDigits_append_singleton] at h ⊢
    have hread := ih (by omega)
    rw [exponentOfDigits] at hread ⊢
    rw [List.foldl_append, hread, List.foldl_cons, List.foldl_nil, if_pos (by omega)]

/-! ## Numerals -/

namespace DecimalNumeral

/-- The point with the digits behind it, if there are any. -/
def pointChars (fraction : List Char) : List Char :=
  if fraction = [] then [] else '.' :: fraction

/-- The letter, the sign and the digits of an exponent, if there is one. -/
def exponentChars (exponent : Option (Bool × List Char)) : List Char :=
  exponent.elim [] fun power => 'e' :: (signChars power.1 ++ power.2)

/-- A numeral as it is written, without its sign. -/
def magnitudeChars (d : DecimalNumeral) : List Char :=
  d.whole ++ (pointChars d.fraction ++ exponentChars d.exponent)

/-- A numeral as it is written. -/
def chars (d : DecimalNumeral) : List Char := signChars d.negative ++ d.magnitudeChars

/-- A numeral with digits before the point, and with digits behind the point, an exponent, or
both. -/
structure Plain (d : DecimalNumeral) : Prop where
  whole : d.whole ≠ [] ∧ ∀ c ∈ d.whole, c.isDigit = true
  fraction : ∀ c ∈ d.fraction, c.isDigit = true
  exponent : ∀ power ∈ d.exponent, power.2 ≠ [] ∧ ∀ c ∈ power.2, c.isDigit = true
  marked : d.fraction ≠ [] ∨ d.exponent.isSome = true

theorem Plain.isComplete {d : DecimalNumeral} (h : d.Plain) : d.isComplete = true := by
  have hwhole : d.whole.isEmpty = false := List.isEmpty_eq_false_iff.mpr h.whole.1
  rw [DecimalNumeral.isComplete, hwhole]
  cases hexponent : d.exponent with
  | none => rfl
  | some power =>
    have hpower := (h.exponent power hexponent).1
    simpa using hpower

end DecimalNumeral

namespace Binary64

variable {x : Binary64} {p : DecimalPoint} {digits : List Char}

theorem dropWhile_zeros (h : ∃ c rest, digits = c :: rest ∧ c ≠ '0') (zeros after : Nat) :
    (List.replicate zeros '0' ++ (digits ++ List.replicate after '0')).dropWhile (· == '0') =
      digits ++ List.replicate after '0' := by
  obtain ⟨c, rest, rfl, hc⟩ := h
  have hall : ∀ d ∈ List.replicate zeros '0', (d == '0') = true := by simp
  rw [List.dropWhile_append_of_pos hall]
  simp [hc]

/-- A numeral with the digits of a decimal in the reading interval, up to zeros at either end for
which its exponent makes up, denotes the double. -/
theorem ReadsPoint.toBinary64?_eq (h : x.ReadsPoint p) (hfinite : x.isFinite = true)
    (hzero : x.isZero = false) (hdigits : DigitsOf p.digits digits) {d : DecimalNumeral}
    (hplain : d.Plain) {before after : Nat}
    (hwritten : d.whole ++ d.fraction =
      List.replicate before '0' ++ (digits ++ List.replicate after '0'))
    (hscale : d.scale = p.exponent - after) :
    d.toBinary64? = some (ofSignMagnitude d.negative x.magnitudeBits) := by
  have hpoint := (readsPoint_zeros_iff x p.digits p.exponent after).mpr h
  have hlength : (digits ++ List.replicate after '0').length = digits.length + after := by simp
  have hlow : powerOfTen (digits.length + after) ≤ 10 * (p.digits * powerOfTen after) := by
    rw [powerOfTen_add, ← Nat.mul_assoc]
    exact Nat.mul_le_mul_right _ hdigits.low
  have hhigh : p.digits * powerOfTen after < powerOfTen (digits.length + after) := by
    rw [powerOfTen_add]
    exact Nat.mul_lt_mul_of_pos_right hdigits.high (powerOfTen_pos after)
  rw [DecimalNumeral.toBinary64?, if_pos hplain.isComplete]
  simp only [hwritten, dropWhile_zeros hdigits.head, natOfDigits_zeros, hdigits.value, hlength,
    hscale]
  exact congrArg some (hpoint.ofScientific_eq hfinite hzero hlow hhigh d.negative)

end Binary64

/-! ## Three notations -/

namespace DecimalNumeral

variable {n : Nat} {digits : List Char}

/-- Digits behind the point and some zeros. -/
def behindZeros (negative : Bool) (zeros : Nat) (digits : List Char) : DecimalNumeral :=
  ⟨negative, ['0'], List.replicate zeros '0' ++ digits, none⟩

/-- Digits with the point behind the first of them, as many as are given, or behind as many zeros as
they lack. -/
def aroundPoint (negative : Bool) (count : Nat) (digits : List Char) : DecimalNumeral :=
  ⟨negative, digits.take count ++ List.replicate (count - digits.length) '0',
    if (digits.drop count).isEmpty then ['0'] else digits.drop count, none⟩

/-- Digits with the point behind the first, if there are others, and an exponent. -/
def withExponent (negative : Bool) (order : Int) (digits : List Char) : DecimalNumeral :=
  ⟨negative, digits.take 1, digits.drop 1,
    some (decide (order < 0), Nat.toDigits 10 order.natAbs)⟩

theorem isDigit_replicate_zero (zeros : Nat) : ∀ c ∈ List.replicate zeros '0', c.isDigit = true := by
  intro c hc
  obtain rfl := List.eq_of_mem_replicate hc
  rfl

theorem plain_behindZeros (h : DigitsOf n digits) (negative : Bool) (zeros : Nat) :
    (behindZeros negative zeros digits).Plain where
  whole := ⟨List.cons_ne_nil _ _, List.forall_mem_singleton.mpr rfl⟩
  fraction := List.forall_mem_append.mpr ⟨isDigit_replicate_zero zeros, h.isDigit⟩
  exponent := by simp [behindZeros]
  marked := Or.inl (List.append_ne_nil_of_right_ne_nil _ h.ne_nil)

theorem written_behindZeros (negative : Bool) (zeros : Nat) (digits : List Char) :
    (behindZeros negative zeros digits).whole ++ (behindZeros negative zeros digits).fraction =
        List.replicate (zeros + 1) '0' ++ (digits ++ List.replicate 0 '0') ∧
      (behindZeros negative zeros digits).scale = -(zeros + digits.length : Nat) := by
  constructor
  · simp [behindZeros, List.replicate_succ]
  · simp [behindZeros, scale]

theorem fraction_aroundPoint (negative : Bool) (count : Nat) (digits : List Char) :
    (aroundPoint negative count digits).fraction ≠ [] := by
  simp only [aroundPoint]
  split
  · simp
  · rename_i hmore
    rwa [List.isEmpty_iff] at hmore

theorem plain_aroundPoint (h : DigitsOf n digits) (negative : Bool) (count : Nat) :
    (aroundPoint negative (count + 1) digits).Plain where
  whole := by
    obtain ⟨c, rest, hdigits, -⟩ := h.head
    refine ⟨?_, List.forall_mem_append.mpr ⟨fun d hd => ?_, isDigit_replicate_zero _⟩⟩
    · simp [aroundPoint, hdigits]
    · exact h.isDigit d (List.mem_of_mem_take hd)
  fraction := by
    simp only [aroundPoint]
    split
    · exact List.forall_mem_singleton.mpr rfl
    · exact fun d hd => h.isDigit d (List.mem_of_mem_drop hd)
  exponent := by simp [aroundPoint]
  marked := Or.inl (fraction_aroundPoint negative _ digits)

theorem written_aroundPoint (negative : Bool) (count : Nat) (digits : List Char) :
    ∃ after, (aroundPoint negative count digits).whole ++
          (aroundPoint negative count digits).fraction =
        List.replicate 0 '0' ++ (digits ++ List.replicate after '0') ∧
      (aroundPoint negative count digits).scale = (count : Int) - digits.length - after := by
  rcases Nat.lt_or_ge count digits.length with hwithin | hbeyond
  · have hmore : digits.drop count ≠ [] := by simpa using hwithin
    refine ⟨0, ?_, ?_⟩
    · simp [aroundPoint, Nat.sub_eq_zero_of_le (Nat.le_of_lt hwithin), hmore]
    · have hempty : (digits.drop count).isEmpty = false := by simpa using hmore
      simp only [aroundPoint, scale, hempty, Bool.false_eq_true, if_false, List.length_drop]
      omega
  · refine ⟨count - digits.length + 1, ?_, ?_⟩
    · simp [aroundPoint, List.drop_of_length_le hbeyond, List.take_of_length_le hbeyond,
        List.replicate_succ']
    · simp only [aroundPoint, scale, List.drop_of_length_le hbeyond, List.isEmpty_nil, if_true,
        List.length_singleton]
      omega

theorem plain_withExponent (h : DigitsOf n digits) (negative : Bool) (order : Int) :
    (withExponent negative order digits).Plain where
  whole := by
    obtain ⟨c, rest, hdigits, -⟩ := h.head
    refine ⟨?_, fun d hd => h.isDigit d (List.mem_of_mem_take hd)⟩
    simp [withExponent, hdigits]
  fraction := fun d hd => h.isDigit d (List.mem_of_mem_drop hd)
  exponent := by
    intro power hpower
    obtain rfl := Option.some.inj hpower
    exact ⟨Nat.toDigits_ne_nil, fun _ => Literal.isDigit_of_mem_toDigits⟩
  marked := Or.inr rfl

theorem written_withExponent (h : DigitsOf n digits) (negative : Bool) {order : Int}
    (horder : order.natAbs < 65536) :
    (withExponent negative order digits).whole ++ (withExponent negative order digits).fraction =
        List.replicate 0 '0' ++ (digits ++ List.replicate 0 '0') ∧
      (withExponent negative order digits).scale = order - (digits.length - 1 : Nat) := by
  obtain ⟨c, rest, hdigits, -⟩ := h.head
  constructor
  · simp [withExponent, hdigits]
  · have hread : exponentOfDigits (Nat.toDigits 10 order.natAbs) = order.natAbs := by
      rw [exponentOfDigits_eq, Literal.natOfDigits_toDigits]
      rwa [Literal.natOfDigits_toDigits]
    simp only [withExponent, scale, hread, List.length_drop, decide_eq_true_eq]
    split <;> omega

end DecimalNumeral

/-! ## Texts -/

namespace Binary64

variable {x : Binary64}

/-- The digits of the text of a double. -/
def shownDigits (x : Binary64) : List Char := Nat.toDigits 10 x.shortest.digits

/-- The order of magnitude of the first of them. -/
def shownOrder (x : Binary64) : Int := x.shownDigits.length + x.shortest.exponent - 1

/-- The text of a double without its sign is the numeral, and with the sign the numeral denotes the
double. -/
structure ShownAs (x : Binary64) (d : DecimalNumeral) : Prop where
  plain : d.Plain
  text : x.magnitudeText.toList = d.magnitudeChars
  value : d.toBinary64? = some (ofSignMagnitude d.negative x.magnitudeBits)

theorem shownAs_of_isZero (hzero : x.isZero = true) (negative : Bool) :
    x.ShownAs ⟨negative, ['0'], ['0'], none⟩ where
  plain := ⟨⟨by simp, List.forall_mem_singleton.mpr rfl⟩, List.forall_mem_singleton.mpr rfl,
    by simp, Or.inl (by simp)⟩
  text := by
    rw [magnitudeText, if_pos hzero]
    rfl
  value := by
    rw [isZero, beq_iff_eq] at hzero
    rw [hzero]
    rfl

theorem digitsOf_shownDigits (hzero : x.isZero = false) :
    DigitsOf x.shortest.digits x.shownDigits :=
  digitsOf_toDigits ((readsPoint_shortest hzero).digits_pos hzero)

theorem shownOrder_bounds (hfinite : x.isFinite = true) (hzero : x.isZero = false) :
    -325 < x.shownOrder ∧ x.shownOrder < 309 := by
  have hdigits := digitsOf_shownDigits hzero
  have hhigh : x.shortest.exponent + x.shownDigits.length < 310 :=
    (readsPoint_shortest hzero).order_lt hfinite hzero hdigits.low
  have hlow : -324 < x.shortest.exponent + x.shownDigits.length :=
    (readsPoint_shortest hzero).lt_order hzero hdigits.high
  rw [shownOrder]
  omega

section

variable (hfinite : x.isFinite = true) (hzero : x.isZero = false) (negative : Bool)
include hfinite hzero

/-- A plain numeral with the digits of the double, up to zeros for which its exponent makes up, is
what the double is shown as, if it is written like its text. -/
theorem shownAs_of_written {d : DecimalNumeral} (hplain : d.Plain)
    (htext : x.magnitudeText.toList = d.magnitudeChars) {before after : Nat}
    (hwritten : d.whole ++ d.fraction =
      List.replicate before '0' ++ (x.shownDigits ++ List.replicate after '0'))
    (hscale : d.scale = x.shortest.exponent - after) : x.ShownAs d where
  plain := hplain
  text := htext
  value := (readsPoint_shortest hzero).toBinary64?_eq hfinite hzero (digitsOf_shownDigits hzero)
    hplain hwritten hscale

/-- Small doubles are shown behind zeros. -/
theorem shownAs_behindZeros (hpositional : -4 ≤ x.shownOrder ∧ x.shownOrder < 16)
    (hnegative : x.shownOrder < 0) :
    x.ShownAs (.behindZeros negative (-x.shownOrder - 1).toNat x.shownDigits) := by
  have hdigits := digitsOf_shownDigits hzero
  obtain ⟨hwritten, hscale⟩ := DecimalNumeral.written_behindZeros negative
    (-x.shownOrder - 1).toNat x.shownDigits
  refine shownAs_of_written hfinite hzero (DecimalNumeral.plain_behindZeros hdigits _ _) ?_
    hwritten ?_
  · rw [magnitudeText, if_neg (by simp [hzero])]
    refine (congrArg String.toList ((if_pos hpositional).trans (if_pos hnegative))).trans ?_
    have hfraction := List.append_ne_nil_of_right_ne_nil
      (List.replicate (-x.shownOrder - 1).toNat '0') hdigits.ne_nil
    rw [DecimalNumeral.behindZeros, DecimalNumeral.magnitudeChars, DecimalNumeral.pointChars,
      if_neg hfraction, String.toList_append, String.toList_ofList]
    simp [DecimalNumeral.exponentChars, shownOrder, shownDigits]
  · rw [hscale]
    rw [shownOrder] at hnegative ⊢
    omega

/-- Doubles of a middling size are shown with the point among the digits, or behind them. -/
theorem shownAs_aroundPoint (hpositional : -4 ≤ x.shownOrder ∧ x.shownOrder < 16)
    (hnegative : ¬ x.shownOrder < 0) :
    x.ShownAs (.aroundPoint negative (x.shownOrder.toNat + 1) x.shownDigits) := by
  have hdigits := digitsOf_shownDigits hzero
  obtain ⟨after, hwritten, hscale⟩ := DecimalNumeral.written_aroundPoint negative
    (x.shownOrder.toNat + 1) x.shownDigits
  refine shownAs_of_written hfinite hzero (DecimalNumeral.plain_aroundPoint hdigits _ _) ?_
    hwritten ?_
  · rw [magnitudeText, if_neg (by simp [hzero])]
    refine (congrArg String.toList ((if_pos hpositional).trans (if_neg hnegative))).trans ?_
    rw [String.toList_ofList, DecimalNumeral.magnitudeChars, DecimalNumeral.pointChars,
      if_neg (DecimalNumeral.fraction_aroundPoint negative _ _)]
    simp [DecimalNumeral.exponentChars, DecimalNumeral.aroundPoint, shownOrder, shownDigits]
  · rw [hscale]
    rw [shownOrder] at hnegative ⊢
    omega

omit hfinite in
theorem toList_magnitudeText_withExponent
    (hpositional : ¬ (-4 ≤ x.shownOrder ∧ x.shownOrder < 16)) :
    x.magnitudeText.toList =
      (DecimalNumeral.withExponent negative x.shownOrder x.shownDigits).magnitudeChars := by
  obtain ⟨c, rest, hcons, -⟩ := (digitsOf_shownDigits hzero).head
  have hshown : Nat.toDigits 10 x.shortest.digits = c :: rest := hcons
  have horder : x.shownOrder = ((c :: rest).length : Int) + x.shortest.exponent - 1 := by
    rw [shownOrder, hcons]
  have horderText : (toString x.shownOrder).toList =
      signChars (decide (x.shownOrder < 0)) ++ Nat.toDigits 10 x.shownOrder.natAbs :=
    Literal.toList_toString_int _
  have hmagnitude : (DecimalNumeral.withExponent negative x.shownOrder (c :: rest)).magnitudeChars =
      c :: (DecimalNumeral.pointChars rest ++ 'e' :: (toString x.shownOrder).toList) := by
    rw [horderText]
    rfl
  rw [magnitudeText, if_neg (by simp [hzero])]
  refine (congrArg String.toList (if_neg hpositional)).trans ?_
  refine String.toList_ofList.trans ?_
  rw [hcons, hmagnitude, hshown, horder]
  cases rest with
  | nil => rfl
  | cons second more => rfl

/-- All other doubles are shown with an exponent. -/
theorem shownAs_withExponent (hpositional : ¬ (-4 ≤ x.shownOrder ∧ x.shownOrder < 16)) :
    x.ShownAs (.withExponent negative x.shownOrder x.shownDigits) := by
  have hdigits := digitsOf_shownDigits hzero
  have horder : x.shownOrder.natAbs < 65536 := by
    have hbounds := shownOrder_bounds hfinite hzero
    omega
  obtain ⟨hwritten, hscale⟩ := DecimalNumeral.written_withExponent hdigits negative horder
  refine shownAs_of_written hfinite hzero (DecimalNumeral.plain_withExponent hdigits _ _)
    (toList_magnitudeText_withExponent hzero negative hpositional) hwritten ?_
  obtain ⟨c, rest, hcons, -⟩ := hdigits.head
  rw [hscale, shownOrder, hcons, List.length_cons]
  omega

omit hzero in
/-- Every finite double is shown as a numeral of either sign. -/
theorem exists_shownAs : ∃ d : DecimalNumeral, d.negative = negative ∧ x.ShownAs d := by
  by_cases hzero : x.isZero = true
  · exact ⟨_, rfl, shownAs_of_isZero hzero negative⟩
  rw [Bool.not_eq_true] at hzero
  by_cases hpositional : -4 ≤ x.shownOrder ∧ x.shownOrder < 16
  · by_cases hnegative : x.shownOrder < 0
    · exact ⟨_, rfl, shownAs_behindZeros hfinite hzero negative hpositional hnegative⟩
    · exact ⟨_, rfl, shownAs_aroundPoint hfinite hzero negative hpositional hnegative⟩
  · exact ⟨_, rfl, shownAs_withExponent hfinite hzero negative hpositional⟩

end

theorem ofSignMagnitude_fields (x : Binary64) :
    ofSignMagnitude x.isNegative x.magnitudeBits = x := by
  obtain ⟨hsign, hmagnitude⟩ := @fields_ofSignMagnitude x.isNegative _
    (Nat.mod_lt x.bits.toNat (one_shiftLeft_pos 63))
  exact eq_of_fields hsign hmagnitude

theorem toList_text (hnumber : x.isNaN = false) :
    x.text.toList =
      signChars x.isNegative ++ (if x.isInfinite then "inf" else x.magnitudeText).toList := by
  rw [text, hnumber]
  cases x.isNegative with
  | true => exact String.toList_append
  | false => rfl

/-- The text of a finite double is a numeral that denotes the double. -/
theorem exists_numeral_text (hfinite : x.isFinite = true) :
    ∃ d : DecimalNumeral, d.Plain ∧ x.text.toList = d.chars ∧ d.toBinary64? = some x := by
  obtain ⟨d, hsign, hplain, htext, hvalue⟩ := exists_shownAs hfinite x.isNegative
  refine ⟨d, hplain, ?_, ?_⟩
  · have hinfinite : x.isInfinite = false := by
      rw [isFinite, decide_eq_true_eq] at hfinite
      exact beq_false_of_ne (Nat.ne_of_lt hfinite)
    rw [toList_text (isNaN_eq_false_of_isFinite hfinite), hinfinite]
    exact hsign ▸ congrArg (signChars d.negative ++ ·) htext
  · rw [hvalue, hsign, ofSignMagnitude_fields]

end Binary64

end ClauseMatch
