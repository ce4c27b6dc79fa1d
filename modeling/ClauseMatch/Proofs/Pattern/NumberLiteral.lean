import ClauseMatch.Proofs.Numeric.NearestDouble
import ClauseMatch.Proofs.Pattern.Agreement
import ClauseMatch.Proofs.Value.Embedding

/-!
# Literals and numbers of the other type

A literal number matches the numbers of its own type that are equal to it, and of the other type
those that are equal once the integer has been rounded to a double. For the integers that are the
values of doubles this is equality of exact values. Any other integer is matched by the double next
to it, and from there by the integer that this double is the value of: only such a detour from an
integer to another one keeps literals from being transitive.
-/

namespace ClauseMatch

open Value

variable {satisfies : Regex → String → Bool}

/-- A literal of the first value matches the second one. -/
abbrev LiteralMatches (satisfies : Regex → String → Bool) (v w : Value) : Prop :=
  (Pattern.literal v).isMatchWith satisfies w = true

theorem literalMatches_iff {v w : Value} : LiteralMatches satisfies v w ↔ SameScalar v w :=
  Pattern.isMatchWith_iff.trans literalEquals_iff

theorem natAbs_toInt_le (n : Int64) : n.toInt.natAbs ≤ 1 <<< 63 := by
  have hlow := n.le_toInt
  have hhigh := n.toInt_lt
  omega

/-! ## Integers and doubles -/

theorem literalMatches_int_float_iff {n : Int64} {x : Binary64} :
    LiteralMatches satisfies (.int n) (.float x) ↔
      x.isFinite = true ∧ x.units = (Binary64.ofInt n.toInt).units := by
  rw [LiteralMatches, Pattern.isMatchWith_iff, Pattern.Matches, literalEquals,
    Binary64.ofInt_numericEq_iff (natAbs_toInt_le n)]

theorem literalMatches_float_int_iff {n : Int64} {x : Binary64} :
    LiteralMatches satisfies (.float x) (.int n) ↔
      LiteralMatches satisfies (.int n) (.float x) := by
  rw [LiteralMatches, LiteralMatches, Pattern.isMatchWith_iff, Pattern.isMatchWith_iff,
    Pattern.Matches, Pattern.Matches, literalEquals, literalEquals]

/-- The comparison of an integer is exact when the integer is the value of a double. -/
theorem literalMatches_exact_iff {n : Int64} :
    (∀ x, LiteralMatches satisfies (.int n) (.float x) ↔ x.HasValue n.toInt) ↔
      ∃ x : Binary64, x.HasValue n.toInt := by
  have hfinite := (Binary64.nearestTo_ofInt (natAbs_toInt_le n)).isFinite
  constructor
  · intro h
    exact ⟨_, (h (Binary64.ofInt n.toInt)).mp (literalMatches_int_float_iff.mpr ⟨hfinite, rfl⟩)⟩
  · rintro ⟨y, hy⟩ x
    rw [literalMatches_int_float_iff, (hy.ofInt (natAbs_toInt_le n)).units_eq]
    exact ⟨fun h => ⟨h.1, h.2⟩, fun h => ⟨h.1, h.2⟩⟩

/-! ## Detours -/

/-- Integers whose magnitude takes at most 53 bits, and the next one, are values of doubles. -/
theorem hasValue_ofInt_of_le {n : Int64} (h : n.toInt.natAbs ≤ 1 <<< 53) :
    (Binary64.ofInt n.toInt).HasValue n.toInt := by
  rcases Nat.lt_or_eq_of_le h with hlt | heq
  · exact Binary64.hasValue_ofInt 0 (natAbs_toInt_le n) hlt rfl
  · exact @Binary64.hasValue_ofInt _ 1 53 (natAbs_toInt_le n) (by decide) heq

/-- The integers that a double takes for each other are not both small. -/
theorem large_of_detour {m n : Int64} {x : Binary64}
    (hm : LiteralMatches satisfies (.int m) (.float x))
    (hn : LiteralMatches satisfies (.float x) (.int n)) (hne : m ≠ n) :
    1 <<< 53 < m.toInt.natAbs ∨ 1 <<< 53 < n.toInt.natAbs := by
  obtain ⟨-, hmunits⟩ := literalMatches_int_float_iff.mp hm
  obtain ⟨-, hnunits⟩ := literalMatches_int_float_iff.mp (literalMatches_float_int_iff.mp hn)
  rw [← Nat.not_le, ← Nat.not_le, ← Decidable.not_and_iff_not_or_not]
  rintro ⟨hmle, hnle⟩
  have hunits : Binary64.integerUnits m.toInt = Binary64.integerUnits n.toInt := by
    rw [← (hasValue_ofInt_of_le hmle).units_eq, ← (hasValue_ofInt_of_le hnle).units_eq,
      ← hmunits, hnunits]
  exact hne (Int64.toInt_inj.mp (Binary64.integerUnits_inj.mp hunits))

/-- A way from an integer to another one over a double; one of the integers is large. -/
inductive Detour : Value → Value → Value → Prop where
  | intro {m n : Int64} {x : Binary64} :
      m ≠ n → 1 <<< 53 < m.toInt.natAbs ∨ 1 <<< 53 < n.toInt.natAbs →
      Detour (.int m) (.float x) (.int n)

/-- Literals are transitive, but for the detours. -/
theorem literalMatches_trans {u v w : Value} (huv : LiteralMatches satisfies u v)
    (hvw : LiteralMatches satisfies v w) : LiteralMatches satisfies u w ∨ Detour u v w := by
  rw [literalMatches_iff] at huv hvw
  cases huv with
  | equal huv =>
    left
    rw [literalMatches_iff]
    cases hvw with
    | equal hvw => exact .equal (equals_trans huv hvw)
    | intFloat hvw =>
      cases huv.equalParts
      exact .intFloat hvw
    | floatInt hvw =>
      cases huv.equalParts with
      | float hsame => exact .floatInt ((Binary64.numericEq_congr hsame).trans hvw)
  | @intFloat m x huv =>
    cases hvw with
    | equal hvw =>
      left
      rw [literalMatches_iff]
      cases hvw.equalParts with
      | float hsame => exact .intFloat ((Binary64.numericEq_congr hsame).symm.trans huv)
    | @floatInt _ n hvw =>
      by_cases hmn : m = n
      · left
        rw [hmn, literalMatches_iff]
        exact .equal (equals_refl (.int n))
      · right
        have hm : LiteralMatches satisfies (.int m) (.float x) :=
          literalMatches_iff.mpr (.intFloat huv)
        have hn : LiteralMatches satisfies (.float x) (.int n) :=
          literalMatches_iff.mpr (.floatInt hvw)
        exact .intro hmn (large_of_detour hm hn hmn)
  | @floatInt x n huv =>
    left
    rw [literalMatches_iff]
    cases hvw with
    | equal hvw =>
      cases hvw.equalParts
      exact .floatInt huv
    | intFloat hvw =>
      have hsame {y : Binary64} (h : (Binary64.ofInt n.toInt).numericEq y = true) :
          (Binary64.ofInt n.toInt).sameNumber y = true := by
        rw [Binary64.sameNumber, h, Bool.true_or]
      exact .equal (Binary64.sameNumber_trans (Binary64.sameNumber_symm (hsame huv)) (hsame hvw))

theorem not_literalMatches_of_detour {u v w : Value} (h : Detour u v w) :
    ¬ LiteralMatches satisfies u w := by
  obtain ⟨hne, -⟩ := h
  intro hmatches
  cases literalMatches_iff.mp hmatches with
  | equal hequal =>
    cases hequal.equalParts
    exact hne rfl

/-- A literal compares an integer with a double, in either direction, by the double nearest to the
integer. This is equality of exact values for the integers that have at most 53 bits before the
zeros at their end, and for no other one. Transitivity is lost on detours and on nothing else. -/
theorem literals_compare_rounded_integers (satisfies : Regex → String → Bool) (n : Int64)
    (u v w : Value) :
    (∀ x : Binary64,
      (LiteralMatches satisfies (.int n) (.float x) ↔
        x.isFinite = true ∧ x.units = (Binary64.ofInt n.toInt).units) ∧
      (LiteralMatches satisfies (.float x) (.int n) ↔
        LiteralMatches satisfies (.int n) (.float x))) ∧
    Binary64.NearestTo n.toInt (Binary64.ofInt n.toInt) ∧
    ((∀ x, LiteralMatches satisfies (.int n) (.float x) ↔ x.HasValue n.toInt) ↔
      ∃ significand zeros,
        significand < 1 <<< 53 ∧ n.toInt.natAbs = significand <<< zeros) ∧
    (LiteralMatches satisfies u v → LiteralMatches satisfies v w →
      (LiteralMatches satisfies u w ↔ ¬ Detour u v w)) := by
  refine ⟨fun x => ⟨?_, ?_⟩, ?_, ?_, ?_⟩
  · exact literalMatches_int_float_iff
  · exact literalMatches_float_int_iff
  · exact Binary64.nearestTo_ofInt (natAbs_toInt_le n)
  · exact literalMatches_exact_iff.trans (Binary64.exists_hasValue_iff (natAbs_toInt_le n))
  · intro huv hvw
    refine ⟨fun h hdetour => not_literalMatches_of_detour hdetour h, fun hdetour => ?_⟩
    exact (literalMatches_trans huv hvw).resolve_right hdetour

theorem literals_compare_rounded_integers_beyond_53_bits :
    LiteralMatches Regex.isMatch (.float ⟨0x4340000000000001⟩) (.int 9007199254740994) ∧
      LiteralMatches Regex.isMatch (.int 9007199254740994) (.float ⟨0x4340000000000001⟩) ∧
      LiteralMatches Regex.isMatch (.float ⟨0x4340000000000001⟩) (.float ⟨0x4340000000000001⟩) := by
  obtain ⟨hint, -, -, htrans⟩ := literals_compare_rounded_integers Regex.isMatch 9007199254740994
    (.float ⟨0x4340000000000001⟩) (.int 9007199254740994) (.float ⟨0x4340000000000001⟩)
  have hmatches : LiteralMatches Regex.isMatch (.int 9007199254740994)
      (.float ⟨0x4340000000000001⟩) := (hint _).1.mpr (by decide +kernel)
  have hback := (hint _).2.mpr hmatches
  refine ⟨hback, hmatches, (htrans hback hmatches).mpr ?_⟩
  rintro ⟨⟩

/-- The first integer that is no double is matched by the double before it, and over this double
leads to the integer before it. -/
theorem not_exact_and_not_transitive :
    LiteralMatches Regex.isMatch (.int 9007199254740993) (.float ⟨0x4340000000000000⟩) ∧
      ¬ Binary64.HasValue ⟨0x4340000000000000⟩ (9007199254740993 : Int64).toInt ∧
      LiteralMatches Regex.isMatch (.float ⟨0x4340000000000000⟩) (.int 9007199254740992) ∧
      ¬ LiteralMatches Regex.isMatch (.int 9007199254740993) (.int 9007199254740992) := by
  refine ⟨?_, fun h => ?_, ?_, fun h => ?_⟩
  · exact literalMatches_iff.mpr (.intFloat (by decide +kernel))
  · exact absurd h.units_eq (by decide +kernel)
  · exact literalMatches_iff.mpr (.floatInt (by decide +kernel))
  · cases literalMatches_iff.mp h with
    | equal hequal => exact absurd hequal (by decide)

end ClauseMatch
