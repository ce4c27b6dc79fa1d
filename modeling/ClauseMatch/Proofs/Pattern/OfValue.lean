import ClauseMatch.Proofs.Pattern.Arity
import ClauseMatch.Proofs.Value.Embedding

/-!
# Matching against a value

There are three patterns that ask for a given value: its own pattern, its literal, and the one that
binds an equal value. The value's own pattern matches the values in which it embeds and binds
nothing; the literal matches fewer, since it also wants the fields of objects to be as many and the
numbers inside to be of the same type, and the one that binds wants this of a number as well.
-/

namespace ClauseMatch

open Value

namespace Pattern

variable {satisfies : Regex → String → Bool}

/-! ## The pattern of a value binds nothing -/

theorem itemArity_eq_zero {patterns : List Pattern} (h : ∀ p ∈ patterns, p.arity = 0) :
    itemArity patterns = 0 := by
  induction patterns with
  | nil => rfl
  | cons p ps ih =>
    rw [itemArity, h p List.mem_cons_self, ih fun q hq => h q (List.mem_cons_of_mem p hq)]

theorem fieldArity_eq_zero {patterns : List (Atom × Pattern)}
    (h : ∀ field ∈ patterns, field.2.arity = 0) : fieldArity patterns = 0 := by
  induction patterns with
  | nil => rfl
  | cons field ps ih =>
    obtain ⟨key, p⟩ := field
    have hp : p.arity = 0 := h (key, p) List.mem_cons_self
    rw [fieldArity, hp, ih fun q hq => h q (List.mem_cons_of_mem _ hq)]

theorem arity_ofValue (v : Value) : (ofValue v).arity = 0 := by
  induction v with
  | list items ih =>
    rw [ofValue_list, arity]
    exact itemArity_eq_zero (List.forall_mem_map.mpr ih)
  | tuple items ih =>
    rw [ofValue_tuple, arity]
    exact itemArity_eq_zero (List.forall_mem_map.mpr ih)
  | object tag fields ih =>
    rw [ofValue_object, arity]
    exact fieldArity_eq_zero (List.forall_mem_map.mpr ih)
  | nil | bool | int | float | atom | str | bitstring => rfl

theorem runWith_ofValue_bindings (v w : Value) (out : Bindings) :
    ((ofValue v).runWith satisfies w out).bindings = out := by
  obtain ⟨verdict, added, hrun, hlength⟩ := exists_run_eq_append satisfies (ofValue v) w
  have hnil : added = [] := by
    rw [arity_ofValue] at hlength
    cases verdict <;> simpa using hlength
  rw [hrun, hnil]
  simp

/-! ## What the pattern of a value matches -/

theorem itemsMatch_iff_forall₂ {patterns : List Pattern} {items : List Value} :
    ItemsMatch satisfies patterns items ↔ List.Forall₂ (Matches satisfies) patterns items := by
  induction patterns generalizing items with
  | nil => cases items <;> simp [ItemsMatch]
  | cons p ps ih => cases items <;> simp [ItemsMatch, ih]

theorem itemsMatch_map_ofValue_iff {as bs : List Value}
    (ih : ∀ a ∈ as, ∀ b, Matches satisfies (ofValue a) b ↔ Embeds a b) :
    ItemsMatch satisfies (as.map ofValue) bs ↔ List.Forall₂ Embeds as bs := by
  rw [itemsMatch_iff_forall₂, List.forall₂_map_left_iff]
  constructor
  · exact forall₂_imp_of_mem fun a ha b _ => (ih a ha b).mp
  · exact forall₂_imp_of_mem fun a ha b _ => (ih a ha b).mpr

theorem matches_literal_leaf_iff {v w : Value} (hv : v.isLeaf = true) :
    Matches satisfies (.literal v) w ↔ Embeds v w := by
  rw [Matches, literalEquals_iff]
  exact ⟨.leaf hv, fun h => h.of_leaf hv⟩

/-- The pattern of a value matches the values in which it embeds. -/
theorem matches_ofValue_iff {v w : Value} :
    Matches satisfies (ofValue v) w ↔ Embeds v w := by
  induction v generalizing w with
  | list as ih =>
    rw [ofValue_list, Matches]
    constructor
    · rintro ⟨bs, rfl, hitems⟩
      exact .list ((itemsMatch_map_ofValue_iff fun a ha _ => ih a ha).mp hitems)
    · intro h
      obtain ⟨bs, rfl, hitems⟩ := h.of_list
      exact ⟨bs, rfl, (itemsMatch_map_ofValue_iff fun a ha _ => ih a ha).mpr hitems⟩
  | tuple as ih =>
    rw [ofValue_tuple, Matches]
    constructor
    · rintro ⟨bs, rfl, hitems⟩
      exact .tuple ((itemsMatch_map_ofValue_iff fun a ha _ => ih a ha).mp hitems)
    · intro h
      obtain ⟨bs, rfl, hitems⟩ := h.of_tuple
      exact ⟨bs, rfl, (itemsMatch_map_ofValue_iff fun a ha _ => ih a ha).mpr hitems⟩
  | object tag as ih =>
    have hfields : ∀ bs, FieldsMatch satisfies (as.map fun field => (field.1, ofValue field.2)) bs ↔
        ∀ field ∈ as, ∃ b, getField? bs field.1 = some b ∧ Embeds field.2 b := by
      intro bs
      rw [fieldsMatch_iff, List.forall_mem_map]
      refine forall₂_congr fun field hfield => exists_congr fun b => and_congr_right fun _ => ?_
      exact ih field hfield
    rw [ofValue_object, Matches]
    constructor
    · rintro ⟨bs, rfl, hmatch⟩
      exact .ofFields ((hfields bs).mp hmatch)
    · intro h
      obtain ⟨bs, rfl, hembeds⟩ := h.of_object
      exact ⟨bs, rfl, (hfields bs).mpr hembeds⟩
  | atom a =>
    rw [ofValue, Matches]
    constructor
    · rintro rfl
      exact embeds_of_deepEqual (equals_refl (.atom a))
    · intro h
      cases h.of_leaf rfl with
      | equal hequal =>
        cases hequal.equalParts
        rfl
  | nil | bool | int | float | str | bitstring => exact matches_literal_leaf_iff rfl

/-! ## The three patterns -/

/-- Three patterns that ask for a value form a chain: the one that binds matches less than the
literal, and the literal less than the value's own pattern. The last binds nothing, matches the
value itself, and matches the values in which it embeds. On values without floats this is a
preorder, and values that match each other's pattern are equal. -/
theorem patterns_of_a_value_form_a_chain (satisfies : Regex → String → Bool) {u v w : Value}
    (hv : Built v) (hw : Built w) :
    ((Pattern.bound v).isMatchWith satisfies w → (Pattern.literal v).isMatchWith satisfies w) ∧
    ((Pattern.literal v).isMatchWith satisfies w → (ofValue v).isMatchWith satisfies w) ∧
    (∀ out, ((ofValue v).runWith satisfies w out).bindings = out) ∧
    (ofValue v).isMatchWith satisfies v ∧
    ((ofValue v).isMatchWith satisfies w ↔ Embeds v w) ∧
    (FloatFree u → FloatFree v → FloatFree w →
      ((ofValue u).isMatchWith satisfies v → (ofValue v).isMatchWith satisfies w →
        (ofValue u).isMatchWith satisfies w) ∧
      ((ofValue v).isMatchWith satisfies w ∧ (ofValue w).isMatchWith satisfies v ↔
        v.equals w)) := by
  simp only [isMatchWith_iff, matches_ofValue_iff]
  refine ⟨?_, ?_, runWith_ofValue_bindings v w, embeds_of_deepEqual (equals_refl hv), trivial, ?_⟩
  · intro hbound
    have hequal : DeepEqual v w := equals_symm hw hbound
    exact literalEquals_iff.mpr (.equal hequal)
  · intro hliteral
    exact embeds_of_sameScalar (literalEquals_iff.mp hliteral)
  · intro hu hv' hw'
    exact ⟨embeds_trans hu hv' hw', embeds_antisymm_iff hv hw hv' hw'⟩

/-- Records that grow from one to the next, in another order: the pattern of the first matches the
last by way of the second, and the last, whose pattern does not match the second, is not equal to
it. -/
theorem patterns_of_a_value_form_a_chain_records :
    Built (.map [(⟨"x"⟩, .int 1), (⟨"y"⟩, .list [])]) ∧
    Built (.map [(⟨"z"⟩, .nil), (⟨"y"⟩, .list []), (⟨"x"⟩, .int 1)]) ∧
    FloatFree (.map [(⟨"x"⟩, .int 1)]) ∧
    FloatFree (.map [(⟨"x"⟩, .int 1), (⟨"y"⟩, .list [])]) ∧
    FloatFree (.map [(⟨"z"⟩, .nil), (⟨"y"⟩, .list []), (⟨"x"⟩, .int 1)]) ∧
    Embeds (.map [(⟨"x"⟩, .int 1), (⟨"y"⟩, .list [])])
      (.map [(⟨"z"⟩, .nil), (⟨"y"⟩, .list []), (⟨"x"⟩, .int 1)]) ∧
    (ofValue (.map [(⟨"x"⟩, .int 1)])).isMatchWith Regex.isMatch
      (.map [(⟨"z"⟩, .nil), (⟨"y"⟩, .list []), (⟨"x"⟩, .int 1)]) ∧
    ¬ (Value.map [(⟨"x"⟩, .int 1), (⟨"y"⟩, .list [])]).equals
      (.map [(⟨"z"⟩, .nil), (⟨"y"⟩, .list []), (⟨"x"⟩, .int 1)]) := by
  have hv : Built (.map [(⟨"x"⟩, .int 1), (⟨"y"⟩, .list [])]) := by
    refine .ofFields ?_
    simp only [List.forall_mem_cons]
    exact ⟨.int 1, .list (by simp), by simp⟩
  have hw : Built (.map [(⟨"z"⟩, .nil), (⟨"y"⟩, .list []), (⟨"x"⟩, .int 1)]) := by
    refine .ofFields ?_
    simp only [List.forall_mem_cons]
    exact ⟨.nil, .list (by simp), .int 1, by simp⟩
  have hnil : FloatFree .nil := .leaf rfl rfl
  have hone : FloatFree (.int 1) := .leaf rfl rfl
  have hempty : FloatFree (.list []) := .list rfl (by simp)
  have hu' : FloatFree (.map [(⟨"x"⟩, .int 1)]) := by
    refine .ofFields ?_
    simp only [List.forall_mem_cons]
    exact ⟨hone, by simp⟩
  have hv' : FloatFree (.map [(⟨"x"⟩, .int 1), (⟨"y"⟩, .list [])]) := by
    refine .ofFields ?_
    simp only [List.forall_mem_cons]
    exact ⟨hone, hempty, by simp⟩
  have hw' : FloatFree (.map [(⟨"z"⟩, .nil), (⟨"y"⟩, .list []), (⟨"x"⟩, .int 1)]) := by
    refine .ofFields ?_
    simp only [List.forall_mem_cons]
    exact ⟨hnil, hempty, hone, by simp⟩
  obtain ⟨-, -, -, -, hembeds, horder⟩ := patterns_of_a_value_form_a_chain Regex.isMatch hv hw
  obtain ⟨htrans, hequal⟩ := horder hu' hv' hw'
  have huv : (ofValue (.map [(⟨"x"⟩, .int 1)])).isMatchWith Regex.isMatch
      (.map [(⟨"x"⟩, .int 1), (⟨"y"⟩, .list [])]) = true := by decide
  have hvw : (ofValue (.map [(⟨"x"⟩, .int 1), (⟨"y"⟩, .list [])])).isMatchWith Regex.isMatch
      (.map [(⟨"z"⟩, .nil), (⟨"y"⟩, .list []), (⟨"x"⟩, .int 1)]) = true := by decide
  have hwv : ¬ (ofValue (.map [(⟨"z"⟩, .nil), (⟨"y"⟩, .list []), (⟨"x"⟩, .int 1)])).isMatchWith
      Regex.isMatch (.map [(⟨"x"⟩, .int 1), (⟨"y"⟩, .list [])]) = true := by decide
  exact ⟨hv, hw, hu', hv', hw', hembeds.mp hvw, htrans huv hvw, fun h => hwv (hequal.mpr h).2⟩

end Pattern

end ClauseMatch
