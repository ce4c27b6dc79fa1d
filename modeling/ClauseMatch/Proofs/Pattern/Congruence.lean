import ClauseMatch.Proofs.Pattern.Agreement
import ClauseMatch.Proofs.Value.Equality

/-!
# Matching respects deep equality

Values that are deeply equal match the same patterns, and whatever a pattern binds in one of them,
or leaves behind when it fails, is deeply equal to what it binds or leaves in the other. The
induction is on the pattern; symmetry of equality is what carries a match from one value back to
the other. The fields of equal objects may stand in different orders, but every key leads to equal
values.
-/

namespace ClauseMatch

namespace Value

/-- What is found under a key in the fields of two objects: nothing in either, or equal values. -/
inductive FoundAlike (as bs : List (Atom × Value)) (key : Atom) : Prop where
  | nothing : getField? as key = none → getField? bs key = none → FoundAlike as bs key
  | values {a b : Value} : getField? as key = some a → getField? bs key = some b →
      Built a → DeepEqual a b → FoundAlike as bs key

theorem foundAlike_of_deepEqual {tag : Atom} {as bs : List (Atom × Value)}
    (hv : Built (.object tag as)) (h : DeepEqual (.object tag as) (.object tag bs)) (key : Atom) :
    FoundAlike as bs key := by
  obtain ⟨-, hbuilt⟩ := hv.of_object
  cases h.equalParts with
  | object _ hwithin =>
    cases has : getField? as key with
    | some a =>
      have ha : (key, a) ∈ as := mem_of_getField?_eq_some has
      obtain ⟨b, hbs, hequal⟩ := hwithin (key, a) ha
      exact .values has hbs (hbuilt (key, a) ha) hequal
    | none =>
      -- A value under this key on the right would, by symmetry, have one on the left.
      cases hbs : getField? bs key with
      | none => exact .nothing has hbs
      | some b =>
        cases (equals_symm hv h).equalParts with
        | object _ hwithin' =>
          obtain ⟨a, ha, -⟩ := hwithin' (key, b) (mem_of_getField?_eq_some hbs)
          simp [has] at ha

theorem FoundAlike.hasField_eq {as bs : List (Atom × Value)} {key : Atom}
    (h : FoundAlike as bs key) : hasField as key = hasField bs key := by
  cases h with
  | nothing has hbs => rw [hasField, hasField, has, hbs]
  | values has hbs => rw [hasField, hasField, has, hbs]; rfl

theorem typeTag_eq_of_deepEqual {v w : Value} (h : DeepEqual v w) : v.typeTag = w.typeTag := by
  cases h.equalParts <;> rfl

/-- A literal is equal to both of two equal values or to neither. -/
theorem literalEquals_congr {v w : Value} (hv : Built v) (h : DeepEqual v w) (expected : Value) :
    literalEquals expected v = literalEquals expected w := by
  have hequals : expected.equals v = expected.equals w := equals_congr_right hv h expected
  cases h.equalParts with
  | @float x y hsame =>
    cases expected with
    | int n => exact Binary64.numericEq_congr hsame
    | _ => exact hequals
  | int n => rfl
  | _ => cases expected <;> exact hequals

end Value

namespace Pattern

open Value

variable {satisfies : Regex → String → Bool}

/-- Two matches with the same verdict, which bind pairwise equal values if they succeed and leave
pairwise equal values if they fail. -/
structure MatchesAlike (matched matched' : Prop) (bound bound' left left' : List Value) :
    Prop where
  matched_iff : matched ↔ matched'
  bindings : matched → List.Forall₂ DeepEqual bound bound'
  leftover : List.Forall₂ DeepEqual left left'

/-- A match that goes on with a second one if it succeeds. -/
theorem MatchesAlike.andThen {p p' q q' : Prop} [Decidable p] [Decidable p']
    {bs bs' cs cs' left left' rest rest' : List Value} (h : MatchesAlike p p' bs bs' left left')
    (hrest : MatchesAlike q q' cs cs' rest rest') :
    MatchesAlike (p ∧ q) (p' ∧ q') (bs ++ cs) (bs' ++ cs') (if p then bs ++ rest else left)
      (if p' then bs' ++ rest' else left') := by
  refine ⟨and_congr h.matched_iff hrest.matched_iff, ?_, ?_⟩
  · rintro ⟨hp, hq⟩
    exact List.rel_append (h.bindings hp) (hrest.bindings hq)
  · by_cases hp : p
    · rw [if_pos hp, if_pos (h.matched_iff.mp hp)]
      exact List.rel_append (h.bindings hp) hrest.leftover
    · rw [if_neg hp, if_neg (h.matched_iff.not.mp hp)]
      exact h.leftover

/-- A pattern does the same with any two equal values. -/
def RespectsEquality (satisfies : Regex → String → Bool) (p : Pattern) : Prop :=
  ∀ v w, Built v → DeepEqual v w →
    MatchesAlike (Matches satisfies p v) (Matches satisfies p w) (p.bindings v) (p.bindings w)
      (p.leftover satisfies v) (p.leftover satisfies w)

/-! ## Items and fields -/

theorem matchesAlike_items {patterns : List Pattern} {as bs : List Value}
    (ih : ∀ p ∈ patterns, RespectsEquality satisfies p) (has : ∀ a ∈ as, Built a)
    (h : List.Forall₂ DeepEqual as bs) :
    MatchesAlike (ItemsMatch satisfies patterns as) (ItemsMatch satisfies patterns bs)
      (itemBindings patterns as) (itemBindings patterns bs)
      (itemLeftover satisfies patterns as) (itemLeftover satisfies patterns bs) := by
  classical
  induction patterns generalizing as bs with
  | nil => cases h <;> exact ⟨Iff.rfl, fun _ => .nil, .nil⟩
  | cons p ps ih' =>
    cases h with
    | nil => exact ⟨Iff.rfl, fun _ => .nil, .nil⟩
    | @cons a b as bs hab hrest =>
      have hhead := ih p List.mem_cons_self a b (has a List.mem_cons_self) hab
      have htail := ih' (fun q hq => ih q (List.mem_cons_of_mem p hq))
        (fun c hc => has c (List.mem_cons_of_mem a hc)) hrest
      exact hhead.andThen htail

theorem matchesAlike_fields {patterns : List (Atom × Pattern)} {as bs : List (Atom × Value)}
    (ih : ∀ field ∈ patterns, RespectsEquality satisfies field.2)
    (h : ∀ key, FoundAlike as bs key) :
    MatchesAlike (FieldsMatch satisfies patterns as) (FieldsMatch satisfies patterns bs)
      (fieldBindings patterns as) (fieldBindings patterns bs)
      (fieldLeftover satisfies patterns as) (fieldLeftover satisfies patterns bs) := by
  classical
  induction patterns with
  | nil => exact ⟨Iff.rfl, fun _ => .nil, .nil⟩
  | cons field ps ih' =>
    obtain ⟨key, p⟩ := field
    have htail := ih' fun q hq => ih q (List.mem_cons_of_mem _ hq)
    cases h key with
    | nothing has hbs =>
      exact ⟨by simp [FieldsMatch, has, hbs], by simp [FieldsMatch, has],
        by simp [fieldLeftover, has, hbs]⟩
    | @values a b has hbs ha hab =>
      have hhead := ih (key, p) List.mem_cons_self a b ha hab
      simp only [FieldsMatch, fieldBindings, fieldLeftover, has, hbs, Option.some.injEq,
        exists_eq_left']
      exact hhead.andThen htail

/-! ## Single patterns -/

theorem RespectsEquality.capture {inner : Pattern} (h : RespectsEquality satisfies inner) :
    RespectsEquality satisfies (.capture inner) := by
  intro v w hv hvw
  obtain ⟨hmatches, hbindings, hleftover⟩ := h v w hv hvw
  refine ⟨by simpa only [Matches] using hmatches, ?_, by simpa only [leftover] using hleftover⟩
  intro hmatch
  rw [bindings, bindings]
  exact List.rel_append (hbindings (by simpa only [Matches] using hmatch)) (.cons hvw .nil)

theorem respectsEquality_bound (expected : Value) :
    RespectsEquality satisfies (.bound expected) := by
  intro v w hv hvw
  refine ⟨?_, fun _ => .cons hvw .nil, by simp [leftover]⟩
  simp only [Matches, equals_congr_left hv hvw]

theorem respectsEquality_headTail : RespectsEquality satisfies .headTail := by
  intro v w _ hvw
  cases hvw.equalParts with
  | list hitems =>
    refine ⟨by simp [Matches, hitems.length_eq], ?_, by simp [leftover]⟩
    intro hmatch
    cases hitems with
    | nil => simp [Matches] at hmatch
    | cons hhead htail =>
      exact .cons hhead (.cons (EqualParts.list htail).deepEqual .nil)
  | _ => exact ⟨by simp [Matches], by simp [Matches], by simp [leftover]⟩

theorem respectsEquality_startsWith (beginning : String) :
    RespectsEquality satisfies (.startsWith beginning) := by
  intro v w hv hvw
  cases hvw.equalParts with
  | str text =>
    refine ⟨Iff.rfl, fun _ => ?_, by simp [leftover]⟩
    simpa only [bindings] using .cons (equals_refl (.str _)) .nil
  | _ => exact ⟨by simp [Matches], by simp [Matches], by simp [leftover]⟩

theorem respectsEquality_regex (expression : Regex) :
    RespectsEquality satisfies (.regex expression) := by
  intro v w _ hvw
  refine ⟨?_, fun _ => by simp [bindings], by simp [leftover]⟩
  cases hvw.equalParts <;> simp [Matches]

theorem respectsEquality_symbol (name : Atom) : RespectsEquality satisfies (.symbol name) := by
  intro v w _ hvw
  refine ⟨?_, fun _ => by simp [bindings], by simp [leftover]⟩
  cases hvw.equalParts <;> simp [Matches]

/-- A sequence that is tried only if it has the right length. -/
theorem sequence_leftover {patterns : List Pattern} {as bs : List Value}
    (ih : ∀ p ∈ patterns, RespectsEquality satisfies p) (has : ∀ a ∈ as, Built a)
    (h : List.Forall₂ DeepEqual as bs) :
    List.Forall₂ DeepEqual
      (if as.length = patterns.length then itemLeftover satisfies patterns as else [])
      (if bs.length = patterns.length then itemLeftover satisfies patterns bs else []) := by
  rw [h.length_eq]
  split
  · exact (matchesAlike_items ih has h).leftover
  · exact .nil

theorem respectsEquality_array {patterns : List Pattern}
    (ih : ∀ p ∈ patterns, RespectsEquality satisfies p) :
    RespectsEquality satisfies (.array patterns) := by
  intro v w hv hvw
  cases hvw.equalParts with
  | list hitems =>
    have halike := matchesAlike_items ih hv.of_list hitems
    refine ⟨by simpa [Matches] using halike.matched_iff,
      by simpa [Matches, bindings] using halike.bindings, ?_⟩
    rw [leftover, leftover]
    exact sequence_leftover ih hv.of_list hitems
  | _ => exact ⟨by simp [Matches], by simp [Matches], by simp [leftover]⟩

theorem respectsEquality_tuple {patterns : List Pattern}
    (ih : ∀ p ∈ patterns, RespectsEquality satisfies p) :
    RespectsEquality satisfies (.tuple patterns) := by
  intro v w hv hvw
  cases hvw.equalParts with
  | tuple hitems =>
    have halike := matchesAlike_items ih hv.of_tuple hitems
    refine ⟨by simpa [Matches] using halike.matched_iff,
      by simpa [Matches, bindings] using halike.bindings, ?_⟩
    rw [leftover, leftover]
    exact sequence_leftover ih hv.of_tuple hitems
  | _ => exact ⟨by simp [Matches], by simp [Matches], by simp [leftover]⟩

theorem respectsEquality_object {tag : Atom} {patterns : List (Atom × Pattern)}
    (ih : ∀ field ∈ patterns, RespectsEquality satisfies field.2) :
    RespectsEquality satisfies (.object tag patterns) := by
  intro v w hv hvw
  cases hvw.equalParts with
  | @object tag' as bs _ _ =>
    have hfound := foundAlike_of_deepEqual hv hvw
    have halike := matchesAlike_fields ih hfound
    refine ⟨?_, ?_, ?_⟩
    · simp [Matches, halike.matched_iff]
    · rintro ⟨fields, hfields, hmatch⟩
      obtain ⟨rfl, rfl⟩ := Value.object.inj hfields
      exact halike.bindings hmatch
    · simp only [leftover, fun key => (hfound key).hasField_eq]
      split
      · exact halike.leftover
      · exact .nil
  | _ => exact ⟨by simp [Matches], by simp [Matches], by simp [leftover]⟩

/-- No pattern tells equal values apart. -/
theorem respectsEquality (satisfies : Regex → String → Bool) (p : Pattern) :
    RespectsEquality satisfies p := by
  induction p with
  | wildcard => exact fun v w _ _ => ⟨Iff.rfl, fun _ => .nil, .nil⟩
  | bound expected => exact respectsEquality_bound expected
  | parameter => exact fun v w _ hvw => ⟨Iff.rfl, fun _ => .cons hvw .nil, .nil⟩
  | headTail => exact respectsEquality_headTail
  | startsWith beginning => exact respectsEquality_startsWith beginning
  | capture inner ih => exact ih.capture
  | literal expected =>
    intro v w hv hvw
    refine ⟨?_, fun _ => .nil, .nil⟩
    simp only [Matches, literalEquals_congr hv hvw]
  | regex expression => exact respectsEquality_regex expression
  | typeTag tag =>
    intro v w _ hvw
    refine ⟨?_, fun _ => .cons hvw .nil, .nil⟩
    simp only [Matches, typeTag_eq_of_deepEqual hvw]
  | array patterns ih => exact respectsEquality_array ih
  | object tag patterns ih => exact respectsEquality_object ih
  | symbol name => exact respectsEquality_symbol name
  | tuple patterns ih => exact respectsEquality_tuple ih

/-! ## Bound values have been built -/

theorem built_of_mem_itemBindings {patterns : List Pattern} {items : List Value} {x : Value}
    (ih : ∀ p ∈ patterns, ∀ v, Built v → ∀ x ∈ bindings p v, Built x)
    (hitems : ∀ v ∈ items, Built v) (hx : x ∈ itemBindings patterns items) : Built x := by
  induction patterns generalizing items with
  | nil => simp [itemBindings] at hx
  | cons p ps ih' =>
    cases items with
    | nil => simp [itemBindings] at hx
    | cons v vs =>
      rw [itemBindings] at hx
      rcases List.mem_append.mp hx with hhead | htail
      · exact ih p List.mem_cons_self v (hitems v List.mem_cons_self) x hhead
      · exact ih' (fun q hq => ih q (List.mem_cons_of_mem p hq))
          (fun w hw => hitems w (List.mem_cons_of_mem v hw)) htail

theorem built_of_mem_fieldBindings {patterns : List (Atom × Pattern)}
    {fields : List (Atom × Value)} {x : Value}
    (ih : ∀ field ∈ patterns, ∀ v, Built v → ∀ x ∈ bindings field.2 v, Built x)
    (hfields : ∀ field ∈ fields, Built field.2) (hx : x ∈ fieldBindings patterns fields) :
    Built x := by
  induction patterns with
  | nil => simp [fieldBindings] at hx
  | cons field ps ih' =>
    obtain ⟨key, p⟩ := field
    rw [fieldBindings] at hx
    rcases List.mem_append.mp hx with hhead | htail
    · cases hkey : getField? fields key with
      | none => simp [hkey] at hhead
      | some v =>
        have hv : Built v := hfields (key, v) (mem_of_getField?_eq_some hkey)
        simp only [hkey] at hhead
        exact ih (key, p) List.mem_cons_self v hv x hhead
    · exact ih' (fun q hq => ih q (List.mem_cons_of_mem _ hq)) htail

theorem built_of_mem_bindings {p : Pattern} {v x : Value} (hv : Built v)
    (hx : x ∈ bindings p v) : Built x := by
  induction p generalizing v x with
  | bound | parameter | typeTag =>
    obtain rfl := List.mem_singleton.mp hx
    exact hv
  | headTail =>
    cases v with
    | list items =>
      have hitems := hv.of_list
      cases items with
      | nil => simp [bindings] at hx
      | cons head rest =>
        simp only [bindings, List.mem_cons, List.not_mem_nil, or_false] at hx
        rcases hx with rfl | rfl
        · exact hitems x List.mem_cons_self
        · exact .list fun w hw => hitems w (List.mem_cons_of_mem head hw)
    | _ => simp [bindings] at hx
  | startsWith beginning =>
    cases v with
    | str text =>
      obtain rfl := List.mem_singleton.mp hx
      exact .str _
    | _ => simp [bindings] at hx
  | capture inner ih =>
    rw [bindings] at hx
    rcases List.mem_append.mp hx with hinner | hself
    · exact ih hv hinner
    · obtain rfl := List.mem_singleton.mp hself
      exact hv
  | array patterns ih =>
    cases v with
    | list items =>
      exact built_of_mem_itemBindings (fun p hp v hv x hx => ih p hp hv hx) hv.of_list hx
    | _ => simp [bindings] at hx
  | tuple patterns ih =>
    cases v with
    | tuple items =>
      exact built_of_mem_itemBindings (fun p hp v hv x hx => ih p hp hv hx) hv.of_tuple hx
    | _ => simp [bindings] at hx
  | object tag patterns ih =>
    cases v with
    | object tag' fields =>
      exact built_of_mem_fieldBindings (fun field hfield v hv x hx => ih field hfield hv hx)
        hv.of_object.2 hx
    | _ => simp [bindings] at hx
  | wildcard | literal | regex | symbol => simp [bindings] at hx

/-! ## Runs -/

/-- Runs on equal values end alike and append pairwise equal values. -/
theorem exists_runs_alike (satisfies : Regex → String → Bool) (p : Pattern) {v w : Value}
    (hv : Built v) (hvw : DeepEqual v w) :
    ∃ (verdict : Bool) (added added' : List Value),
      (∀ out, p.runWith satisfies v out = ⟨verdict, out ++ added⟩) ∧
      (∀ out, p.runWith satisfies w out = ⟨verdict, out ++ added'⟩) ∧
      List.Forall₂ DeepEqual added added' := by
  obtain ⟨hmatches, hbindings, hleftover⟩ := respectsEquality satisfies p v w hv hvw
  by_cases hmatch : Matches satisfies p v
  · exact ⟨true, bindings p v, bindings p w, fun out => (agrees p v out).1 hmatch,
      fun out => (agrees p w out).1 (hmatches.mp hmatch), hbindings hmatch⟩
  · have hmatch' : ¬ Matches satisfies p w := fun h => hmatch (hmatches.mpr h)
    exact ⟨false, leftover satisfies p v, leftover satisfies p w,
      fun out => (agrees p v out).2 hmatch, fun out => (agrees p w out).2 hmatch', hleftover⟩

end Pattern

end ClauseMatch
