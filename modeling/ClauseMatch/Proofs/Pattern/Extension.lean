import ClauseMatch.Proofs.Pattern.Congruence
import ClauseMatch.Proofs.Value.Embedding

/-!
# Matches survive further fields

Adding fields to the objects in a value, at any depth, does not break a match, and what is bound
afterwards is what was bound before with perhaps more fields. Only a payload can count the fields of
an object, so no payload of the pattern may contain one: a value equal to such a payload contains no
object either, and then it cannot have got further fields.
-/

namespace ClauseMatch

namespace Value

/-- The value contains no object. -/
abbrev ObjectFree : Value → Prop := Without fun v => v.asObject?.isSome

theorem ObjectFree.built {v : Value} (h : ObjectFree v) : Built v := by
  induction h with
  | leaf hleaf => exact built_of_isLeaf hleaf
  | list _ _ ih => exact .list ih
  | tuple _ _ ih => exact .tuple ih
  | object hobject => simp [asObject?] at hobject

/-- What is equal to a value without objects has none either. -/
theorem ObjectFree.of_deepEqual {v w : Value} (hw : ObjectFree w) (h : DeepEqual v w) :
    ObjectFree v := by
  induction v generalizing w with
  | list as ih =>
    cases h.equalParts with
    | @list _ bs hitems =>
      have hboth : List.Forall₂ (fun a b => ObjectFree a ∧ DeepEqual a b) as bs := by
        refine forall₂_imp_of_mem ?_ hitems
        exact fun a ha b hb hab => ⟨ih a ha (hw.of_list b hb) hab, hab⟩
      exact .list rfl ((List.forall₂_and_left as bs).mp hboth).1
  | tuple as ih =>
    cases h.equalParts with
    | @tuple _ bs hitems =>
      have hboth : List.Forall₂ (fun a b => ObjectFree a ∧ DeepEqual a b) as bs := by
        refine forall₂_imp_of_mem ?_ hitems
        exact fun a ha b hb hab => ⟨ih a ha (hw.of_tuple b hb) hab, hab⟩
      exact .tuple rfl ((List.forall₂_and_left as bs).mp hboth).1
  | object tag as ih =>
    cases h.equalParts with
    | object => exact absurd hw.not_excluded (by simp [asObject?])
  | nil | bool | int | float | atom | str | bitstring => exact .leaf rfl rfl

/-- A value without objects has nothing that further fields could be added to. -/
theorem ObjectFree.deepEqual_of_extendedBy {v w : Value} (hv : ObjectFree v)
    (h : ExtendedBy v w) : DeepEqual v w := by
  induction v generalizing w with
  | list as ih =>
    obtain ⟨bs, rfl, hitems⟩ := h.of_list
    refine (EqualParts.list (forall₂_imp_of_mem ?_ hitems)).deepEqual
    exact fun a ha b _ hab => ih a ha (hv.of_list a ha) hab
  | tuple as ih =>
    obtain ⟨bs, rfl, hitems⟩ := h.of_tuple
    refine (EqualParts.tuple (forall₂_imp_of_mem ?_ hitems)).deepEqual
    exact fun a ha b _ hab => ih a ha (hv.of_tuple a ha) hab
  | object tag as ih => exact absurd hv.not_excluded (by simp [asObject?])
  | nil | bool | int | float | atom | str | bitstring => exact h.of_leaf rfl

theorem typeTag_eq_of_extendedBy {v w : Value} (h : ExtendedBy v w) : v.typeTag = w.typeTag := by
  cases h with
  | leaf _ hequal => exact typeTag_eq_of_deepEqual hequal
  | list | tuple | object => rfl

theorem ExtendedBy.eq_str {text : String} {w : Value} (h : ExtendedBy (.str text) w) :
    w = .str text := by
  cases (h.of_leaf rfl).equalParts
  rfl

theorem ExtendedBy.eq_atom {a : Atom} {w : Value} (h : ExtendedBy (.atom a) w) :
    w = .atom a := by
  cases (h.of_leaf rfl).equalParts
  rfl

end Value

namespace Pattern

open Value

/-- No payload of the pattern contains an object. -/
inductive PayloadsObjectFree : Pattern → Prop where
  | wildcard : PayloadsObjectFree .wildcard
  | bound {expected : Value} : ObjectFree expected → PayloadsObjectFree (.bound expected)
  | parameter : PayloadsObjectFree .parameter
  | headTail : PayloadsObjectFree .headTail
  | startsWith (beginning : String) : PayloadsObjectFree (.startsWith beginning)
  | capture {inner : Pattern} : PayloadsObjectFree inner → PayloadsObjectFree (.capture inner)
  | literal {expected : Value} : ObjectFree expected → PayloadsObjectFree (.literal expected)
  | regex (expression : Regex) : PayloadsObjectFree (.regex expression)
  | typeTag (tag : TypeTag) : PayloadsObjectFree (.typeTag tag)
  | array {patterns : List Pattern} : (∀ p ∈ patterns, PayloadsObjectFree p) →
      PayloadsObjectFree (.array patterns)
  | object {tag : Atom} {patterns : List (Atom × Pattern)} :
      (∀ field ∈ patterns, PayloadsObjectFree field.2) → PayloadsObjectFree (.object tag patterns)
  | symbol (name : Atom) : PayloadsObjectFree (.symbol name)
  | tuple {patterns : List Pattern} : (∀ p ∈ patterns, PayloadsObjectFree p) →
      PayloadsObjectFree (.tuple patterns)

variable {satisfies : Regex → String → Bool}

/-- A match of the first value is one of every value that extends it, and what it binds there extends
what it bound before. -/
def Survives (matched matched' : Prop) (bound bound' : List Value) : Prop :=
  matched → matched' ∧ List.Forall₂ ExtendedBy bound bound'

/-! ## Single patterns -/

theorem survives_bound {expected v w : Value} (hfree : ObjectFree expected)
    (h : ExtendedBy v w) :
    Survives (Matches satisfies (.bound expected) v) (Matches satisfies (.bound expected) w)
      (bindings (.bound expected) v) (bindings (.bound expected) w) := by
  intro hmatch
  have hv : ObjectFree v := hfree.of_deepEqual hmatch
  have hwv : DeepEqual w v := equals_symm hv.built (hv.deepEqual_of_extendedBy h)
  exact ⟨equals_trans hwv hmatch, .cons h .nil⟩

theorem survives_headTail {v w : Value} (h : ExtendedBy v w) :
    Survives (Matches satisfies .headTail v) (Matches satisfies .headTail w)
      (bindings .headTail v) (bindings .headTail w) := by
  rintro ⟨as, rfl, hlength⟩
  obtain ⟨bs, rfl, hitems⟩ := h.of_list
  refine ⟨⟨bs, rfl, hitems.length_eq ▸ hlength⟩, ?_⟩
  cases hitems with
  | nil => exact .nil
  | cons hhead htail => exact .cons hhead (.cons (.list htail) .nil)

theorem survives_startsWith {beginning : String} {v w : Value} (h : ExtendedBy v w) :
    Survives (Matches satisfies (.startsWith beginning) v)
      (Matches satisfies (.startsWith beginning) w)
      (bindings (.startsWith beginning) v) (bindings (.startsWith beginning) w) := by
  rintro ⟨rest, rfl, hrest⟩
  obtain rfl := h.eq_str
  refine ⟨⟨rest, rfl, hrest⟩, ?_⟩
  exact .cons (extendedBy_of_deepEqual (equals_refl (.str _))) .nil

theorem survives_literal {expected v w : Value} (hfree : ObjectFree expected)
    (h : ExtendedBy v w) :
    Survives (Matches satisfies (.literal expected) v) (Matches satisfies (.literal expected) w)
      (bindings (.literal expected) v) (bindings (.literal expected) w) := by
  intro hmatch
  have hbuilt : Built v ∧ DeepEqual v w := by
    cases literalEquals_iff.mp hmatch with
    | equal hequal =>
      have hv : ObjectFree v := hfree.of_deepEqual (equals_symm hfree.built hequal)
      exact ⟨hv.built, hv.deepEqual_of_extendedBy h⟩
    | @intFloat n x => exact ⟨.float x, h.of_leaf rfl⟩
    | @floatInt x n => exact ⟨.int n, h.of_leaf rfl⟩
  exact ⟨(literalEquals_congr hbuilt.1 hbuilt.2 expected).symm.trans hmatch, .nil⟩

/-! ## Items and fields -/

theorem survives_items {patterns : List Pattern} {as bs : List Value}
    (ih : ∀ p ∈ patterns, ∀ v w, ExtendedBy v w →
      Survives (Matches satisfies p v) (Matches satisfies p w) (bindings p v) (bindings p w))
    (h : List.Forall₂ ExtendedBy as bs) :
    Survives (ItemsMatch satisfies patterns as) (ItemsMatch satisfies patterns bs)
      (itemBindings patterns as) (itemBindings patterns bs) := by
  induction patterns generalizing as bs with
  | nil =>
    intro hmatch
    cases h with
    | nil => exact ⟨hmatch, .nil⟩
    | cons => exact absurd hmatch id
  | cons p ps ih' =>
    intro hmatch
    cases h with
    | nil => exact absurd hmatch id
    | @cons a b as bs hab hrest =>
      obtain ⟨hhead, htail⟩ := hmatch
      obtain ⟨hhead', hbound⟩ := ih p List.mem_cons_self a b hab hhead
      obtain ⟨htail', hbounds⟩ := ih' (fun q hq => ih q (List.mem_cons_of_mem p hq)) hrest htail
      exact ⟨⟨hhead', htail'⟩, List.rel_append hbound hbounds⟩

theorem survives_fields {patterns : List (Atom × Pattern)} {as bs : List (Atom × Value)}
    (ih : ∀ field ∈ patterns, ∀ v w, ExtendedBy v w →
      Survives (Matches satisfies field.2 v) (Matches satisfies field.2 w)
        (bindings field.2 v) (bindings field.2 w))
    (h : ∀ field ∈ as, ∃ b, getField? bs field.1 = some b ∧ ExtendedBy field.2 b) :
    Survives (FieldsMatch satisfies patterns as) (FieldsMatch satisfies patterns bs)
      (fieldBindings patterns as) (fieldBindings patterns bs) := by
  induction patterns with
  | nil => exact fun hmatch => ⟨hmatch, .nil⟩
  | cons field ps ih' =>
    obtain ⟨key, p⟩ := field
    rintro ⟨⟨a, ha, hhead⟩, htail⟩
    obtain ⟨b, hb, hab⟩ := h (key, a) (mem_of_getField?_eq_some ha)
    obtain ⟨hhead', hbound⟩ := ih (key, p) List.mem_cons_self a b hab hhead
    obtain ⟨htail', hbounds⟩ := ih' (fun q hq => ih q (List.mem_cons_of_mem _ hq)) htail
    refine ⟨⟨⟨b, hb, hhead'⟩, htail'⟩, ?_⟩
    simp only [fieldBindings, ha, hb]
    exact List.rel_append hbound hbounds

/-! ## All patterns -/

theorem PayloadsObjectFree.survives {p : Pattern} (hp : PayloadsObjectFree p) {v w : Value}
    (h : ExtendedBy v w) :
    Survives (Matches satisfies p v) (Matches satisfies p w) (bindings p v) (bindings p w) := by
  induction hp generalizing v w with
  | wildcard => exact fun _ => ⟨trivial, .nil⟩
  | bound hfree => exact survives_bound hfree h
  | parameter => exact fun _ => ⟨trivial, .cons h .nil⟩
  | headTail => exact survives_headTail h
  | startsWith beginning => exact survives_startsWith h
  | capture _ ih =>
    intro hmatch
    obtain ⟨hmatch', hbound⟩ := ih h hmatch
    exact ⟨hmatch', List.rel_append hbound (.cons h .nil)⟩
  | literal hfree => exact survives_literal hfree h
  | regex expression =>
    rintro ⟨text, rfl, hsatisfies⟩
    obtain rfl := h.eq_str
    exact ⟨⟨text, rfl, hsatisfies⟩, .nil⟩
  | typeTag tag =>
    intro hmatch
    exact ⟨(typeTag_eq_of_extendedBy h).symm.trans hmatch, .cons h .nil⟩
  | array _ ih =>
    rintro ⟨as, rfl, hitems⟩
    obtain ⟨bs, rfl, hextended⟩ := h.of_list
    obtain ⟨hitems', hbound⟩ := survives_items (fun p hp v w hvw => ih p hp hvw) hextended hitems
    exact ⟨⟨bs, rfl, hitems'⟩, hbound⟩
  | object _ ih =>
    rintro ⟨as, rfl, hfields⟩
    obtain ⟨bs, rfl, hextended⟩ := h.of_object
    obtain ⟨hfields', hbound⟩ :=
      survives_fields (fun field hfield v w hvw => ih field hfield hvw) hextended hfields
    exact ⟨⟨bs, rfl, hfields'⟩, hbound⟩
  | symbol name =>
    rintro rfl
    obtain rfl := h.eq_atom
    exact ⟨rfl, .nil⟩
  | tuple _ ih =>
    rintro ⟨as, rfl, hitems⟩
    obtain ⟨bs, rfl, hextended⟩ := h.of_tuple
    obtain ⟨hitems', hbound⟩ := survives_items (fun p hp v w hvw => ih p hp hvw) hextended hitems
    exact ⟨⟨bs, rfl, hitems'⟩, hbound⟩

/-- A match of a value is also one of every value that extends it by further fields, if no payload of
the pattern contains an object. It binds as many values there, and each of them extends the one
bound before. -/
theorem matches_survive_further_fields (satisfies : Regex → String → Bool) {p : Pattern}
    {v w : Value} {out out' : Bindings} (hp : PayloadsObjectFree p) (h : ExtendedBy v w)
    (hrun : p.runWith satisfies v out = ⟨true, out'⟩) :
    ∃ bound bound' : List Value, out' = out ++ bound ∧
      p.runWith satisfies w out = ⟨true, out ++ bound'⟩ ∧
      bound.length = bound'.length ∧ List.Forall₂ ExtendedBy bound bound' := by
  obtain ⟨hmatch, hout⟩ := runWith_eq_true_iff.mp hrun
  obtain ⟨hmatch', hextended⟩ := hp.survives h hmatch
  have hrun' : p.runWith satisfies w out = ⟨true, out ++ bindings p w⟩ :=
    runWith_eq_true_iff.mpr ⟨hmatch', rfl⟩
  exact ⟨bindings p v, bindings p w, hout, hrun', hextended.length_eq, hextended⟩

/-- Fields are added at three places, one of them in a value that the pattern binds as it is. -/
theorem matches_survive_further_fields_nested :
    PayloadsObjectFree (.capture (.map [(⟨"a"⟩,
      .array [.map [(⟨"x"⟩, .bound (.int 1))], .parameter])])) ∧
    ExtendedBy (.map [(⟨"a"⟩, .list [.map [(⟨"x"⟩, .int 1)], .map []])])
      (.map [(⟨"b"⟩, .nil), (⟨"a"⟩, .list [.map [(⟨"y"⟩, .int 2), (⟨"x"⟩, .int 1)],
        .map [(⟨"z"⟩, .int 3)]])]) ∧
    (Pattern.capture (.map [(⟨"a"⟩,
      .array [.map [(⟨"x"⟩, .bound (.int 1))], .parameter])])).runWith Regex.isMatch
        (.map [(⟨"a"⟩, .list [.map [(⟨"x"⟩, .int 1)], .map []])]) #[.nil] =
      ⟨true, #[.nil, .int 1, .map [], .map [(⟨"a"⟩, .list [.map [(⟨"x"⟩, .int 1)], .map []])]]⟩ ∧
    ∃ bound bound' : List Value,
      (#[.nil, .int 1, .map [], .map [(⟨"a"⟩, .list [.map [(⟨"x"⟩, .int 1)], .map []])]] :
        Bindings) = #[Value.nil] ++ bound ∧
      (Pattern.capture (.map [(⟨"a"⟩,
        .array [.map [(⟨"x"⟩, .bound (.int 1))], .parameter])])).runWith Regex.isMatch
          (.map [(⟨"b"⟩, .nil), (⟨"a"⟩, .list [.map [(⟨"y"⟩, .int 2), (⟨"x"⟩, .int 1)],
            .map [(⟨"z"⟩, .int 3)]])]) #[.nil] =
        ⟨true, #[Value.nil] ++ bound'⟩ ∧
      bound.length = bound'.length ∧ List.Forall₂ ExtendedBy bound bound' := by
  have hp : PayloadsObjectFree (.capture (.map [(⟨"a"⟩,
      .array [.map [(⟨"x"⟩, .bound (.int 1))], .parameter])])) := by
    have hfree : ObjectFree (.int 1) := .leaf rfl rfl
    refine .capture (.object (List.forall_mem_singleton.mpr (.array ?_)))
    simp only [List.forall_mem_cons]
    exact ⟨.object (List.forall_mem_singleton.mpr (.bound hfree)), .parameter, by simp⟩
  have hone : ExtendedBy (.int 1) (.int 1) := extendedBy_of_deepEqual (equals_refl (.int 1))
  have hfirst : ExtendedBy (.map [(⟨"x"⟩, .int 1)]) (.map [(⟨"y"⟩, .int 2), (⟨"x"⟩, .int 1)]) :=
    .ofFields (List.forall_mem_singleton.mpr ⟨.int 1, rfl, hone⟩)
  have hsecond : ExtendedBy (.map []) (.map [(⟨"z"⟩, .int 3)]) :=
    .ofFields (List.forall_mem_nil _)
  have hvw : ExtendedBy (.map [(⟨"a"⟩, .list [.map [(⟨"x"⟩, .int 1)], .map []])])
      (.map [(⟨"b"⟩, .nil), (⟨"a"⟩, .list [.map [(⟨"y"⟩, .int 2), (⟨"x"⟩, .int 1)],
        .map [(⟨"z"⟩, .int 3)]])]) :=
    .ofFields (List.forall_mem_singleton.mpr
      ⟨_, rfl, .list (.cons hfirst (.cons hsecond .nil))⟩)
  have hrun : (Pattern.capture (.map [(⟨"a"⟩,
      .array [.map [(⟨"x"⟩, .bound (.int 1))], .parameter])])).runWith Regex.isMatch
        (.map [(⟨"a"⟩, .list [.map [(⟨"x"⟩, .int 1)], .map []])]) #[.nil] =
      ⟨true, #[.nil, .int 1, .map [], .map [(⟨"a"⟩, .list [.map [(⟨"x"⟩, .int 1)], .map []])]]⟩ :=
    rfl
  exact ⟨hp, hvw, hrun, matches_survive_further_fields Regex.isMatch hp hvw hrun⟩

end Pattern

end ClauseMatch
