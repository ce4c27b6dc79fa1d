import ClauseMatch.Proofs.Value.Fields
import ClauseMatch.Value.Equality
import Mathlib.Data.List.Forall2
import Mathlib.Data.List.Perm.Subperm

/-!
# Deep equality is an equivalence

Equality of objects looks at the fields of its left side only and compares the numbers of fields.
That this is symmetric rests on distinct keys: as many keys on the right as on the left, among which
are all the keys on the left, are the same keys. A value has distinct keys at every depth if it has
been built, which is all that reflexivity and symmetry ask for; transitivity asks for nothing.
-/

namespace ClauseMatch

/-! ## Lists related item by item -/

section

variable {α β γ : Type} {R : α → β → Prop} {as : List α} {bs : List β}

theorem forall₂_imp_of_mem {S : α → β → Prop} (himp : ∀ a ∈ as, ∀ b ∈ bs, R a b → S a b)
    (h : List.Forall₂ R as bs) : List.Forall₂ S as bs := by
  refine List.forall₂_iff_zip.mpr ⟨h.length_eq, fun {a b} hab => ?_⟩
  obtain ⟨ha, hb⟩ := List.of_mem_zip hab
  exact himp a ha b hb (List.forall₂_zip h hab)

theorem forall₂_comp_of_mem {S : β → γ → Prop} {T : α → γ → Prop} {cs : List γ}
    (hcomp : ∀ a ∈ as, ∀ b ∈ bs, ∀ c ∈ cs, R a b → S b c → T a c)
    (h : List.Forall₂ R as bs) (h' : List.Forall₂ S bs cs) : List.Forall₂ T as cs := by
  induction h generalizing cs with
  | nil =>
    cases h'
    exact .nil
  | @cons a b as bs hab _ ih =>
    cases h' with
    | @cons _ c _ cs hbc hrest =>
      have hac : T a c :=
        hcomp a List.mem_cons_self b List.mem_cons_self c List.mem_cons_self hab hbc
      refine .cons hac (ih ?_ hrest)
      intro a' ha' b' hb' c' hc'
      exact hcomp a' (List.mem_cons_of_mem a ha') b' (List.mem_cons_of_mem b hb') c'
        (List.mem_cons_of_mem c hc')

end

/-! ## Numbers -/

namespace Binary64

variable {x y z : Binary64}

theorem sameNumber_iff :
    x.sameNumber y = true ↔
      (x.isNaN = true ∧ y.isNaN = true) ∨
        (x.isNaN = false ∧ y.isNaN = false ∧ (x = y ∨ (x.isZero = true ∧ y.isZero = true))) := by
  cases hx : x.isNaN <;> cases hy : y.isNaN <;> simp [sameNumber, numericEq, hx, hy]

theorem sameNumber_refl (x : Binary64) : x.sameNumber x = true := by
  rw [sameNumber_iff]
  cases hx : x.isNaN with
  | true => exact Or.inl ⟨rfl, rfl⟩
  | false => exact Or.inr ⟨rfl, rfl, Or.inl rfl⟩

theorem sameNumber_symm (h : x.sameNumber y = true) : y.sameNumber x = true := by
  rw [sameNumber_iff] at h ⊢
  rcases h with ⟨hx, hy⟩ | ⟨hx, hy, heq | ⟨hx0, hy0⟩⟩
  · exact Or.inl ⟨hy, hx⟩
  · exact Or.inr ⟨hy, hx, Or.inl heq.symm⟩
  · exact Or.inr ⟨hy, hx, Or.inr ⟨hy0, hx0⟩⟩

theorem sameNumber_trans (h : x.sameNumber y = true) (h' : y.sameNumber z = true) :
    x.sameNumber z = true := by
  rw [sameNumber_iff] at h h' ⊢
  rcases h with ⟨hx, hy⟩ | ⟨hx, hy, hxy⟩ <;> rcases h' with ⟨hy', hz⟩ | ⟨hy', hz, hyz⟩
  · exact Or.inl ⟨hx, hz⟩
  · simp [hy] at hy'
  · simp [hy] at hy'
  · refine Or.inr ⟨hx, hz, ?_⟩
    rcases hxy with rfl | ⟨hx0, hy0⟩
    · exact hyz
    · rcases hyz with rfl | ⟨-, hz0⟩
      · exact Or.inr ⟨hx0, hy0⟩
      · exact Or.inr ⟨hx0, hz0⟩

/-- No number is equal to one of two that are the same and not to the other. -/
theorem numericEq_congr (h : x.sameNumber y = true) :
    z.numericEq x = z.numericEq y := by
  rcases sameNumber_iff.mp h with ⟨hx, hy⟩ | ⟨hx, hy, rfl | ⟨hx0, hy0⟩⟩
  · simp [numericEq, hx, hy]
  · rfl
  · -- Two zeros: a number is equal to either of them if it is a zero itself.
    rw [Bool.eq_iff_iff]
    simp only [numericEq, hx, hy, hx0, hy0, Bool.and_true, Bool.not_false,
      Bool.and_eq_true, Bool.or_eq_true, beq_iff_eq]
    constructor
    · rintro ⟨hz, rfl | hz0⟩
      · exact ⟨hz, Or.inr hx0⟩
      · exact ⟨hz, Or.inr hz0⟩
    · rintro ⟨hz, rfl | hz0⟩
      · exact ⟨hz, Or.inr hy0⟩
      · exact ⟨hz, Or.inr hz0⟩

end Binary64

namespace Value

/-- The two values are deeply equal. -/
abbrev DeepEqual (v w : Value) : Prop := v.equals w = true

/-- Induction on values, with the hypothesis for every item and every field. -/
@[elab_as_elim, induction_eliminator]
theorem induction {motive : Value → Prop}
    (nil : motive .nil)
    (bool : ∀ b, motive (.bool b))
    (int : ∀ n, motive (.int n))
    (float : ∀ x, motive (.float x))
    (atom : ∀ a, motive (.atom a))
    (str : ∀ text, motive (.str text))
    (list : ∀ items, (∀ v ∈ items, motive v) → motive (.list items))
    (tuple : ∀ items, (∀ v ∈ items, motive v) → motive (.tuple items))
    (object : ∀ tag fields, (∀ field ∈ fields, motive field.2) → motive (.object tag fields))
    (bitstring : ∀ bits, motive (.bitstring bits))
    (v : Value) : motive v :=
  @Value.rec motive (fun items => ∀ v ∈ items, motive v)
    (fun fields => ∀ field ∈ fields, motive field.2) (fun field => motive field.2)
    nil bool int float atom str list tuple object bitstring
    (by simp) (fun _ _ hv hvs => List.forall_mem_cons.mpr ⟨hv, hvs⟩)
    (by simp) (fun _ _ hv hvs => List.forall_mem_cons.mpr ⟨hv, hvs⟩) (fun _ _ hv => hv) v

/-! ## Built values -/

/-- The values that can be built. An object is built from any list of fields with built values. -/
inductive Built : Value → Prop where
  | nil : Built .nil
  | bool (b : Bool) : Built (.bool b)
  | int (n : Int64) : Built (.int n)
  | float (x : Binary64) : Built (.float x)
  | atom (a : Atom) : Built (.atom a)
  | str (text : String) : Built (.str text)
  | list {items : List Value} : (∀ v ∈ items, Built v) → Built (.list items)
  | tuple {items : List Value} : (∀ v ∈ items, Built v) → Built (.tuple items)
  | ofFields {tag : Atom} {fields : List (Atom × Value)} :
      (∀ field ∈ fields, Built field.2) → Built (.ofFields tag fields)
  | bitstring (bits : Bitstring) : Built (.bitstring bits)

theorem Built.of_list {items : List Value} (h : Built (.list items)) : ∀ v ∈ items, Built v := by
  cases h with
  | list h => exact h

theorem Built.of_tuple {items : List Value} (h : Built (.tuple items)) : ∀ v ∈ items, Built v := by
  cases h with
  | tuple h => exact h

theorem Built.of_object {tag : Atom} {fields : List (Atom × Value)}
    (h : Built (.object tag fields)) :
    (fieldKeys fields).Nodup ∧ ∀ field ∈ fields, Built field.2 := by
  cases h with
  | ofFields h =>
    refine ⟨nodup_fieldKeys_distinctFields _, ?_⟩
    intro field hfield
    exact h field (mem_of_mem_distinctFields hfield)

/-! ## Items and fields -/

theorem equalItems_iff {as bs : List Value} :
    equalItems as bs = true ↔ List.Forall₂ DeepEqual as bs := by
  induction as generalizing bs with
  | nil => cases bs <;> simp [equalItems]
  | cons a as ih => cases bs <;> simp [equalItems, ih]

theorem fieldsWithin_iff {as bs : List (Atom × Value)} :
    fieldsWithin as bs = true ↔
      ∀ field ∈ as, ∃ b, getField? bs field.1 = some b ∧ DeepEqual field.2 b := by
  induction as with
  | nil => simp [fieldsWithin]
  | cons field as ih =>
    obtain ⟨key, a⟩ := field
    cases hkey : getField? bs key <;> simp [fieldsWithin, hkey, ih]

/-- What deep equality says of two values, constructor by constructor. -/
inductive EqualParts : Value → Value → Prop where
  | nil : EqualParts .nil .nil
  | bool (b : Bool) : EqualParts (.bool b) (.bool b)
  | int (n : Int64) : EqualParts (.int n) (.int n)
  | float {x y : Binary64} : x.sameNumber y = true → EqualParts (.float x) (.float y)
  | atom (a : Atom) : EqualParts (.atom a) (.atom a)
  | str (text : String) : EqualParts (.str text) (.str text)
  | list {as bs : List Value} : List.Forall₂ DeepEqual as bs → EqualParts (.list as) (.list bs)
  | tuple {as bs : List Value} : List.Forall₂ DeepEqual as bs → EqualParts (.tuple as) (.tuple bs)
  | object {tag : Atom} {as bs : List (Atom × Value)} :
      as.length = bs.length →
      (∀ field ∈ as, ∃ b, getField? bs field.1 = some b ∧ DeepEqual field.2 b) →
      EqualParts (.object tag as) (.object tag bs)
  | bitstring {a b : Bitstring} : a.values = b.values → EqualParts (.bitstring a) (.bitstring b)

theorem EqualParts.deepEqual {v w : Value} (h : EqualParts v w) : DeepEqual v w := by
  cases h with
  | nil => rfl
  | bool b => exact beq_self_eq_true b
  | int n => exact beq_self_eq_true n
  | float h => exact h
  | atom a => exact beq_self_eq_true a
  | str text => exact beq_self_eq_true text
  | list hitems => exact equalItems_iff.mpr hitems
  | tuple hitems => exact equalItems_iff.mpr hitems
  | object hlength hwithin =>
    simp only [DeepEqual, equals, Bool.and_eq_true, beq_iff_eq]
    exact ⟨⟨trivial, hlength⟩, fieldsWithin_iff.mpr hwithin⟩
  | @bitstring a b hvalues =>
    have hbeq : (a.values == b.values) = true := beq_iff_eq.mpr hvalues
    exact hbeq

theorem DeepEqual.equalParts {v w : Value} (h : DeepEqual v w) : EqualParts v w := by
  unfold DeepEqual equals at h
  split at h
  · exact .nil
  · exact beq_iff_eq.mp h ▸ .bool _
  · exact beq_iff_eq.mp h ▸ .int _
  · exact .float h
  · exact beq_iff_eq.mp h ▸ .atom _
  · exact beq_iff_eq.mp h ▸ .str _
  · exact .list (equalItems_iff.mp h)
  · exact .tuple (equalItems_iff.mp h)
  · simp only [Bool.and_eq_true, beq_iff_eq] at h
    obtain ⟨⟨rfl, hlength⟩, hwithin⟩ := h
    exact .object hlength (fieldsWithin_iff.mp hwithin)
  · exact .bitstring (beq_iff_eq.mp h)
  · simp at h

/-! ## Reflexivity -/

theorem equals_refl {v : Value} (hv : Built v) : DeepEqual v v := by
  apply EqualParts.deepEqual
  induction hv with
  | nil => exact .nil
  | bool b => exact .bool b
  | int n => exact .int n
  | float x => exact .float (Binary64.sameNumber_refl x)
  | atom a => exact .atom a
  | str text => exact .str text
  | list _ ih => exact .list (List.forall₂_same.mpr fun v hv => (ih v hv).deepEqual)
  | tuple _ ih => exact .tuple (List.forall₂_same.mpr fun v hv => (ih v hv).deepEqual)
  | ofFields _ ih =>
    refine .object rfl ?_
    intro field hfield
    have hfound := getField?_eq_some_of_mem (nodup_fieldKeys_distinctFields _) hfield
    exact ⟨field.2, hfound, (ih field (mem_of_mem_distinctFields hfield)).deepEqual⟩
  | bitstring bits => exact .bitstring rfl

/-! ## Symmetry -/

/-- As many keys as on the left, among which are the distinct keys on the left, are the same keys
in some order. -/
theorem fieldKeys_perm_of_within {as bs : List (Atom × Value)} (hkeys : (fieldKeys as).Nodup)
    (hlength : as.length = bs.length)
    (hwithin : ∀ field ∈ as, ∃ b, getField? bs field.1 = some b ∧ DeepEqual field.2 b) :
    (fieldKeys as).Perm (fieldKeys bs) := by
  have hsubset : fieldKeys as ⊆ fieldKeys bs := by
    intro key hkey
    obtain ⟨field, hfield, rfl⟩ := List.mem_map.mp hkey
    obtain ⟨b, hb, -⟩ := hwithin field hfield
    have hmem : (field.1, b) ∈ bs := mem_of_getField?_eq_some hb
    exact List.mem_map.mpr ⟨(field.1, b), hmem, rfl⟩
  have hle : (fieldKeys bs).length ≤ (fieldKeys as).length := by
    simp [fieldKeys, hlength]
  exact (hkeys.subperm hsubset).perm_of_length_le hle

theorem within_symm {as bs : List (Atom × Value)} (hkeys : (fieldKeys as).Nodup)
    (hlength : as.length = bs.length)
    (hwithin : ∀ field ∈ as, ∃ b, getField? bs field.1 = some b ∧ DeepEqual field.2 b)
    (ih : ∀ field ∈ as, ∀ w, DeepEqual field.2 w → DeepEqual w field.2) :
    ∀ field ∈ bs, ∃ a, getField? as field.1 = some a ∧ DeepEqual field.2 a := by
  have hperm := fieldKeys_perm_of_within hkeys hlength hwithin
  have hkeys' : (fieldKeys bs).Nodup := hperm.nodup_iff.mp hkeys
  rintro ⟨key, b⟩ hfield
  have hkey : key ∈ fieldKeys as := hperm.mem_iff.mpr (List.mem_map_of_mem hfield)
  obtain ⟨⟨key', a⟩, ha, rfl⟩ := List.mem_map.mp hkey
  obtain ⟨b', hb', hequal⟩ := hwithin (key', a) ha
  -- The field that the key leads to on the right is the one that we started from.
  have hfound := getField?_eq_some_of_mem hkeys' hfield
  obtain rfl : b' = b := Option.some.inj (hb'.symm.trans hfound)
  exact ⟨a, getField?_eq_some_of_mem hkeys ha, ih (key', a) ha b' hequal⟩

theorem equals_symm {v w : Value} (hv : Built v) (h : DeepEqual v w) : DeepEqual w v := by
  apply EqualParts.deepEqual
  induction hv generalizing w with
  | list _ ih =>
    cases h.equalParts with
    | list hitems =>
      refine .list (List.Forall₂.flip (forall₂_imp_of_mem ?_ hitems))
      intro a ha b _ hab
      exact (ih a ha hab).deepEqual
  | tuple _ ih =>
    cases h.equalParts with
    | tuple hitems =>
      refine .tuple (List.Forall₂.flip (forall₂_imp_of_mem ?_ hitems))
      intro a ha b _ hab
      exact (ih a ha hab).deepEqual
  | ofFields _ ih =>
    cases h.equalParts with
    | object hlength hwithin =>
      refine .object hlength.symm
        (within_symm (nodup_fieldKeys_distinctFields _) hlength hwithin ?_)
      intro field hfield w hfw
      exact (ih field (mem_of_mem_distinctFields hfield) hfw).deepEqual
  | float x =>
    cases h.equalParts with
    | float hsame => exact .float (Binary64.sameNumber_symm hsame)
  | bitstring bits =>
    cases h.equalParts with
    | bitstring hvalues => exact .bitstring hvalues.symm
  | nil | bool | int | atom | str =>
    cases h.equalParts
    constructor

/-! ## Transitivity -/

theorem equals_trans {u v w : Value} (h : DeepEqual u v) (h' : DeepEqual v w) : DeepEqual u w := by
  apply EqualParts.deepEqual
  induction u generalizing v w with
  | list as ih =>
    cases h.equalParts with
    | list hitems =>
      cases h'.equalParts with
      | list hitems' =>
        refine .list (forall₂_comp_of_mem ?_ hitems hitems')
        intro a ha b _ c _ hab hbc
        exact (ih a ha hab hbc).deepEqual
  | tuple as ih =>
    cases h.equalParts with
    | tuple hitems =>
      cases h'.equalParts with
      | tuple hitems' =>
        refine .tuple (forall₂_comp_of_mem ?_ hitems hitems')
        intro a ha b _ c _ hab hbc
        exact (ih a ha hab hbc).deepEqual
  | object tag as ih =>
    cases h.equalParts with
    | object hlength hwithin =>
      cases h'.equalParts with
      | object hlength' hwithin' =>
        refine .object (hlength.trans hlength') ?_
        intro field hfield
        obtain ⟨b, hb, hab⟩ := hwithin field hfield
        obtain ⟨c, hc, hbc⟩ := hwithin' (field.1, b) (mem_of_getField?_eq_some hb)
        exact ⟨c, hc, (ih field hfield hab hbc).deepEqual⟩
  | float x =>
    cases h.equalParts with
    | float hsame =>
      cases h'.equalParts with
      | float hsame' => exact .float (Binary64.sameNumber_trans hsame hsame')
  | bitstring bits =>
    cases h.equalParts with
    | bitstring hvalues =>
      cases h'.equalParts with
      | bitstring hvalues' => exact .bitstring (hvalues.trans hvalues')
  | nil | bool | int | atom | str =>
    cases h.equalParts
    exact h'.equalParts

/-! ## Equal values are interchangeable -/

theorem equals_comm {v w : Value} (hv : Built v) (hw : Built w) : v.equals w = w.equals v := by
  rw [Bool.eq_iff_iff]
  exact ⟨equals_symm hv, equals_symm hw⟩

/-- Equal values are equal to the same values. -/
theorem equals_congr_left {v v' : Value} (hv : Built v) (h : DeepEqual v v') (w : Value) :
    v.equals w = v'.equals w := by
  rw [Bool.eq_iff_iff]
  exact ⟨equals_trans (equals_symm hv h), equals_trans h⟩

theorem equals_congr_right {v v' : Value} (hv : Built v) (h : DeepEqual v v') (w : Value) :
    w.equals v = w.equals v' := by
  rw [Bool.eq_iff_iff]
  exact ⟨fun hw => equals_trans hw h, fun hw => equals_trans hw (equals_symm hv h)⟩

end Value

end ClauseMatch
