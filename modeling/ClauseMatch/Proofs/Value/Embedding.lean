import ClauseMatch.Proofs.Value.Equality

/-!
# Values within values

One value embeds in another if the second has the same parts and perhaps more fields in its
objects, at any depth. What makes two values without parts the same is a parameter. If it is deep
equality, then embedding is an order on built values up to deep equality: two objects whose keys are
found in each other have the same keys, because their keys are distinct.
-/

namespace ClauseMatch

namespace Value

/-- Whether a value has no parts. -/
def isLeaf : Value → Bool
  | list _ => false
  | tuple _ => false
  | object _ _ => false
  | _ => true

/-- Neither the value nor any of its parts, at any depth, is excluded. -/
inductive Without (excluded : Value → Bool) : Value → Prop where
  | leaf {v : Value} : v.isLeaf = true → excluded v = false → Without excluded v
  | list {items : List Value} : excluded (.list items) = false →
      (∀ v ∈ items, Without excluded v) → Without excluded (.list items)
  | tuple {items : List Value} : excluded (.tuple items) = false →
      (∀ v ∈ items, Without excluded v) → Without excluded (.tuple items)
  | object {tag : Atom} {fields : List (Atom × Value)} : excluded (.object tag fields) = false →
      (∀ field ∈ fields, Without excluded field.2) → Without excluded (.object tag fields)

/-- The first value is within the second: lists and tuples item by item, objects with every key of
the first also in the second, and values without parts as `same` says. -/
inductive EmbedsBy (same : Value → Value → Prop) : Value → Value → Prop where
  | leaf {v w : Value} : v.isLeaf = true → same v w → EmbedsBy same v w
  | list {as bs : List Value} : List.Forall₂ (EmbedsBy same) as bs →
      EmbedsBy same (.list as) (.list bs)
  | tuple {as bs : List Value} : List.Forall₂ (EmbedsBy same) as bs →
      EmbedsBy same (.tuple as) (.tuple bs)
  | object {tag : Atom} {as bs : List (Atom × Value)} :
      (∀ field ∈ as, hasField bs field.1) →
      (∀ field ∈ as, ∀ b, getField? bs field.1 = some b → EmbedsBy same field.2 b) →
      EmbedsBy same (.object tag as) (.object tag bs)

/-- The second value is deeply equal to the first but for further fields, at any depth. -/
abbrev ExtendedBy : Value → Value → Prop := EmbedsBy DeepEqual

variable {excluded : Value → Bool} {same : Value → Value → Prop}

theorem Without.not_excluded {v : Value} (h : Without excluded v) : excluded v = false := by
  cases h <;> assumption

theorem Without.of_list {items : List Value} (h : Without excluded (.list items)) :
    ∀ v ∈ items, Without excluded v := by
  cases h with
  | leaf hleaf => simp [isLeaf] at hleaf
  | list _ h => exact h

theorem Without.of_tuple {items : List Value} (h : Without excluded (.tuple items)) :
    ∀ v ∈ items, Without excluded v := by
  cases h with
  | leaf hleaf => simp [isLeaf] at hleaf
  | tuple _ h => exact h

theorem Without.of_object {tag : Atom} {fields : List (Atom × Value)}
    (h : Without excluded (.object tag fields)) : ∀ field ∈ fields, Without excluded field.2 := by
  cases h with
  | leaf hleaf => simp [isLeaf] at hleaf
  | object _ h => exact h

theorem built_of_isLeaf {v : Value} (h : v.isLeaf = true) : Built v := by
  cases v with
  | list | tuple | object => simp [isLeaf] at h
  | _ => constructor

theorem isLeaf_eq_of_deepEqual {v w : Value} (h : DeepEqual v w) : v.isLeaf = w.isLeaf := by
  cases h.equalParts <;> rfl

theorem hasField_iff {fields : List (Atom × Value)} {key : Atom} :
    hasField fields key = true ↔ ∃ v, getField? fields key = some v := by
  rw [hasField, Option.isSome_iff_exists]

/-! ## What a value embeds in -/

theorem EmbedsBy.of_leaf {v w : Value} (hv : v.isLeaf = true) (h : EmbedsBy same v w) :
    same v w := by
  cases h with
  | leaf _ hsame => exact hsame
  | list | tuple | object => simp [isLeaf] at hv

theorem EmbedsBy.of_list {as : List Value} {w : Value} (h : EmbedsBy same (.list as) w) :
    ∃ bs, w = .list bs ∧ List.Forall₂ (EmbedsBy same) as bs := by
  cases h with
  | leaf hleaf => simp [isLeaf] at hleaf
  | list hitems => exact ⟨_, rfl, hitems⟩

theorem EmbedsBy.of_tuple {as : List Value} {w : Value} (h : EmbedsBy same (.tuple as) w) :
    ∃ bs, w = .tuple bs ∧ List.Forall₂ (EmbedsBy same) as bs := by
  cases h with
  | leaf hleaf => simp [isLeaf] at hleaf
  | tuple hitems => exact ⟨_, rfl, hitems⟩

/-- Every field of the first object is found under its key in the second, and embeds there. -/
theorem EmbedsBy.of_object {tag : Atom} {as : List (Atom × Value)} {w : Value}
    (h : EmbedsBy same (.object tag as) w) :
    ∃ bs, w = .object tag bs ∧
      ∀ field ∈ as, ∃ b, getField? bs field.1 = some b ∧ EmbedsBy same field.2 b := by
  cases h with
  | leaf hleaf => simp [isLeaf] at hleaf
  | object hkeys hfields =>
    refine ⟨_, rfl, fun field hfield => ?_⟩
    obtain ⟨b, hb⟩ := hasField_iff.mp (hkeys field hfield)
    exact ⟨b, hb, hfields field hfield b hb⟩

theorem EmbedsBy.ofFields {tag : Atom} {as bs : List (Atom × Value)}
    (h : ∀ field ∈ as, ∃ b, getField? bs field.1 = some b ∧ EmbedsBy same field.2 b) :
    EmbedsBy same (.object tag as) (.object tag bs) := by
  refine .object (fun field hfield => ?_) (fun field hfield b hb => ?_)
  · obtain ⟨b, hb, -⟩ := h field hfield
    exact hasField_iff.mpr ⟨b, hb⟩
  · obtain ⟨b', hb', hembeds⟩ := h field hfield
    obtain rfl : b' = b := Option.some.inj (hb'.symm.trans hb)
    exact hembeds

/-! ## Equal values, and other notions of sameness -/

/-- Equal values extend each other. -/
theorem extendedBy_of_deepEqual {v w : Value} (h : DeepEqual v w) : ExtendedBy v w := by
  induction v generalizing w with
  | list as ih =>
    cases h.equalParts with
    | list hitems => exact .list (forall₂_imp_of_mem (fun a ha _ _ hab => ih a ha hab) hitems)
  | tuple as ih =>
    cases h.equalParts with
    | tuple hitems => exact .tuple (forall₂_imp_of_mem (fun a ha _ _ hab => ih a ha hab) hitems)
  | object tag as ih =>
    cases h.equalParts with
    | object _ hwithin =>
      refine .ofFields fun field hfield => ?_
      obtain ⟨b, hb, hequal⟩ := hwithin field hfield
      exact ⟨b, hb, ih field hfield hequal⟩
  | nil | bool | int | float | atom | str | bitstring => exact .leaf rfl h

theorem EmbedsBy.mono {same' : Value → Value → Prop} (hsame : ∀ v w, same v w → same' v w)
    {v w : Value} (h : EmbedsBy same v w) : EmbedsBy same' v w := by
  induction v generalizing w with
  | list as ih =>
    obtain ⟨bs, rfl, hitems⟩ := h.of_list
    exact .list (forall₂_imp_of_mem (fun a ha _ _ hab => ih a ha hab) hitems)
  | tuple as ih =>
    obtain ⟨bs, rfl, hitems⟩ := h.of_tuple
    exact .tuple (forall₂_imp_of_mem (fun a ha _ _ hab => ih a ha hab) hitems)
  | object tag as ih =>
    obtain ⟨bs, rfl, hfields⟩ := h.of_object
    refine .ofFields fun field hfield => ?_
    obtain ⟨b, hb, hab⟩ := hfields field hfield
    exact ⟨b, hb, ih field hfield hab⟩
  | nil | bool | int | float | atom | str | bitstring =>
    exact .leaf rfl (hsame _ _ (h.of_leaf rfl))

/-! ## Embedding as an order -/

theorem extendedBy_trans {u v w : Value} (h : ExtendedBy u v) (h' : ExtendedBy v w) :
    ExtendedBy u w := by
  induction u generalizing v w with
  | list as ih =>
    obtain ⟨bs, rfl, hitems⟩ := h.of_list
    obtain ⟨cs, rfl, hitems'⟩ := h'.of_list
    refine .list (forall₂_comp_of_mem ?_ hitems hitems')
    exact fun a ha b _ c _ hab hbc => ih a ha hab hbc
  | tuple as ih =>
    obtain ⟨bs, rfl, hitems⟩ := h.of_tuple
    obtain ⟨cs, rfl, hitems'⟩ := h'.of_tuple
    refine .tuple (forall₂_comp_of_mem ?_ hitems hitems')
    exact fun a ha b _ c _ hab hbc => ih a ha hab hbc
  | object tag as ih =>
    obtain ⟨bs, rfl, hfields⟩ := h.of_object
    obtain ⟨cs, rfl, hfields'⟩ := h'.of_object
    refine .ofFields fun field hfield => ?_
    obtain ⟨b, hb, hab⟩ := hfields field hfield
    obtain ⟨c, hc, hbc⟩ := hfields' (field.1, b) (mem_of_getField?_eq_some hb)
    exact ⟨c, hc, ih field hfield hab hbc⟩
  | nil | bool | int | float | atom | str | bitstring =>
    have huv := h.of_leaf rfl
    have hv : v.isLeaf = true := (isLeaf_eq_of_deepEqual huv).symm
    exact .leaf rfl (equals_trans huv (h'.of_leaf hv))

/-- Distinct keys that are found in each other's fields are as many. -/
theorem length_le_of_keys {as bs : List (Atom × Value)} (hkeys : (fieldKeys as).Nodup)
    (h : ∀ field ∈ as, ∃ b, getField? bs field.1 = some b) : as.length ≤ bs.length := by
  have hsubset : fieldKeys as ⊆ fieldKeys bs := by
    intro key hkey
    obtain ⟨field, hfield, rfl⟩ := List.mem_map.mp hkey
    obtain ⟨b, hb⟩ := h field hfield
    exact List.mem_map.mpr ⟨(field.1, b), mem_of_getField?_eq_some hb, rfl⟩
  simpa [fieldKeys] using (hkeys.subperm hsubset).length_le

/-- Values that extend each other are equal. -/
theorem deepEqual_of_extendedBy {v w : Value} (hv : Built v) (hw : Built w)
    (h : ExtendedBy v w) (h' : ExtendedBy w v) : DeepEqual v w := by
  induction v generalizing w with
  | list as ih =>
    obtain ⟨bs, rfl, hitems⟩ := h.of_list
    obtain ⟨as', has, hitems'⟩ := h'.of_list
    obtain rfl : as = as' := Value.list.inj has
    have hboth : List.Forall₂ (fun a b => ExtendedBy a b ∧ ExtendedBy b a) as bs :=
      List.Forall₂.mp (fun _ _ => And.intro) hitems hitems'.flip
    refine (EqualParts.list (forall₂_imp_of_mem ?_ hboth)).deepEqual
    exact fun a ha b hb hab => ih a ha (hv.of_list a ha) (hw.of_list b hb) hab.1 hab.2
  | tuple as ih =>
    obtain ⟨bs, rfl, hitems⟩ := h.of_tuple
    obtain ⟨as', has, hitems'⟩ := h'.of_tuple
    obtain rfl : as = as' := Value.tuple.inj has
    have hboth : List.Forall₂ (fun a b => ExtendedBy a b ∧ ExtendedBy b a) as bs :=
      List.Forall₂.mp (fun _ _ => And.intro) hitems hitems'.flip
    refine (EqualParts.tuple (forall₂_imp_of_mem ?_ hboth)).deepEqual
    exact fun a ha b hb hab => ih a ha (hv.of_tuple a ha) (hw.of_tuple b hb) hab.1 hab.2
  | object tag as ih =>
    obtain ⟨bs, rfl, hfields⟩ := h.of_object
    obtain ⟨as', has, hfields'⟩ := h'.of_object
    obtain ⟨-, rfl⟩ := Value.object.inj has
    obtain ⟨hkeys, hbuilt⟩ := hv.of_object
    obtain ⟨hkeys', hbuilt'⟩ := hw.of_object
    have hle : as.length ≤ bs.length :=
      length_le_of_keys hkeys fun field hfield => (hfields field hfield).imp fun _ hb => hb.1
    have hge : bs.length ≤ as.length :=
      length_le_of_keys hkeys' fun field hfield => (hfields' field hfield).imp fun _ ha => ha.1
    refine (EqualParts.object (Nat.le_antisymm hle hge) fun field hfield => ?_).deepEqual
    obtain ⟨b, hb, hab⟩ := hfields field hfield
    have hmem : (field.1, b) ∈ bs := mem_of_getField?_eq_some hb
    obtain ⟨a, ha, hba⟩ := hfields' (field.1, b) hmem
    -- The way back leads to the field that we started from.
    obtain rfl : field.2 = a :=
      Option.some.inj ((getField?_eq_some_of_mem hkeys hfield).symm.trans ha)
    exact ⟨b, hb, ih field hfield (hbuilt field hfield) (hbuilt' _ hmem) hab hba⟩
  | nil | bool | int | float | atom | str | bitstring => exact h.of_leaf rfl

/-! ## Embedding up to numbers -/

/-- Equal values, or an integer and a float that are the same number once the integer has been
rounded to a double. -/
inductive SameScalar : Value → Value → Prop where
  | equal {v w : Value} : DeepEqual v w → SameScalar v w
  | intFloat {n : Int64} {x : Binary64} : (Binary64.ofInt n.toInt).numericEq x = true →
      SameScalar (.int n) (.float x)
  | floatInt {x : Binary64} {n : Int64} : (Binary64.ofInt n.toInt).numericEq x = true →
      SameScalar (.float x) (.int n)

/-- The first value is within the second, which may have further fields at any depth and numbers of
the other type. -/
abbrev Embeds : Value → Value → Prop := EmbedsBy SameScalar

/-- No number in the value, at any depth, is a float. -/
abbrev FloatFree : Value → Prop := Without fun v => v.asFloat?.isSome

theorem FloatFree.ofFields {tag : Atom} {fields : List (Atom × Value)}
    (h : ∀ field ∈ fields, FloatFree field.2) : FloatFree (.ofFields tag fields) :=
  .object rfl fun field hfield => h field (mem_of_mem_distinctFields hfield)

/-- A literal asks for the same scalar. -/
theorem literalEquals_iff {expected v : Value} :
    literalEquals expected v = true ↔ SameScalar expected v := by
  constructor
  · intro h
    unfold literalEquals at h
    split at h
    · exact .intFloat h
    · exact .floatInt h
    · exact .equal h
  · intro h
    cases h with
    | equal hequal =>
      unfold literalEquals
      split
      · cases hequal.equalParts
      · cases hequal.equalParts
      · exact hequal
    | intFloat hnumber => exact hnumber
    | floatInt hnumber => exact hnumber

theorem embeds_of_deepEqual {v w : Value} (h : DeepEqual v w) : Embeds v w :=
  (extendedBy_of_deepEqual h).mono fun _ _ => .equal

theorem embeds_of_sameScalar {v w : Value} (h : SameScalar v w) : Embeds v w := by
  cases h with
  | equal hequal => exact embeds_of_deepEqual hequal
  | intFloat hnumber => exact .leaf rfl (.intFloat hnumber)
  | floatInt hnumber => exact .leaf rfl (.floatInt hnumber)

theorem SameScalar.deepEqual {v w : Value} (hv : FloatFree v) (hw : FloatFree w)
    (h : SameScalar v w) : DeepEqual v w := by
  cases h with
  | equal hequal => exact hequal
  | intFloat => exact absurd hw.not_excluded (by simp [asFloat?])
  | floatInt => exact absurd hv.not_excluded (by simp [asFloat?])

/-- Without floats there is no number of the other type. -/
theorem FloatFree.extendedBy {v w : Value} (hv : FloatFree v) (hw : FloatFree w)
    (h : Embeds v w) : ExtendedBy v w := by
  induction v generalizing w with
  | list as ih =>
    obtain ⟨bs, rfl, hitems⟩ := h.of_list
    refine .list (forall₂_imp_of_mem ?_ hitems)
    exact fun a ha b hb hab => ih a ha (hv.of_list a ha) (hw.of_list b hb) hab
  | tuple as ih =>
    obtain ⟨bs, rfl, hitems⟩ := h.of_tuple
    refine .tuple (forall₂_imp_of_mem ?_ hitems)
    exact fun a ha b hb hab => ih a ha (hv.of_tuple a ha) (hw.of_tuple b hb) hab
  | object tag as ih =>
    obtain ⟨bs, rfl, hfields⟩ := h.of_object
    refine .ofFields fun field hfield => ?_
    obtain ⟨b, hb, hab⟩ := hfields field hfield
    have hfree : FloatFree b := hw.of_object (field.1, b) (mem_of_getField?_eq_some hb)
    exact ⟨b, hb, ih field hfield (hv.of_object field hfield) hfree hab⟩
  | nil | bool | int | float | atom | str | bitstring =>
    exact .leaf rfl ((h.of_leaf rfl).deepEqual hv hw)

/-- On values without floats, embedding is transitive. -/
theorem embeds_trans {u v w : Value} (hu : FloatFree u) (hv : FloatFree v) (hw : FloatFree w)
    (h : Embeds u v) (h' : Embeds v w) : Embeds u w := by
  have hext : ExtendedBy u w := extendedBy_trans (hu.extendedBy hv h) (hv.extendedBy hw h')
  exact hext.mono fun _ _ => .equal

/-- On built values without floats, embedding both ways is deep equality. -/
theorem embeds_antisymm_iff {v w : Value} (hv : Built v) (hw : Built w) (hv' : FloatFree v)
    (hw' : FloatFree w) : Embeds v w ∧ Embeds w v ↔ DeepEqual v w := by
  constructor
  · rintro ⟨h, h'⟩
    exact deepEqual_of_extendedBy hv hw (hv'.extendedBy hw' h) (hw'.extendedBy hv' h')
  · intro h
    exact ⟨embeds_of_deepEqual h, embeds_of_deepEqual (equals_symm hv h)⟩

end Value

end ClauseMatch
