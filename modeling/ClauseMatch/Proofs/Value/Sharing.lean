import ClauseMatch.Proofs.Value.Equality
import ClauseMatch.Value.Heap

/-!
# Equality of shared values

Handles on one allocation hold the same, so that taking them for equal is right where deep equality
is reflexive: for texts always, and for lists and tuples whenever they have been built. Stored
values are therefore equal exactly when the values are, however they share their storage.
-/

namespace ClauseMatch

namespace StoredValue

variable {m : Memory}

theorem fieldValues_eq_map (fields : List (Atom × StoredValue)) :
    fieldValues fields = fields.map fun field => (field.1, value field.2) := by
  induction fields with
  | nil => rfl
  | cons field fields ih =>
    obtain ⟨key, v⟩ := field
    rw [fieldValues, ih, List.map_cons]

theorem getField?_fieldValues (fields : List (Atom × StoredValue)) (key : Atom) :
    getField? (fieldValues fields) key = (getField? fields key).map value := by
  induction fields with
  | nil => rfl
  | cons field fields ih =>
    obtain ⟨k, v⟩ := field
    simp only [getField?, fieldValues, List.lookup_cons] at ih ⊢
    cases key == k with
    | true => rfl
    | false => exact ih

/-! ## Equality item by item -/

/-- Equality with this stored value is equality with its value. -/
def EqualAsValue (m : Memory) (v : StoredValue) : Prop :=
  ∀ w, w.In m → v.equals w = v.value.equals w.value

theorem equalItems_eq {as bs : List StoredValue} (has : ∀ a ∈ as, EqualAsValue m a)
    (hbs : ∀ b ∈ bs, b.In m) :
    equalItems as bs = Value.equalItems (itemValues as) (itemValues bs) := by
  induction as generalizing bs with
  | nil => cases bs <;> rfl
  | cons a as ih =>
    cases bs with
    | nil => rfl
    | cons b bs =>
      have hhead : a.equals b = a.value.equals b.value :=
        has a List.mem_cons_self b (hbs b List.mem_cons_self)
      have htail : equalItems as bs = Value.equalItems (itemValues as) (itemValues bs) :=
        ih (fun c hc => has c (List.mem_cons_of_mem a hc))
          (fun c hc => hbs c (List.mem_cons_of_mem b hc))
      rw [equalItems, hhead, htail]
      rfl

theorem fieldsWithin_eq {as bs : List (Atom × StoredValue)}
    (has : ∀ field ∈ as, EqualAsValue m field.2) (hbs : ∀ field ∈ bs, field.2.In m) :
    fieldsWithin as bs = Value.fieldsWithin (fieldValues as) (fieldValues bs) := by
  induction as with
  | nil => rfl
  | cons field as ih =>
    obtain ⟨key, a⟩ := field
    have htail := ih fun field hfield => has field (List.mem_cons_of_mem _ hfield)
    rw [fieldsWithin, fieldValues, Value.fieldsWithin, getField?_fieldValues, htail]
    cases hkey : getField? bs key with
    | none => rfl
    | some b =>
      have hb : b.In m := hbs (key, b) (mem_of_getField?_eq_some hkey)
      have hhead : a.equals b = a.value.equals b.value := has (key, a) List.mem_cons_self b hb
      simp only [hhead, Option.map_some]

/-! ## Equality of handles -/

/-- Texts that are compared as handles are compared as texts. -/
theorem equalsBy_text {a b : Heap String} (ha : (StoredValue.str a).In m)
    (hb : (StoredValue.str b).In m) :
    a.equalsBy (fun s t => s == t) b = (a.payload == b.payload) := by
  cases ha with
  | str address =>
    cases hb with
    | str address' =>
      by_cases haddress : address = address'
      · simp [Heap.equalsBy, haddress]
      · simp [Heap.equalsBy, haddress]

/-- Two handles into one memory with the same address have the same contents. -/
theorem In.items_eq {a b : Heap (List StoredValue)}
    (ha : (StoredValue.list a).In m ∨ (StoredValue.tuple a).In m)
    (hb : (StoredValue.list b).In m ∨ (StoredValue.tuple b).In m)
    (haddress : a.address = b.address) : a.payload = b.payload := by
  have hitems {c : Heap (List StoredValue)}
      (hc : (StoredValue.list c).In m ∨ (StoredValue.tuple c).In m) :
      c.payload = m.items c.address := by
    rcases hc with hc | hc <;> cases hc <;> rfl
  rw [hitems ha, hitems hb, haddress]

/-- Stored values are equal when their values are. -/
theorem equalAsValue {v : StoredValue} (hv : v.In m) : EqualAsValue m v := by
  induction hv with
  | str address =>
    intro w hw
    cases w with
    | str text =>
      have htext : StoredValue.equals (.str ⟨address, m.text address⟩) (.str text) =
          ((m.text address).utf8ByteSize == text.payload.utf8ByteSize &&
            m.text address == text.payload) := by
        rw [equals, equalsBy_text (.str address) hw]
      rw [htext, value, value, Value.equals]
      by_cases heq : m.text address = text.payload
      · simp [heq]
      · simp [heq]
    | _ => rfl
  | list address _ ih =>
    intro w hw
    cases hw with
    | list address' hbs => exact equalItems_eq ih hbs
    | _ => rfl
  | tuple address _ ih =>
    intro w hw
    cases hw with
    | tuple address' hbs => exact equalItems_eq ih hbs
    | _ => rfl
  | @object s as _ ih =>
    intro w hw
    cases hw with
    | @object t bs hbs =>
      rw [equals, value, value, Value.equals, fieldsWithin_eq ih hbs, fieldValues_eq_map as,
        fieldValues_eq_map bs, List.length_map, List.length_map]
    | _ => rfl
  | nil | bool | int | float | atom | bitstring =>
    intro w hw
    cases hw <;> rfl

/-- Lists and tuples that are compared as handles are compared item by item. -/
theorem equalsBy_items {a b : Heap (List StoredValue)}
    (ha : ∀ v ∈ a.payload, v.In m) (hb : ∀ v ∈ b.payload, v.In m)
    (hshared : a.address = b.address → a.payload = b.payload)
    (hbuilt : ∀ v ∈ itemValues a.payload, v.Built) :
    a.equalsBy equalItems b =
      Value.equalItems (itemValues a.payload) (itemValues b.payload) := by
  have hitems : equalItems a.payload b.payload =
      Value.equalItems (itemValues a.payload) (itemValues b.payload) :=
    equalItems_eq (fun v hv => equalAsValue (ha v hv)) hb
  rw [Heap.equalsBy, hitems]
  by_cases haddress : a.address = b.address
  · -- The items of one allocation are compared with themselves, which only built items survive.
    have hself : Value.equalItems (itemValues a.payload) (itemValues b.payload) = true := by
      rw [← hshared haddress]
      exact Value.equalItems_iff.mpr
        (List.forall₂_same.mpr fun v hv => Value.equals_refl (hbuilt v hv))
    rw [hself, Bool.or_true]
  · simp [haddress]

theorem In.of_list {a : Heap (List StoredValue)} (h : (StoredValue.list a).In m) :
    ∀ v ∈ a.payload, v.In m := by
  cases h with
  | list address h => exact h

theorem In.of_tuple {a : Heap (List StoredValue)} (h : (StoredValue.tuple a).In m) :
    ∀ v ∈ a.payload, v.In m := by
  cases h with
  | tuple address h => exact h

theorem equalsBy_list {a b : Heap (List StoredValue)} (ha : (StoredValue.list a).In m)
    (hb : (StoredValue.list b).In m) (hbuilt : (StoredValue.list a).value.Built) :
    a.equalsBy equalItems b = (StoredValue.list a).value.equals (StoredValue.list b).value :=
  equalsBy_items ha.of_list hb.of_list (In.items_eq (.inl ha) (.inl hb)) hbuilt.of_list

theorem equalsBy_tuple {a b : Heap (List StoredValue)} (ha : (StoredValue.tuple a).In m)
    (hb : (StoredValue.tuple b).In m) (hbuilt : (StoredValue.tuple a).value.Built) :
    a.equalsBy equalItems b = (StoredValue.tuple a).value.equals (StoredValue.tuple b).value :=
  equalsBy_items ha.of_tuple hb.of_tuple (In.items_eq (.inr ha) (.inr hb)) hbuilt.of_tuple

end StoredValue

namespace Value

/-- The order of its fields does not matter to what an object equals. -/
theorem deepEqual_of_perm {tag : Atom} {fields fields' : List (Atom × Value)}
    (h : Built (.object tag fields)) (h' : Built (.object tag fields'))
    (hperm : fields.Perm fields') : DeepEqual (.object tag fields) (.object tag fields') := by
  obtain ⟨-, hbuilt⟩ := h.of_object
  obtain ⟨hkeys', -⟩ := h'.of_object
  apply EqualParts.deepEqual
  refine .object hperm.length_eq ?_
  intro field hfield
  have hfound := getField?_eq_some_of_mem hkeys' (hperm.mem_iff.mp hfield)
  exact ⟨field.2, hfound, equals_refl (hbuilt field hfield)⟩

/-- Deep equality of built values is an equivalence. That of objects depends neither on the order of
the operands nor on that of the fields, and comparing handles first, for texts at any depth and for
lists and tuples, gives the same answer in every memory. -/
theorem deep_equality_is_equivalence :
    (∀ v, Built v → DeepEqual v v) ∧
    (∀ v w, Built v → DeepEqual v w → DeepEqual w v) ∧
    (∀ u v w, DeepEqual u v → DeepEqual v w → DeepEqual u w) ∧
    (∀ v w, Built v → Built w → v.equals w = w.equals v) ∧
    (∀ tag fields fields', Built (.object tag fields) → Built (.object tag fields') →
      fields.Perm fields' → ∀ w,
        (Value.object tag fields).equals w = (Value.object tag fields').equals w ∧
          w.equals (.object tag fields) = w.equals (.object tag fields')) ∧
    (∀ (m : Memory) (v w : StoredValue), v.In m → w.In m →
      v.equals w = v.value.equals w.value) ∧
    (∀ (m : Memory) (a b : Heap String), (StoredValue.str a).In m → (StoredValue.str b).In m →
      a.equalsBy (fun s t => s == t) b = Value.equals (.str a.payload) (.str b.payload)) ∧
    (∀ (m : Memory) (a b : Heap (List StoredValue)), (StoredValue.list a).In m →
      (StoredValue.list b).In m → (StoredValue.list a).value.Built →
      a.equalsBy StoredValue.equalItems b =
        (StoredValue.list a).value.equals (StoredValue.list b).value) ∧
    (∀ (m : Memory) (a b : Heap (List StoredValue)), (StoredValue.tuple a).In m →
      (StoredValue.tuple b).In m → (StoredValue.tuple a).value.Built →
      a.equalsBy StoredValue.equalItems b =
        (StoredValue.tuple a).value.equals (StoredValue.tuple b).value) := by
  refine ⟨fun v => equals_refl, fun v w => equals_symm, fun u v w => equals_trans,
    fun v w => equals_comm, ?_, ?_, ?_, ?_, ?_⟩
  · intro tag fields fields' h h' hperm w
    have hequal := deepEqual_of_perm h h' hperm
    exact ⟨equals_congr_left h hequal w, equals_congr_right h hequal w⟩
  · intro m v w hv hw
    exact StoredValue.equalAsValue hv w hw
  · intro m a b ha hb
    exact StoredValue.equalsBy_text ha hb
  · intro m a b ha hb hbuilt
    exact StoredValue.equalsBy_list ha hb hbuilt
  · intro m a b ha hb hbuilt
    exact StoredValue.equalsBy_tuple ha hb hbuilt

/-- A repeated key and two signed zeros, fields in two orders, and NaN in an allocation that a list
and a tuple share. -/
theorem deep_equality_is_equivalence_zeros :
    DeepEqual (.map [(⟨"x"⟩, .nil), (⟨"x"⟩, .float ⟨0x8000000000000000⟩)])
        (.map [(⟨"x"⟩, .float ⟨0⟩)]) ∧
      DeepEqual (.map [(⟨"x"⟩, .float ⟨0⟩)])
        (.map [(⟨"x"⟩, .nil), (⟨"x"⟩, .float ⟨0x8000000000000000⟩)]) ∧
      DeepEqual (.map [(⟨"x"⟩, .float ⟨0⟩)]) (.map [(⟨"x"⟩, .float ⟨0⟩)]) ∧
    (Value.map [(⟨"x"⟩, .nil), (⟨"y"⟩, .bool true)]).equals .nil =
      (Value.map [(⟨"y"⟩, .bool true), (⟨"x"⟩, .nil)]).equals .nil ∧
    (StoredValue.str ⟨7, "a"⟩).equals (.str ⟨7, "a"⟩) = Value.equals (.str "a") (.str "a") ∧
    (Heap.mk 7 "a").equalsBy (fun s t => s == t) ⟨7, "a"⟩ = Value.equals (.str "a") (.str "a") ∧
    (Heap.mk 5 [StoredValue.float ⟨0x7ff8000000000000⟩]).equalsBy StoredValue.equalItems
        ⟨5, [.float ⟨0x7ff8000000000000⟩]⟩ =
      Value.equals (.list [.float ⟨0x7ff8000000000000⟩]) (.list [.float ⟨0x7ff8000000000000⟩]) ∧
    (Heap.mk 5 [StoredValue.float ⟨0x7ff8000000000000⟩]).equalsBy StoredValue.equalItems
        ⟨5, [.float ⟨0x7ff8000000000000⟩]⟩ =
      Value.equals (.tuple [.float ⟨0x7ff8000000000000⟩])
        (.tuple [.float ⟨0x7ff8000000000000⟩]) := by
  obtain ⟨-, hsymm, htrans, -, horder, hstored, htext, hlist, htuple⟩ :=
    deep_equality_is_equivalence
  have hbuilt : Built (.map [(⟨"x"⟩, .nil), (⟨"x"⟩, .float ⟨0x8000000000000000⟩)]) := by
    refine .ofFields ?_
    simp only [List.forall_mem_cons]
    exact ⟨.nil, .float _, by simp⟩
  have hequal : DeepEqual (.map [(⟨"x"⟩, .nil), (⟨"x"⟩, .float ⟨0x8000000000000000⟩)])
      (.map [(⟨"x"⟩, .float ⟨0⟩)]) := by
    decide +kernel
  have hswapped : Built (.map [(⟨"x"⟩, .nil), (⟨"y"⟩, .bool true)]) ∧
      Built (.map [(⟨"y"⟩, .bool true), (⟨"x"⟩, .nil)]) := by
    constructor
    all_goals
      refine .ofFields ?_
      simp only [List.forall_mem_cons]
      exact ⟨by constructor, by constructor, by simp⟩
  let m : Memory := ⟨fun _ => "a", fun _ => [.float ⟨0x7ff8000000000000⟩]⟩
  have hitems : ∀ v ∈ m.items 5, v.In m := List.forall_mem_singleton.mpr (.float _)
  have hvalues : ∀ v ∈ [Value.float ⟨0x7ff8000000000000⟩], Built v :=
    List.forall_mem_singleton.mpr (.float _)
  have hback := hsymm _ _ hbuilt hequal
  exact ⟨hequal, hback, htrans _ _ _ hback hequal,
    (horder _ _ _ hswapped.1 hswapped.2 (List.Perm.swap _ _ []) .nil).1,
    hstored m _ _ (.str 7) (.str 7), htext m _ _ (.str 7) (.str 7),
    hlist m _ _ (.list 5 hitems) (.list 5 hitems) (.list hvalues),
    htuple m _ _ (.tuple 5 hitems) (.tuple 5 hitems) (.tuple hvalues)⟩

end Value

end ClauseMatch
