import ClauseMatch.Proofs.Value.Sharing
import ClauseMatch.Value.Object

/-!
# Objects as maps

The three parts of an object stay in step: after any fields have been set, it is the object laid out
from the fields without repetitions, in which every key has its place in order and the values stand
at the places of their keys. Setting one more field leads from one such object to another, so that no
value is ever written to a place that there is not. What an object shows is therefore read off the
list of its fields, and its construction from any list in which keys may repeat is a fold over it.
-/

namespace ClauseMatch

variable {tag key : Atom} {keys : List Atom} {fields : List (Atom × Value)} {value : Value}

/-! ## Layouts -/

namespace ObjectLayout

/-- The layout of keys in a given order. -/
def ofKeys (keys : List Atom) : ObjectLayout := keys.foldl push empty

theorem ofKeys_concat (keys : List Atom) (key : Atom) :
    ofKeys (keys ++ [key]) = (ofKeys keys).push key := by
  simp [ofKeys]

theorem toList_keys_ofKeys (keys : List Atom) : (ofKeys keys).keys.toList = keys := by
  induction keys using List.reverseRecOn with
  | nil => rfl
  | append_singleton keys key ih => rw [ofKeys_concat, push, Array.toList_push, ih]

theorem size_keys_ofKeys (keys : List Atom) : (ofKeys keys).keys.size = keys.length := by
  rw [← Array.length_toList, toList_keys_ofKeys]

theorem index?_push (l : ObjectLayout) (key other : Atom) :
    (l.push key).index? other = if key = other then some l.keys.size else l.index? other := by
  simp [index?, push, Std.HashMap.getElem?_insert]

theorem idxOf?_concat (keys : List Atom) (last key : Atom) :
    (keys ++ [last]).idxOf? key =
      (keys.idxOf? key).or (if last = key then some keys.length else none) := by
  show (keys ++ [last]).findIdx? (· == key) = _
  rw [List.findIdx?_append]
  by_cases hlast : last = key <;> simp [hlast, List.idxOf?]

/-- Every key has the place at which it stands. -/
theorem index?_ofKeys (h : keys.Nodup) (key : Atom) : (ofKeys keys).index? key = keys.idxOf? key := by
  induction keys using List.reverseRecOn with
  | nil => simp [ofKeys, index?, empty]
  | append_singleton keys last ih =>
    obtain ⟨hnodup, -, hdisjoint⟩ := List.nodup_append.mp h
    rw [ofKeys_concat, index?_push, ih hnodup, size_keys_ofKeys, idxOf?_concat]
    by_cases hlast : last = key
    · have hnew : key ∉ keys := fun hmem =>
        hdisjoint key hmem last List.mem_cons_self hlast.symm
      rw [if_pos hlast, if_pos hlast, List.idxOf?_eq_none_iff.mpr hnew, Option.none_or]
    · rw [if_neg hlast, if_neg hlast, Option.or_none]

end ObjectLayout

/-! ## Fields at their places -/

theorem putField_of_idxOf? {index : Nat} (h : (fieldKeys fields).idxOf? key = some index) :
    putField key value fields = fields.set index (key, value) := by
  induction fields generalizing index with
  | nil => simp [fieldKeys] at h
  | cons field rest ih =>
    obtain ⟨k, v⟩ := field
    rw [fieldKeys, List.map_cons, List.idxOf?_cons] at h
    by_cases hk : k = key
    · have hindex : index = 0 := by simpa [hk, eq_comm] using h
      rw [putField, if_pos hk, hk, hindex, List.set_cons_zero]
    · rw [if_neg (by simpa using hk)] at h
      obtain ⟨place, hplace, rfl⟩ := Option.map_eq_some_iff.mp h
      rw [putField, if_neg hk, ih hplace, List.set_cons_succ]

theorem getElem?_of_idxOf? {index : Nat} (h : (fieldKeys fields).idxOf? key = some index) :
    (fields.map (·.2))[index]? = getField? fields key := by
  induction fields generalizing index with
  | nil => simp [fieldKeys] at h
  | cons field rest ih =>
    obtain ⟨k, v⟩ := field
    rw [fieldKeys, List.map_cons, List.idxOf?_cons] at h
    by_cases hk : k = key
    · have hindex : index = 0 := by simpa [hk, eq_comm] using h
      simp [hindex, getField?, hk]
    · rw [if_neg (by simpa using hk)] at h
      obtain ⟨place, hplace, rfl⟩ := Option.map_eq_some_iff.mp h
      have hne : (key == k) = false := beq_false_of_ne (Ne.symm hk)
      rw [List.map_cons, List.getElem?_cons_succ, ih hplace, getField?, getField?, List.lookup_cons,
        hne]

/-! ## Records -/

namespace ObjectRecord

/-- The object laid out from fields with distinct keys. -/
def ofDistinct (tag : Atom) (fields : List (Atom × Value)) : ObjectRecord :=
  ⟨tag, .ofKeys (fieldKeys fields), (fields.map (·.2)).toArray⟩

theorem keys_ofDistinct : (ofDistinct tag fields).keys = fieldKeys fields :=
  ObjectLayout.toList_keys_ofKeys _

theorem size_ofDistinct : (ofDistinct tag fields).size = fields.length := by
  simp [size, ofDistinct]

theorem fields_ofDistinct : (ofDistinct tag fields).fields = fields := by
  have hpairs : (fieldKeys fields).zip (fields.map (·.2)) = fields := by
    rw [fieldKeys, List.zip_map', List.map_id']
  rw [ObjectRecord.fields, keys_ofDistinct]
  exact hpairs

theorem index?_ofDistinct (h : (fieldKeys fields).Nodup) (key : Atom) :
    (ofDistinct tag fields).layout.index? key = (fieldKeys fields).idxOf? key :=
  ObjectLayout.index?_ofKeys h key

theorem get?_ofDistinct (h : (fieldKeys fields).Nodup) (key : Atom) :
    (ofDistinct tag fields).get? key = getField? fields key := by
  rw [get?, index?_ofDistinct h]
  cases hindex : (fieldKeys fields).idxOf? key with
  | none =>
    have hkey : key ∉ fieldKeys fields := List.idxOf?_eq_none_iff.mp hindex
    cases hfound : getField? fields key with
    | none => rfl
    | some value => exact absurd (List.mem_map_of_mem (mem_of_getField?_eq_some hfound)) hkey
  | some index =>
    rw [← getElem?_of_idxOf? hindex, Option.bind_some, ofDistinct, List.getElem?_toArray]

/-- Setting a field of an object that is laid out lays out the fields with this one set. -/
theorem set?_ofDistinct (h : (fieldKeys fields).Nodup) (key : Atom) (value : Value) :
    (ofDistinct tag fields).set? key value = some (ofDistinct tag (putField key value fields)) := by
  rw [set?, index?_ofDistinct h]
  cases hindex : (fieldKeys fields).idxOf? key with
  | some index =>
    obtain ⟨hlt, -⟩ := List.idxOf?_eq_some_iff.mp hindex
    have hsize : index < (ofDistinct tag fields).values.size := by
      simpa [ofDistinct, fieldKeys] using hlt
    have hkey : key ∈ fieldKeys fields := by
      by_contra hnew
      rw [List.idxOf?_eq_none_iff.mpr hnew] at hindex
      cases hindex
    have hkeys : fieldKeys (putField key value fields) = fieldKeys fields := by
      rw [fieldKeys_putField, if_pos hkey]
    have hvalues : (putField key value fields).map (·.2) = (fields.map (·.2)).set index value := by
      rw [putField_of_idxOf? hindex, List.map_set]
    simp only [overwrite?, dif_pos hsize]
    simp [ofDistinct, hkeys, hvalues]
  | none =>
    have hnew : key ∉ fieldKeys fields := List.idxOf?_eq_none_iff.mp hindex
    have hkeys : fieldKeys (putField key value fields) = fieldKeys fields ++ [key] := by
      rw [fieldKeys_putField, if_neg hnew]
    have hvalues : (putField key value fields).map (·.2) = fields.map (·.2) ++ [value] := by
      rw [putField_of_not_mem hnew, List.map_append, List.map_singleton]
    simp only [ofDistinct, hkeys, hvalues, ObjectLayout.ofKeys_concat, List.push_toArray]

/-- The object of any fields is laid out from the fields without repetitions. -/
theorem ofFields?_eq (tag : Atom) (fields : List (Atom × Value)) :
    ofFields? tag fields = some (ofDistinct tag (distinctFields fields)) := by
  induction fields using List.reverseRecOn with
  | nil => rfl
  | append_singleton fields field ih =>
    have hset := @set?_ofDistinct tag _ (nodup_fieldKeys_distinctFields fields) field.1 field.2
    rw [ofFields?] at ih
    rw [ofFields?, List.foldlM_append, ih, distinctFields_concat, ← hset]
    simp

/-! ## Equality -/

theorem fieldsWithin_eq_all (as bs : List (Atom × Value)) :
    Value.fieldsWithin as bs = as.all fun field => (getField? bs field.1).any field.2.equals := by
  induction as with
  | nil => rfl
  | cons field as ih =>
    obtain ⟨k, v⟩ := field
    rw [Value.fieldsWithin, List.all_cons, ih]
    cases getField? bs k <;> rfl

/-- Objects that are laid out are compared as their values are. -/
theorem equals_ofDistinct {tag' : Atom} {fields' : List (Atom × Value)}
    (h' : (fieldKeys fields').Nodup) :
    (ofDistinct tag fields).equals (ofDistinct tag' fields') =
      (Value.object tag fields).equals (.object tag' fields') := by
  rw [equals, size_ofDistinct, size_ofDistinct, fields_ofDistinct, Value.equals,
    fieldsWithin_eq_all]
  simp only [get?_ofDistinct h']
  rfl

/-! ## What an object shows -/

/-- The last mention of a key gives it this value. -/
def LastMention (fields : List (Atom × Value)) (key : Atom) (value : Value) : Prop :=
  ∃ before after, fields = before ++ (key, value) :: after ∧ key ∉ fieldKeys after

/-- The fields that are found from behind are the last mentions. -/
theorem getField?_reverse_eq_some_iff :
    getField? fields.reverse key = some value ↔ LastMention fields key value := by
  rw [getField?, List.lookup_eq_some_iff]
  constructor
  · rintro ⟨after, before, hfields, hafter⟩
    refine ⟨before.reverse, after.reverse, ?_, ?_⟩
    · rw [← List.reverse_reverse fields, hfields]
      simp
    · intro hkey
      obtain ⟨field, hfield, hfst⟩ := List.mem_map.mp hkey
      have hne := hafter field (List.mem_reverse.mp hfield)
      simp [hfst] at hne
  · rintro ⟨before, after, rfl, hafter⟩
    refine ⟨after.reverse, before.reverse, by simp, ?_⟩
    intro field hfield
    have hne : field.1 ≠ key := fun hfst =>
      hafter (hfst ▸ List.mem_map_of_mem (List.mem_reverse.mp hfield))
    simpa using hne.symm

theorem getField?_reverse_eq_none_iff :
    getField? fields.reverse key = none ↔ ¬ ∃ value, (key, value) ∈ fields := by
  rw [getField?, List.lookup_eq_none_iff]
  simp only [List.mem_reverse, not_exists]
  constructor
  · intro h value hmem
    simpa using h (key, value) hmem
  · intro h field hfield
    have hne : key ≠ field.1 := fun heq => h field.2 (heq ▸ hfield)
    simpa using hne

/-- Fields with distinct keys are each key with what is found under it. -/
theorem map_fields_eq_map_keys (h : (fieldKeys fields).Nodup) :
    fields.map (fun field => (field.1, some field.2)) =
      (fieldKeys fields).map fun key => (key, getField? fields key) := by
  rw [fieldKeys, List.map_map]
  refine List.map_congr_left fun field hfield => ?_
  exact congrArg (Prod.mk field.1) (getField?_eq_some_of_mem h hfield).symm

theorem hasKey_ofDistinct (h : (fieldKeys fields).Nodup) (key : Atom) :
    (ofDistinct tag fields).hasKey key = true ↔ key ∈ fieldKeys fields := by
  rw [hasKey, index?_ofDistinct h, List.isSome_idxOf?]

/-- The objects of the same fields in another order are equal. -/
theorem equals_ofDistinct_of_perm {fields' : List (Atom × Value)} (h : (fieldKeys fields).Nodup)
    (hbuilt : ∀ field ∈ fields, field.2.Built) (hperm : fields'.Perm fields) :
    (ofDistinct tag fields).equals (ofDistinct tag fields') = true ∧
      (ofDistinct tag fields').equals (ofDistinct tag fields) = true := by
  have h' : (fieldKeys fields').Nodup := (hperm.map _).nodup_iff.mpr h
  have hobject : Value.Built (.object tag fields) := by
    rw [← distinctFields_of_nodup h]
    exact .ofFields hbuilt
  have hobject' : Value.Built (.object tag fields') := by
    rw [← distinctFields_of_nodup h']
    exact .ofFields fun field hfield => hbuilt field (hperm.mem_iff.mp hfield)
  rw [equals_ofDistinct h, equals_ofDistinct h']
  exact ⟨Value.deepEqual_of_perm hobject hobject' hperm.symm,
    Value.deepEqual_of_perm hobject' hobject hperm⟩

/-- Objects are maps in order of insertion in which the last write wins. Whatever fields an object
is built of, every write finds its place; the keys are those of the fields in order of their first
mention; every key has its position among them, and under it the value of its last mention; and the
fields that the object lists are its keys with these values. The object of these is the same one,
and if they are put in any other order the two objects are equal. -/
theorem objects_are_insertion_ordered_maps (tag : Atom) (fields : List (Atom × Value)) :
    ∃ o, ofFields? tag fields = some o ∧ o.tag = tag ∧
      o.keys = (fieldKeys fields).eraseDups ∧ o.size = o.keys.length ∧
      (∀ key,
        (∀ value, o.get? key = some value ↔ LastMention fields key value) ∧
        (o.get? key = none ↔ ¬ ∃ value, (key, value) ∈ fields) ∧
        (o.hasKey key = true ↔ key ∈ o.keys) ∧
        o.layout.index? key = o.keys.idxOf? key) ∧
      o.fields.map (fun field => (field.1, some field.2)) =
        o.keys.map (fun key => (key, o.get? key)) ∧
      o.value = Value.ofFields tag fields ∧
      ofFields? tag o.fields = some o ∧
      ((∀ field ∈ fields, field.2.Built) → ∀ fields', fields'.Perm o.fields →
        ∃ o', ofFields? tag fields' = some o' ∧ o'.fields = fields' ∧
          o.equals o' = true ∧ o'.equals o = true) := by
  have hnodup := nodup_fieldKeys_distinctFields fields
  have hkeys := fieldKeys_distinctFields fields
  refine ⟨ofDistinct tag (distinctFields fields), ofFields?_eq tag fields, rfl, ?_, ?_, fun key => ?_,
    ?_, ?_, ?_, fun hbuilt fields' hperm => ?_⟩
  · rw [keys_ofDistinct, hkeys]
  · rw [size_ofDistinct, keys_ofDistinct, fieldKeys, List.length_map]
  · rw [get?_ofDistinct hnodup, getField?_distinctFields, hasKey_ofDistinct hnodup,
      index?_ofDistinct hnodup, keys_ofDistinct, getField?_reverse_eq_none_iff]
    exact ⟨fun value => getField?_reverse_eq_some_iff, Iff.rfl, Iff.rfl, rfl⟩
  · simp only [fields_ofDistinct, keys_ofDistinct, get?_ofDistinct hnodup]
    exact map_fields_eq_map_keys hnodup
  · rw [value, fields_ofDistinct]
    rfl
  · rw [fields_ofDistinct, ofFields?_eq, distinctFields_of_nodup hnodup]
  · rw [fields_ofDistinct] at hperm
    have hnodup' : (fieldKeys fields').Nodup := (hperm.map _).nodup_iff.mpr hnodup
    refine ⟨ofDistinct tag fields', ?_, fields_ofDistinct, ?_⟩
    · rw [ofFields?_eq, distinctFields_of_nodup hnodup']
    · exact equals_ofDistinct_of_perm hnodup
        (fun field hfield => hbuilt field (mem_of_mem_distinctFields hfield)) hperm

/-- A key that is mentioned twice keeps its place and takes the later value. -/
theorem objects_are_insertion_ordered_maps_overwritten :
    ∃ o o', ofFields? ⟨"Point"⟩ [(⟨"x"⟩, .int 1), (⟨"y"⟩, .nil), (⟨"x"⟩, .int 2)] = some o ∧
      o.fields = [(⟨"x"⟩, .int 2), (⟨"y"⟩, .nil)] ∧
      ofFields? ⟨"Point"⟩ [(⟨"y"⟩, .nil), (⟨"x"⟩, .int 2)] = some o' ∧
      o.equals o' = true ∧ o'.equals o = true := by
  obtain ⟨o, ho, -, -, -, -, -, hvalue, -, hperm⟩ := objects_are_insertion_ordered_maps ⟨"Point"⟩
    [(⟨"x"⟩, .int 1), (⟨"y"⟩, .nil), (⟨"x"⟩, .int 2)]
  have hfields : o.fields = [(⟨"x"⟩, .int 2), (⟨"y"⟩, .nil)] := by
    rw [ObjectRecord.value, Value.ofFields, Value.object.injEq] at hvalue
    rw [hvalue.2]
    rfl
  have hbuilt : ∀ field ∈ [(Atom.mk "x", Value.int 1), (⟨"y"⟩, .nil), (⟨"x"⟩, .int 2)],
      field.2.Built := by
    simp only [List.forall_mem_cons]
    exact ⟨.int 1, .nil, .int 2, by simp⟩
  obtain ⟨o', ho', -, hequal⟩ := hperm hbuilt [(⟨"y"⟩, .nil), (⟨"x"⟩, .int 2)]
    (hfields ▸ List.Perm.swap _ _ [])
  exact ⟨o, o', ho, hfields, ho', hequal⟩

end ObjectRecord

end ClauseMatch
