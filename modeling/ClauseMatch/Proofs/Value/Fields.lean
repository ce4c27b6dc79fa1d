import ClauseMatch.Value.Fields
import Mathlib.Data.List.Induction
import Mathlib.Data.List.Nodup

/-!
# Fields with distinct keys

Setting a key never makes two fields with the same key, so the fields that an object is built with
have distinct keys. With distinct keys a field is found by its key, wherever it stands. The keys of
an object stand in the order of their first mention, and the value of each is that of the last.
-/

namespace ClauseMatch

variable {α : Type} {fields : List (Atom × α)} {key : Atom} {value : α}

/-- What is found under a key is a field. -/
theorem mem_of_getField?_eq_some (h : getField? fields key = some value) :
    (key, value) ∈ fields := by
  obtain ⟨before, after, hfields, -⟩ := List.lookup_eq_some_iff.mp h
  rw [hfields]
  simp

theorem getField?_eq_some_of_mem (hkeys : (fieldKeys fields).Nodup) (h : (key, value) ∈ fields) :
    getField? fields key = some value := by
  obtain ⟨before, after, hfields⟩ := List.append_of_mem h
  refine List.lookup_eq_some_iff.mpr ⟨before, after, hfields, ?_⟩
  intro field hfield
  have hkeys' : (fieldKeys before ++ key :: fieldKeys after).Nodup := by
    simpa [fieldKeys, hfields] using hkeys
  have hne : field.1 ≠ key := by
    intro heq
    have hmem : key ∈ fieldKeys before := heq ▸ List.mem_map_of_mem hfield
    exact (List.nodup_append.mp hkeys').2.2 key hmem key List.mem_cons_self rfl
  simpa using hne.symm

/-! ## Setting keys -/

theorem fieldKeys_putField (key : Atom) (value : α) (fields : List (Atom × α)) :
    fieldKeys (putField key value fields) =
      if key ∈ fieldKeys fields then fieldKeys fields else fieldKeys fields ++ [key] := by
  induction fields with
  | nil => simp [putField, fieldKeys]
  | cons field rest ih =>
    obtain ⟨k, v⟩ := field
    by_cases hk : k = key
    · simp [putField, fieldKeys, hk]
    · have hne : key ≠ k := Ne.symm hk
      have hput : fieldKeys (putField key value ((k, v) :: rest)) =
          k :: fieldKeys (putField key value rest) := by
        simp [putField, hk, fieldKeys]
      have hcons : fieldKeys ((k, v) :: rest) = k :: fieldKeys rest := rfl
      rw [hput, ih, hcons]
      by_cases hmem : key ∈ fieldKeys rest
      · simp [hmem]
      · simp [hmem, hne]

theorem nodup_fieldKeys_putField (h : (fieldKeys fields).Nodup) (key : Atom) (value : α) :
    (fieldKeys (putField key value fields)).Nodup := by
  rw [fieldKeys_putField]
  split
  · exact h
  · rename_i hmem
    refine List.nodup_append.mpr ⟨h, List.nodup_singleton key, ?_⟩
    intro k hk other hother
    rw [List.mem_singleton] at hother
    rintro rfl
    exact hmem (hother ▸ hk)

theorem mem_of_mem_putField {field : Atom × α} (h : field ∈ putField key value fields) :
    field = (key, value) ∨ field ∈ fields := by
  induction fields with
  | nil =>
    left
    simpa [putField] using h
  | cons first rest ih =>
    obtain ⟨k, v⟩ := first
    by_cases hk : k = key
    · subst hk
      simp only [putField, if_true, List.mem_cons] at h
      rcases h with rfl | hrest
      · exact Or.inl rfl
      · exact Or.inr (List.mem_cons_of_mem _ hrest)
    · simp only [putField, if_neg hk, List.mem_cons] at h
      rcases h with rfl | hrest
      · exact Or.inr List.mem_cons_self
      · rcases ih hrest with heq | hmem
        · exact Or.inl heq
        · exact Or.inr (List.mem_cons_of_mem _ hmem)

/-! ## Building fields -/

/-- The keys of an object are distinct. -/
theorem nodup_fieldKeys_distinctFields (fields : List (Atom × α)) :
    (fieldKeys (distinctFields fields)).Nodup := by
  have hfold : ∀ done : List (Atom × α), (fieldKeys done).Nodup →
      (fieldKeys (fields.foldl (fun done field => putField field.1 field.2 done) done)).Nodup := by
    induction fields with
    | nil => exact fun done h => h
    | cons field fields ih =>
      intro done h
      exact ih _ (nodup_fieldKeys_putField h field.1 field.2)
  exact hfold [] List.nodup_nil

/-- An object has no field that it was not given. -/
theorem mem_of_mem_distinctFields {field : Atom × α} (h : field ∈ distinctFields fields) :
    field ∈ fields := by
  have hfold : ∀ done : List (Atom × α),
      field ∈ fields.foldl (fun done field => putField field.1 field.2 done) done →
        field ∈ done ∨ field ∈ fields := by
    clear h
    induction fields with
    | nil => exact fun done h => Or.inl h
    | cons first fields ih =>
      intro done h
      rcases ih _ h with hdone | hfields
      · rcases mem_of_mem_putField hdone with rfl | hold
        · exact Or.inr List.mem_cons_self
        · exact Or.inl hold
      · exact Or.inr (List.mem_cons_of_mem _ hfields)
  rcases hfold [] h with hnil | hfields
  · exact absurd hnil List.not_mem_nil
  · exact hfields

/-! ## First and last mentions -/

/-- A new key goes to the end. -/
theorem putField_of_not_mem (h : key ∉ fieldKeys fields) :
    putField key value fields = fields ++ [(key, value)] := by
  induction fields with
  | nil => rfl
  | cons field rest ih =>
    obtain ⟨k, v⟩ := field
    have hkeys : key ≠ k ∧ key ∉ fieldKeys rest := by simpa [fieldKeys] using h
    rw [putField, if_neg hkeys.1.symm, ih hkeys.2, List.cons_append]

theorem getField?_putField (other : Atom) :
    getField? (putField key value fields) other =
      if key = other then some value else getField? fields other := by
  induction fields with
  | nil =>
    by_cases hother : key = other
    · simp [putField, getField?, hother]
    · simp [putField, getField?, hother, Ne.symm hother]
  | cons field rest ih =>
    obtain ⟨k, v⟩ := field
    simp only [getField?] at ih ⊢
    by_cases hk : k = key
    · rw [putField, if_pos hk, List.lookup_cons, List.lookup_cons, hk]
      by_cases hother : key = other
      · simp [hother]
      · have hne : (other == key) = false := beq_false_of_ne (Ne.symm hother)
        simp [hother, hne]
    · rw [putField, if_neg hk, List.lookup_cons, List.lookup_cons, ih]
      by_cases hother : key = other
      · have hne : (other == k) = false := beq_false_of_ne (hother ▸ Ne.symm hk)
        simp [hother, hne]
      · simp [hother]

/-- One more mention sets its key. -/
theorem distinctFields_concat (fields : List (Atom × α)) (field : Atom × α) :
    distinctFields (fields ++ [field]) = putField field.1 field.2 (distinctFields fields) := by
  simp [distinctFields]

theorem fieldKeys_distinctFields (fields : List (Atom × α)) :
    fieldKeys (distinctFields fields) = (fieldKeys fields).eraseDups := by
  induction fields using List.reverseRecOn with
  | nil => rfl
  | append_singleton fields field ih =>
    have hkeys : fieldKeys (fields ++ [field]) = fieldKeys fields ++ [field.1] := by
      simp [fieldKeys]
    rw [distinctFields_concat, fieldKeys_putField, ih, hkeys, List.eraseDups_append]
    by_cases hmem : field.1 ∈ fieldKeys fields
    · simp [hmem, List.removeAll]
    · simp [hmem, List.removeAll, List.eraseDups_cons]

theorem getField?_distinctFields (fields : List (Atom × α)) (key : Atom) :
    getField? (distinctFields fields) key = getField? fields.reverse key := by
  induction fields using List.reverseRecOn with
  | nil => rfl
  | append_singleton fields field ih =>
    rw [distinctFields_concat, getField?_putField, ih, List.reverse_append, List.reverse_singleton,
      List.singleton_append, getField?, getField?, List.lookup_cons]
    by_cases hkey : field.1 = key
    · simp [hkey]
    · have hne : (key == field.1) = false := beq_false_of_ne (Ne.symm hkey)
      simp [hkey, hne]

/-- Fields with distinct keys are kept as they are. -/
theorem distinctFields_of_nodup (h : (fieldKeys fields).Nodup) : distinctFields fields = fields := by
  induction fields using List.reverseRecOn with
  | nil => rfl
  | append_singleton fields field ih =>
    have hkeys : (fieldKeys fields ++ [field.1]).Nodup := by simpa [fieldKeys] using h
    obtain ⟨hnodup, -, hdisjoint⟩ := List.nodup_append.mp hkeys
    have hnew : field.1 ∉ fieldKeys fields := fun hmem =>
      hdisjoint field.1 hmem field.1 List.mem_cons_self rfl
    rw [distinctFields_concat, ih hnodup, putField_of_not_mem hnew]

end ClauseMatch
