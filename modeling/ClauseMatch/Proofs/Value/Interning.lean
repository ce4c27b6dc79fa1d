import ClauseMatch.Value.Interning
import Mathlib.Data.Finset.Card

/-!
# Interning is a stable bijection

A table numbers its names if each of its names has one number, and each number one name. Inserting a
missing name keeps this up, and the insertion makes sure itself that the name is missing, so that it
does not matter what happened since the search. Tables only grow; an atom that has been handed out
keeps its name.
-/

namespace ClauseMatch

namespace AtomTable

variable {t : AtomTable} {name : String}

/-- Names and numbers of a table belong together, one of each. -/
def Numbers (t : AtomTable) : Prop :=
  ∀ name number, t.number? name = some number ↔ t.name? number = some name

theorem name?_eq_some_iff {number : Nat} :
    t.name? number = some name ↔ t.names.toList[number]? = some name := by
  rw [name?, Array.getElem?_toList]

theorem lt_size_of_name? {number : Nat} (h : t.name? number = some name) :
    number < t.names.size :=
  (Array.getElem?_eq_some_iff.mp h).1

theorem Numbers.number?_eq_none_iff (h : t.Numbers) :
    t.number? name = none ↔ name ∉ t.names.toList := by
  constructor
  · intro hnone hmem
    obtain ⟨number, hnumber⟩ := List.mem_iff_getElem?.mp hmem
    have hsome : t.number? name = some number := (h name number).mpr (name?_eq_some_iff.mpr hnumber)
    simp [hnone] at hsome
  · intro hmem
    cases hnumber : t.number? name with
    | none => rfl
    | some number =>
      have hname := name?_eq_some_iff.mp ((h name number).mp hnumber)
      exact absurd (List.mem_of_getElem? hname) hmem

/-- A table that numbers its names holds none of them twice. -/
theorem Numbers.nodup (h : t.Numbers) : t.names.toList.Nodup := by
  rw [List.nodup_iff_getElem?_ne_getElem?]
  intro i j hij hj heq
  obtain ⟨name, hname⟩ : ∃ name, t.names.toList[j]? = some name :=
    ⟨_, List.getElem?_eq_getElem hj⟩
  have hnumber := (h name j).mpr (name?_eq_some_iff.mpr hname)
  have hnumber' := (h name i).mpr (name?_eq_some_iff.mpr (heq.trans hname))
  have hequal : i = j := Option.some.inj (hnumber'.symm.trans hnumber)
  omega

/-! ## Inserting -/

/-- The table with a further name. -/
def extended (t : AtomTable) (name : String) : AtomTable :=
  ⟨t.names.push name, t.numbers.insert name t.names.size⟩

theorem insert_of_none (h : t.number? name = none) :
    t.insert name = (t.extended name, t.names.size) := by
  simp [insert, h, extended]

theorem number?_extended (t : AtomTable) (name other : String) :
    (t.extended name).number? other =
      if name = other then some t.names.size else t.number? other := by
  simp [number?, extended, Std.HashMap.getElem?_insert]

theorem name?_extended (t : AtomTable) (name : String) (number : Nat) :
    (t.extended name).name? number =
      if number = t.names.size then some name else t.name? number := by
  simp [name?, extended, Array.getElem?_push]

theorem toList_names_extended (t : AtomTable) (name : String) :
    (t.extended name).names.toList = t.names.toList ++ [name] :=
  Array.toList_push

theorem Numbers.extended (h : t.Numbers) (hname : t.number? name = none) :
    (t.extended name).Numbers := by
  intro other number
  rw [number?_extended, name?_extended]
  by_cases hother : name = other
  · subst hother
    by_cases hnumber : number = t.names.size
    · simp [hnumber]
    · have hmissing : t.name? number ≠ some name := fun hsome => by
        simp [(h name number).mpr hsome] at hname
      simp [hnumber, hmissing, eq_comm]
  · by_cases hnumber : number = t.names.size
    · have hfree : t.number? other ≠ some number := fun hsome =>
        absurd (lt_size_of_name? ((h other number).mp hsome)) (by omega)
      rw [if_neg hother, if_pos hnumber, Option.some_inj]
      exact iff_of_false hfree hother
    · simp [hother, hnumber, h other number]

/-- New names in a row get the next numbers. -/
theorem Numbers.insertAll (h : t.Numbers) {names : List String}
    (hnodup : (t.names.toList ++ names).Nodup) :
    (names.foldl (fun t name => (t.insert name).1) t).Numbers ∧
      (names.foldl (fun t name => (t.insert name).1) t).names.toList =
        t.names.toList ++ names := by
  induction names generalizing t with
  | nil => exact ⟨h, (List.append_nil _).symm⟩
  | cons name names ih =>
    have hname : t.number? name = none := by
      rw [h.number?_eq_none_iff]
      intro hmem
      exact (List.nodup_append.mp hnodup).2.2 name hmem name List.mem_cons_self rfl
    rw [List.foldl_cons, insert_of_none hname]
    have hnames : (t.extended name).names.toList ++ names = t.names.toList ++ name :: names := by
      rw [toList_names_extended, List.append_assoc, List.singleton_append]
    rw [← hnames] at hnodup ⊢
    exact ih (h.extended hname) hnodup

theorem numbers_initial : initial.Numbers ∧ initial.names.toList = Atom.predefined := by
  have hempty : Numbers ⟨#[], ∅⟩ := by
    intro name number
    simp [number?, name?]
  exact hempty.insertAll (by decide)

theorem size_initial : initial.names.size = 6 := by
  rw [← Array.length_toList, numbers_initial.2]
  rfl

/-! ## Handles -/

/-- A table numbers its names, and there are handles enough for them. -/
structure Sound (t : AtomTable) : Prop where
  numbers : t.Numbers
  size_le : t.names.size ≤ UInt32.size

theorem sound_initial : initial.Sound := ⟨numbers_initial.1, by rw [size_initial]; decide⟩

theorem toNat_ofNumber {number : Nat} (h : number < UInt32.size) :
    (AtomHandle.ofNumber number).raw.toNat = number :=
  UInt32.toNat_ofNat_of_lt' h

theorem Sound.handle?_eq_some_iff (h : t.Sound) {handle : AtomHandle} :
    t.handle? name = some handle ↔ t.name? handle.raw.toNat = some name := by
  have hsize := h.size_le
  rw [handle?, Option.map_eq_some_iff, ← h.numbers name]
  constructor
  · rintro ⟨number, hnumber, rfl⟩
    have hlt := lt_size_of_name? ((h.numbers name number).mp hnumber)
    rw [toNat_ofNumber (by omega)]
    exact hnumber
  · intro hnumber
    exact ⟨_, hnumber, by rw [AtomHandle.ofNumber, UInt32.ofNat_toNat]⟩

theorem handle?_eq_none_iff : t.handle? name = none ↔ t.number? name = none :=
  Option.map_eq_none_iff

/-- What can happen to a name that is to be inserted. -/
inductive Entered (t : AtomTable) (name : String) :
    AtomTable × Except AtomError AtomHandle → Prop where
  | found {handle : AtomHandle} (h : t.handle? name = some handle) :
    Entered t name (t, .ok handle)
  | added (hname : t.number? name = none) (hroom : t.names.size < UInt32.size) :
    Entered t name (t.extended name, .ok (.ofNumber t.names.size))
  | refused (hname : t.number? name = none) (hfull : UInt32.size ≤ t.names.size) :
    Entered t name (t, .error (.tableOverflow t.names.size))

theorem entered (t : AtomTable) (name : String) : Entered t name (t.enter name) := by
  unfold enter
  cases hhandle : t.handle? name with
  | some handle => exact .found hhandle
  | none =>
    have hname := handle?_eq_none_iff.mp hhandle
    rw [insert_of_none hname]
    by_cases hroom : t.names.size < UInt32.size
    · simp only [if_pos hroom]
      exact .added hname hroom
    · simp only [if_neg hroom]
      exact .refused hname (by omega)

/-- An insertion leaves the table as it is, or adds the missing name. -/
theorem table_enter_cases (t : AtomTable) (name : String) :
    (t.enter name).1 = t ∨
    (t.enter name).1 = t.extended name ∧ t.number? name = none ∧ t.names.size < UInt32.size := by
  have hentered := entered t name
  generalize t.enter name = outcome at hentered
  cases hentered with
  | found | refused => exact Or.inl rfl
  | added hname hroom => exact Or.inr ⟨rfl, hname, hroom⟩

theorem Sound.enter (h : t.Sound) (name : String) : (t.enter name).1.Sound := by
  rcases table_enter_cases t name with hsame | ⟨hadded, hname, hroom⟩
  · rwa [hsame]
  · rw [hadded]
    refine ⟨h.numbers.extended hname, ?_⟩
    rw [extended, Array.size_push]
    omega

/-- Names keep their numbers, whatever is inserted. -/
theorem names_enter_extends (t : AtomTable) (name : String) :
    t.names.toList <+: (t.enter name).1.names.toList := by
  rcases table_enter_cases t name with hsame | ⟨hadded, -, -⟩
  · rw [hsame]
  · rw [hadded, toList_names_extended]
    exact List.prefix_append _ _

theorem mem_names_enter {other : String} (h : other ∈ (t.enter name).1.names.toList) :
    other ∈ t.names.toList ∨ other = name := by
  rcases table_enter_cases t name with hsame | ⟨hadded, -, -⟩
  · rw [hsame] at h
    exact Or.inl h
  · rwa [hadded, toList_names_extended, List.mem_append, List.mem_singleton] at h

theorem name?_of_extends {t' : AtomTable} (hextends : t.names.toList <+: t'.names.toList)
    {number : Nat} (h : t.name? number = some name) : t'.name? number = some name := by
  rw [name?_eq_some_iff] at h ⊢
  obtain ⟨rest, hrest⟩ := hextends
  have hlt := (List.getElem?_eq_some_iff.mp h).1
  rw [← hrest, List.getElem?_append_left hlt, h]

/-- With handles left, inserting a name is interning it. -/
theorem enter_eq_intern (hroom : t.names.size < UInt32.size) (name : String) :
    t.enter name = ((t.intern name).1, .ok (.ofNumber (t.intern name).2)) := by
  unfold enter intern handle?
  cases hname : t.number? name with
  | some number => rfl
  | none => simp [hroom]

end AtomTable

/-! ## Calls -/

/-- What is known of a call: that it has been handed an atom with its name, or else that its name is
not a predefined one, and, if it was refused, that more names are in use than there are handles. -/
def InternCall.Justified (t : AtomTable) (asked : List String) : InternCall → Prop
  | ⟨name, .waiting⟩ => name ∉ Atom.predefined
  | ⟨name, .ended (.ok handle)⟩ => t.name? handle.raw.toNat = some name
  | ⟨name, .ended (.error _)⟩ => name ∉ Atom.predefined ∧ UInt32.size < asked.toFinset.card

theorem InternCall.Justified.mono {t t' : AtomTable} {asked asked' : List String} {c : InternCall}
    (h : c.Justified t asked) (ht : t.names.toList <+: t'.names.toList) (hasked : asked ⊆ asked') :
    c.Justified t' asked' := by
  obtain ⟨name, stage⟩ := c
  match stage, h with
  | .waiting, h => exact h
  | .ended (.ok handle), h => exact AtomTable.name?_of_extends ht h
  | .ended (.error cause), ⟨hname, hcard⟩ =>
    have hsubset : asked.toFinset ⊆ asked'.toFinset := fun name hmem =>
      List.mem_toFinset.mpr (hasked (List.mem_toFinset.mp hmem))
    exact ⟨hname, hcard.trans_le (Finset.card_le_card hsubset)⟩

namespace Interning

variable {s : Interning}

/-- The names that the table started with and those that calls have asked for. -/
def asked (s : Interning) : List String := Atom.predefined ++ s.calls.map InternCall.name

/-- What holds after every step: the table numbers its names, which are the predefined ones and then
others that calls have asked for, and every call is justified. -/
structure Sound (s : Interning) : Prop where
  table : s.table.Sound
  predefined : Atom.predefined <+: s.table.names.toList
  names_subset : s.table.names.toList ⊆ s.asked
  calls : ∀ c ∈ s.calls, c.Justified s.table s.asked

theorem sound_initial : initial.Sound := by
  have hnames : initial.table.names.toList = Atom.predefined := AtomTable.numbers_initial.2
  refine ⟨AtomTable.sound_initial, hnames ▸ List.prefix_refl _, ?_, by simp [initial]⟩
  rw [hnames]
  exact List.subset_append_left _ _

theorem Sound.not_mem_predefined (h : s.Sound) {name : String}
    (hname : s.table.number? name = none) : name ∉ Atom.predefined := fun hmem =>
  h.table.numbers.number?_eq_none_iff.mp hname (h.predefined.subset hmem)

theorem Sound.search (h : s.Sound) (name : String) : (s.step (.search name)).Sound := by
  have hasked : s.asked ⊆ (s.step (.search name)).asked := by
    have hcalls : s.calls ⊆ (s.step (.search name)).calls := List.subset_append_left _ _
    exact List.append_subset.mpr ⟨List.subset_append_left _ _,
      List.Subset.trans (List.map_subset InternCall.name hcalls) (List.subset_append_right _ _)⟩
  refine ⟨h.table, h.predefined, fun other hother => hasked (h.names_subset hother), ?_⟩
  intro c hc
  rcases List.mem_append.mp hc with hc | hc
  · exact (h.calls c hc).mono (List.prefix_refl _) hasked
  · obtain rfl := List.mem_singleton.mp hc
    unfold found
    cases hhandle : s.table.handle? name with
    | some handle => exact h.table.handle?_eq_some_iff.mp hhandle
    | none => exact h.not_mem_predefined (AtomTable.handle?_eq_none_iff.mp hhandle)

theorem step_insert_of_waiting {position : Nat} {name : String}
    (h : s.calls[position]? = some ⟨name, .waiting⟩) :
    s.step (.insert position) = ⟨(s.table.enter name).1,
      s.calls.set position ⟨name, .ended (s.table.enter name).2⟩⟩ := by
  simp only [step, h]

theorem step_insert_of_ended {position : Nat} {name : String} {result : Except AtomError AtomHandle}
    (h : s.calls[position]? = some ⟨name, .ended result⟩) : s.step (.insert position) = s := by
  simp only [step, h]

/-- An insertion is taken by a waiting call, or changes nothing. -/
theorem step_insert_cases (s : Interning) (position : Nat) :
    (∃ name, s.calls[position]? = some ⟨name, .waiting⟩) ∨ s.step (.insert position) = s := by
  simp only [step]
  split
  · rename_i name hcall
    exact Or.inl ⟨name, hcall⟩
  · exact Or.inr rfl

theorem map_name_set {calls : List InternCall} {position : Nat} {c c' : InternCall}
    (h : calls[position]? = some c) (hname : c'.name = c.name) :
    (calls.set position c').map InternCall.name = calls.map InternCall.name := by
  have hplace : (calls.map InternCall.name)[position]? = some c'.name := by
    rw [List.getElem?_map, h, hname, Option.map_some]
  obtain ⟨_, hsame⟩ := List.getElem?_eq_some_iff.mp hplace
  rw [List.map_set, ← hsame, List.set_getElem_self]

/-- The result of an insertion is justified by the table that it leaves. -/
theorem Sound.justified_enter (h : s.Sound) {name : String} (hasked : name ∈ s.asked) :
    InternCall.Justified (s.table.enter name).1 s.asked
      ⟨name, .ended (s.table.enter name).2⟩ := by
  have hentered := s.table.entered name
  generalize s.table.enter name = outcome at hentered
  cases hentered with
  | found hhandle => exact h.table.handle?_eq_some_iff.mp hhandle
  | added hname hroom =>
    change (s.table.extended name).name? (AtomHandle.ofNumber s.table.names.size).raw.toNat =
      some name
    rw [AtomTable.toNat_ofNumber hroom, AtomTable.name?_extended, if_pos rfl]
  | refused hname hfull =>
    -- The names of the full table are all in use, and the refused one besides.
    refine ⟨h.not_mem_predefined hname, ?_⟩
    have hmissing := h.table.numbers.number?_eq_none_iff.mp hname
    have hnodup : (name :: s.table.names.toList).Nodup :=
      List.nodup_cons.mpr ⟨hmissing, h.table.numbers.nodup⟩
    have hsubset : (name :: s.table.names.toList).toFinset ⊆ s.asked.toFinset := by
      intro other hother
      rcases List.mem_cons.mp (List.mem_toFinset.mp hother) with rfl | hother
      · exact List.mem_toFinset.mpr hasked
      · exact List.mem_toFinset.mpr (h.names_subset hother)
    have hcard := Finset.card_le_card hsubset
    rw [List.toFinset_card_of_nodup hnodup, List.length_cons, Array.length_toList] at hcard
    omega

theorem Sound.insert (h : s.Sound) (position : Nat) :
    (s.step (.insert position)).Sound ∧ (s.step (.insert position)).asked = s.asked := by
  rcases step_insert_cases s position with ⟨name, hcall⟩ | hstep
  · rw [step_insert_of_waiting hcall]
    have hasked : asked ⟨(s.table.enter name).1,
        s.calls.set position ⟨name, .ended (s.table.enter name).2⟩⟩ = s.asked :=
      congrArg (Atom.predefined ++ ·) (map_name_set hcall rfl)
    have hname : name ∈ s.asked :=
      List.mem_append_right _ (List.mem_map.mpr ⟨_, List.mem_of_getElem? hcall, rfl⟩)
    have hgrown := s.table.names_enter_extends name
    refine ⟨⟨h.table.enter name, h.predefined.trans hgrown, ?_, ?_⟩, hasked⟩
    · intro other hother
      rw [hasked]
      rcases AtomTable.mem_names_enter hother with hother | rfl
      · exact h.names_subset hother
      · exact hname
    · intro c hc
      rw [hasked]
      rcases List.mem_or_eq_of_mem_set hc with hc | rfl
      · exact (h.calls c hc).mono hgrown (List.Subset.refl _)
      · exact h.justified_enter hname
  · rw [hstep]
    exact ⟨h, rfl⟩

/-- One step of any call preserves what holds of the table and the calls. -/
theorem Sound.step (h : s.Sound) (next : InternStep) : (s.step next).Sound := by
  cases next with
  | search name => exact h.search name
  | insert position => exact (h.insert position).1

theorem Sound.run (h : s.Sound) (steps : List InternStep) : (s.run steps).Sound := by
  induction steps generalizing s with
  | nil => exact h
  | cons next steps ih => exact ih (h.step next)

/-- A call whose second step follows at once interns its name. -/
theorem run_undisturbed (s : Interning) (hroom : s.table.names.size < UInt32.size)
    (name : String) : s.run [.search name, .insert s.calls.length] =
      ⟨(s.table.intern name).1,
        s.calls ++ [⟨name, .ended (.ok (.ofNumber (s.table.intern name).2))⟩]⟩ := by
  have hcall : (s.step (.search name)).calls[s.calls.length]? =
      some ⟨name, found s.table name⟩ := List.getElem?_concat_length
  change (s.step (.search name)).step (.insert s.calls.length) = _
  cases hnumber : s.table.number? name with
  | some number =>
    have hfound : found s.table name = .ended (.ok (.ofNumber number)) := by
      simp [found, AtomTable.handle?, hnumber]
    have hintern : s.table.intern name = (s.table, number) := by
      simp [AtomTable.intern, hnumber]
    rw [hfound] at hcall
    rw [step_insert_of_ended hcall, hintern, step, hfound]
  | none =>
    have hfound : found s.table name = .waiting := by
      simp [found, AtomTable.handle?, hnumber]
    rw [hfound] at hcall
    rw [step_insert_of_waiting hcall]
    simp [step, AtomTable.enter_eq_intern hroom]

/-! ## Calls that have ended -/

/-- A call that has ended is not changed by later steps of other calls. -/
theorem getElem?_step_of_ended {position : Nat} {c : InternCall}
    {result : Except AtomError AtomHandle} (h : s.calls[position]? = some c)
    (hended : c.stage = .ended result) (next : InternStep) :
    (s.step next).calls[position]? = some c := by
  cases next with
  | search name =>
    have hlt := (List.getElem?_eq_some_iff.mp h).1
    exact (List.getElem?_append_left hlt).trans h
  | insert position' =>
    rcases step_insert_cases s position' with ⟨name, hcall⟩ | hstep
    · have hne : position' ≠ position := by
        rintro rfl
        obtain rfl := Option.some.inj (h.symm.trans hcall)
        cases hended
      rw [step_insert_of_waiting hcall]
      exact (List.getElem?_set_ne hne).trans h
    · rw [hstep, h]

theorem getElem?_run_of_ended {position : Nat} {c : InternCall}
    {result : Except AtomError AtomHandle} (h : s.calls[position]? = some c)
    (hended : c.stage = .ended result) (steps : List InternStep) :
    (s.run steps).calls[position]? = some c := by
  induction steps generalizing s with
  | nil => exact h
  | cons next steps ih => exact ih (getElem?_step_of_ended h hended next)

theorem Sound.name?_of_ended (h : s.Sound) {c : InternCall} {handle : AtomHandle}
    (hc : c ∈ s.calls) (hended : c.stage = .ended (.ok handle)) :
    s.table.name? handle.raw.toNat = some c.name := by
  obtain ⟨name, stage⟩ := c
  obtain rfl : stage = .ended (.ok handle) := hended
  exact h.calls _ hc

/-- Two calls have been handed one atom exactly if they asked for one name. -/
theorem Sound.handle_eq_iff (h : s.Sound) {c d : InternCall} {a b : AtomHandle}
    (hc : c ∈ s.calls) (hd : d ∈ s.calls) (ha : c.stage = .ended (.ok a))
    (hb : d.stage = .ended (.ok b)) : a = b ↔ c.name = d.name := by
  have hca := h.name?_of_ended hc ha
  have hdb := h.name?_of_ended hd hb
  constructor
  · rintro rfl
    exact Option.some.inj (hca.symm.trans hdb)
  · intro hname
    have hhandle := h.table.handle?_eq_some_iff.mpr hca
    have hhandle' := h.table.handle?_eq_some_iff.mpr hdb
    rw [hname] at hhandle
    exact Option.some.inj (hhandle.symm.trans hhandle')

theorem Sound.lookup_of_ended (h : s.Sound) {c : InternCall} {handle : AtomHandle}
    (hc : c ∈ s.calls) (hended : c.stage = .ended (.ok handle)) :
    s.table.lookup handle = c.name := by
  rw [AtomTable.lookup, h.name?_of_ended hc hended, Option.getD_some]

/-- A call for a predefined name has found the fixed handle of that name. -/
theorem Sound.stage_of_predefined (h : s.Sound) {c : InternCall} {handle : AtomHandle}
    (hc : c ∈ s.calls) (hpredefined : (c.name, handle) ∈ AtomHandle.predefined) :
    c.stage = .ended (.ok handle) := by
  have hfixed : ∀ entry ∈ AtomHandle.predefined,
      Atom.predefined[entry.2.raw.toNat]? = some entry.1 := by decide
  have hplace := hfixed _ hpredefined
  have hmem : c.name ∈ Atom.predefined := List.mem_of_getElem? hplace
  obtain ⟨name, stage⟩ := c
  match stage, h.calls _ hc with
  | .waiting, hjustified => exact absurd hmem hjustified
  | .ended (.error cause), hjustified => exact absurd hmem hjustified.1
  | .ended (.ok other), hjustified =>
    have hname : s.table.name? handle.raw.toNat = some name := by
      obtain ⟨rest, hrest⟩ := h.predefined
      have hlt := (List.getElem?_eq_some_iff.mp hplace).1
      rw [AtomTable.name?_eq_some_iff, ← hrest, List.getElem?_append_left hlt, hplace]
    have hother := h.table.handle?_eq_some_iff.mpr hjustified
    have hhandle := h.table.handle?_eq_some_iff.mpr hname
    rw [Option.some.inj (hother.symm.trans hhandle)]

/-- While there are handles for all names in use, no call is refused. -/
theorem Sound.stage_ne_error (h : s.Sound) (hcard : s.asked.toFinset.card ≤ UInt32.size)
    {c : InternCall} (hc : c ∈ s.calls) (cause : AtomError) : c.stage ≠ .ended (.error cause) := by
  intro hstage
  obtain ⟨name, stage⟩ := c
  obtain rfl : stage = .ended (.error cause) := hstage
  have hjustified := (h.calls _ hc).2
  omega

/-- A waiting call is handed an atom as soon as it takes its next step. -/
theorem Sound.exists_ended_of_waiting (h : s.Sound)
    (hcard : s.asked.toFinset.card ≤ UInt32.size) {position : Nat} {c : InternCall}
    (hc : s.calls[position]? = some c) (hwaiting : c.stage = .waiting) :
    ∃ handle, (s.step (.insert position)).calls[position]? =
      some ⟨c.name, .ended (.ok handle)⟩ := by
  obtain ⟨name, stage⟩ := c
  obtain rfl : stage = .waiting := hwaiting
  obtain ⟨hsound, hasked⟩ := h.insert position
  have hcall : (s.step (.insert position)).calls[position]? =
      some ⟨name, .ended (s.table.enter name).2⟩ := by
    rw [step_insert_of_waiting hc]
    exact List.getElem?_set_self (List.getElem?_eq_some_iff.mp hc).1
  cases hresult : (s.table.enter name).2 with
  | ok handle => exact ⟨handle, by rw [hcall, hresult]⟩
  | error cause =>
    rw [← hasked] at hcard
    exact absurd (by rw [hresult]) (hsound.stage_ne_error hcard (List.mem_of_getElem? hcall) cause)

/-! ## Any interleaving -/

/-- What some steps of some calls can lead to. -/
def Reachable (s : Interning) : Prop := ∃ steps, s = initial.run steps

theorem Reachable.sound (h : s.Reachable) : s.Sound := by
  obtain ⟨steps, rfl⟩ := h
  exact sound_initial.run steps

/-- However the steps of calls interleave, the table holds every name once and maps it to its place.
Calls are handed the same atom exactly if they ask for the same name, and an atom that has been
handed out keeps standing for its name. Calls for predefined names are handed their fixed atoms by
their searches. As long as there are no more names in use than there are handles, no call is
refused, and every call that waits needs only its next step. -/
theorem interning_is_a_stable_bijection (h : s.Reachable) :
    s.table.names.toList.Nodup ∧
    (∀ name number, s.table.number? name = some number ↔ s.table.name? number = some name) ∧
    (∀ name handle,
      s.table.handle? name = some handle ↔ s.table.name? handle.raw.toNat = some name) ∧
    (∀ c ∈ s.calls, ∀ d ∈ s.calls, ∀ a b, c.stage = .ended (.ok a) → d.stage = .ended (.ok b) →
      (a = b ↔ c.name = d.name)) ∧
    (∀ (position : Nat) (c : InternCall) (handle : AtomHandle) (more : List InternStep),
      s.calls[position]? = some c → c.stage = .ended (.ok handle) →
        (s.run more).calls[position]? = some c ∧ (s.run more).table.lookup handle = c.name) ∧
    (∀ c ∈ s.calls, ∀ handle, (c.name, handle) ∈ AtomHandle.predefined →
      c.stage = .ended (.ok handle)) ∧
    (s.asked.toFinset.card ≤ UInt32.size →
      (∀ c ∈ s.calls, ∀ cause, c.stage ≠ .ended (.error cause)) ∧
      ∀ (position : Nat) (c : InternCall), s.calls[position]? = some c → c.stage = .waiting →
        ∃ handle, (s.step (.insert position)).calls[position]? =
          some ⟨c.name, .ended (.ok handle)⟩) := by
  have hsound := h.sound
  refine ⟨hsound.table.numbers.nodup, hsound.table.numbers,
    fun _ _ => hsound.table.handle?_eq_some_iff,
    fun c hc d hd a b ha hb => hsound.handle_eq_iff hc hd ha hb, ?_,
    fun c hc handle hpredefined => hsound.stage_of_predefined hc hpredefined, ?_⟩
  · intro position c handle more hc hended
    have hlater := getElem?_run_of_ended hc hended more
    exact ⟨hlater, (hsound.run more).lookup_of_ended (List.mem_of_getElem? hlater) hended⟩
  · intro hcard
    exact ⟨fun c hc cause => hsound.stage_ne_error hcard hc cause,
      fun position c hc hwaiting => hsound.exists_ended_of_waiting hcard hc hwaiting⟩

/-- Two calls that both miss the name before either of them inserts it. -/
def race : List InternStep := [.search "a", .search "a", .insert 1, .insert 0]

theorem run_race : initial.run race =
    ⟨AtomTable.initial.extended "a", [⟨"a", .ended (.ok ⟨6⟩)⟩, ⟨"a", .ended (.ok ⟨6⟩)⟩]⟩ := by
  have hmissing : AtomTable.initial.number? "a" = none := by
    rw [AtomTable.numbers_initial.1.number?_eq_none_iff, AtomTable.numbers_initial.2]
    decide
  have hfirst : AtomTable.initial.enter "a" = (AtomTable.initial.extended "a", .ok ⟨6⟩) := by
    simp [AtomTable.enter, AtomTable.handle?, AtomTable.insert_of_none, hmissing,
      AtomTable.size_initial, AtomHandle.ofNumber, UInt32.size]
  have hsecond : (AtomTable.initial.extended "a").enter "a" =
      (AtomTable.initial.extended "a", .ok ⟨6⟩) := by
    simp [AtomTable.enter, AtomTable.handle?, AtomTable.number?_extended, AtomTable.size_initial,
      AtomHandle.ofNumber]
  simp [race, run, step, initial, found, AtomTable.handle?, hmissing, hfirst, hsecond]

/-- Calls that race for a name are handed one atom, which stands for the name ever after. -/
theorem interning_is_a_stable_bijection_race :
    (initial.run race).Reachable ∧
    (initial.run race).calls = [⟨"a", .ended (.ok ⟨6⟩)⟩, ⟨"a", .ended (.ok ⟨6⟩)⟩] ∧
    (initial.run race).table.names.toList.Nodup ∧
    ∀ more, ((initial.run race).run more).table.lookup ⟨6⟩ = "a" := by
  have hreachable : (initial.run race).Reachable := ⟨race, rfl⟩
  have hcalls : (initial.run race).calls =
      [⟨"a", .ended (.ok ⟨6⟩)⟩, ⟨"a", .ended (.ok ⟨6⟩)⟩] := by rw [run_race]
  have hcall : (initial.run race).calls[0]? = some ⟨"a", .ended (.ok ⟨6⟩)⟩ := by rw [run_race]; rfl
  obtain ⟨hnodup, -, -, -, hstable, -⟩ := interning_is_a_stable_bijection hreachable
  exact ⟨hreachable, hcalls, hnodup, fun more => (hstable 0 _ ⟨6⟩ more hcall rfl).2⟩

end Interning

end ClauseMatch
