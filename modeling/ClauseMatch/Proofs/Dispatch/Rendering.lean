import ClauseMatch.Proofs.Dispatch.FirstMatch
import ClauseMatch.Proofs.Pattern.OfValue
import ClauseMatch.Proofs.Value.Legible

/-!
# What clauses and errors show

Patterns are written by a printer of their own, which writes the pattern of a value as the value is
written. A clause with such patterns therefore shows the list of its values, and the error of a call
shows the list of the arguments without its brackets. With the brackets put back, the text of an
error tells the arguments if the text of a list tells the list.
-/

namespace ClauseMatch

open Value

variable {α : Type} {satisfies : Regex → String → Bool}

/-! ## The pattern of a value -/

namespace Pattern

theorem writeItems_map_ofValue {items : List Value}
    (hitems : ∀ v ∈ items, ∀ out, (ofValue v).write out = v.write .plain out) (out : String) :
    writeItems (items.map ofValue) out = Value.writeItems .plain items out := by
  induction items generalizing out with
  | nil => rfl
  | cons v items ih =>
    obtain ⟨hv, hmore⟩ := List.forall_mem_cons.mp hitems
    cases items with
    | nil => exact hv out
    | cons next items =>
      rw [List.map_cons, List.map_cons, writeItems, Value.writeItems, hv out]
      · exact ih hmore _
      · simp
      · simp

theorem writeFields_map_ofValue {fields : List (Atom × Value)}
    (hfields : ∀ field ∈ fields, ∀ out,
      (ofValue field.2).write out = field.2.write .plain out) (out : String) :
    writeFields (fields.map fun field => (field.1, ofValue field.2)) out =
      Value.writeFields .plain fields out := by
  have hkey (out : String) (key : Atom) :
      out ++ ValueStyle.plain.key key = out ++ key.name ++ ": " := String.append_assoc.symm
  induction fields generalizing out with
  | nil => rfl
  | cons field fields ih =>
    obtain ⟨key, v⟩ := field
    obtain ⟨hv, hmore⟩ := List.forall_mem_cons.mp hfields
    cases fields with
    | nil => rw [List.map_singleton, writeFields, Value.writeFields, hv, hkey]
    | cons next fields =>
      rw [List.map_cons, List.map_cons, writeFields, Value.writeFields, hv, hkey]
      · exact ih hmore _
      · simp
      · simp

/-- The pattern of a value is written as the value is. -/
theorem write_ofValue (v : Value) (out : String) : (ofValue v).write out = v.write .plain out := by
  induction v generalizing out with
  | list items ih => rw [ofValue_list, write, writeItems_map_ofValue ih]; rfl
  | tuple items ih => rw [ofValue_tuple, write, writeItems_map_ofValue ih]; rfl
  | object tag fields ih => rw [ofValue_object, write, writeFields_map_ofValue ih]; rfl
  | atom a => exact String.append_assoc
  | nil | bool | int | float | str | bitstring => rfl

theorem text_ofValue (v : Value) : (ofValue v).text = v.text := write_ofValue v ""

end Pattern

/-- The clause that asks for the given arguments. -/
def Clause.ofValues (values : List Value) (handler : Bindings → α) : Clause α :=
  .ofPatterns (values.map Pattern.ofValue) handler

namespace Clause

variable {values args : List Value} {handler : Bindings → α}

theorem text_pattern_ofValues :
    (ofValues values handler).pattern.text = (Value.list values).text := by
  have hpattern : (ofValues values handler).pattern = .ofValue (.list values) :=
    (Pattern.ofValue_list values).symm
  rw [hpattern, Pattern.text_ofValue]

theorem debugText_ofValues :
    (ofValues values handler).debugText =
      "Clause \x7b pattern: " ++ (Value.list values).text ++ ", guarded: false, .. \x7d" := by
  have hrest : ", guarded: " ++ (boolText false ++ ", .. \x7d") = ", guarded: false, .. \x7d" := by
    decide
  calc (ofValues values handler).debugText
      = "Clause \x7b pattern: " ++ (ofValues values handler).pattern.text ++ ", guarded: " ++
          boolText false ++ ", .. \x7d" := rfl
    _ = "Clause \x7b pattern: " ++ (Value.list values).text ++
          (", guarded: " ++ (boolText false ++ ", .. \x7d")) := by
        rw [text_pattern_ofValues, String.append_assoc, String.append_assoc]
    _ = "Clause \x7b pattern: " ++ (Value.list values).text ++ ", guarded: false, .. \x7d" := by
        rw [hrest]

/-- Such a clause accepts the arguments in which its values embed one by one. -/
theorem ofValues_accepts_iff :
    (ofValues values handler).Accepts satisfies args ↔ List.Forall₂ Embeds values args := by
  have hmatches : (ofValues values handler).Matches satisfies args ↔
      List.Forall₂ Embeds values args :=
    Pattern.itemsMatch_map_ofValue_iff fun _ _ _ => Pattern.matches_ofValue_iff
  rw [Accepts, hmatches]
  exact and_iff_left fun guard hguard => by cases hguard

end Clause

/-! ## The text of an error -/

/-- A call fails if no clause accepts its arguments, and its error is that of the arguments. -/
theorem Dispatcher.dispatchWith_eq_error_ofArguments_iff {d : Dispatcher α} {args : List Value}
    {e : NoMatch} :
    d.dispatchWith satisfies args = .error e ↔
      (∀ c ∈ d.clauses, ¬ c.Accepts satisfies args) ∧ e = NoMatch.ofArguments args := by
  constructor
  · intro herror
    have hnone := dispatchWith_eq_error_iff.mp ⟨e, herror⟩
    rw [dispatchWith, runWith_of_not_accepts hnone] at herror
    exact ⟨hnone, (Except.error.inj herror).symm⟩
  · rintro ⟨hnone, rfl⟩
    exact congrArg DispatchRun.result (runWith_of_not_accepts hnone)

namespace NoMatch

variable {args as bs : List Value}

theorem ofArguments_of_ne_nil (h : args ≠ []) :
    ofArguments args = ⟨some (", ".intercalate (args.map text))⟩ := by
  rw [ofArguments, if_neg (mt List.isEmpty_iff.mp h), writeItems_plain, String.empty_append]

/-- The error of a call with arguments shows their list without its brackets. -/
theorem eq_ofArguments_iff (h : args ≠ []) {e : NoMatch} :
    e = ofArguments args ↔
      ∃ shown, e = ⟨some shown⟩ ∧ (Value.list args).text = "[" ++ shown ++ "]" := by
  rw [ofArguments_of_ne_nil h, text_list]
  constructor
  · rintro rfl
    exact ⟨_, rfl, rfl⟩
  · rintro ⟨shown, rfl, hshown⟩
    rw [(String.append_right_inj _).mp ((String.append_left_inj _).mp hshown)]

theorem text_list_eq_of_ofArguments_eq (h : ofArguments as = ofArguments bs) :
    (Value.list as).text = (Value.list bs).text := by
  by_cases has : as = [] <;> by_cases hbs : bs = []
  · rw [has, hbs]
  · rw [has, ofArguments_of_ne_nil hbs] at h
    cases h
  · rw [hbs, ofArguments_of_ne_nil has] at h
    cases h
  · obtain ⟨shown, hshown, htext⟩ := (eq_ofArguments_iff has).mp rfl
    obtain ⟨shown', hshown', htext'⟩ := (eq_ofArguments_iff hbs).mp rfl
    rw [hshown, hshown'] at h
    obtain rfl : shown = shown' := Option.some.inj (NoMatch.mk.inj h)
    rw [htext, htext']

/-! ## Errors tell the arguments -/

/-- Texts tell values, and errors tell arguments: two values with the same text are equal, and two
lists of arguments with the same error are equally long and equal one by one. -/
theorem texts_identify_arguments (v w : Value) (as bs : List Value) :
    (Legible v → Legible w → v.text = w.text → v.equals w) ∧
    ((∀ v ∈ as, Legible v) → (∀ v ∈ bs, Legible v) → ofArguments as = ofArguments bs →
      as.length = bs.length ∧ List.Forall₂ (fun a b => a.equals b) as bs) := by
  refine ⟨fun hv hw htext => hv.deepEqual_of_text_eq hw htext, fun has hbs herror => ?_⟩
  have htext : (Value.list as).text = (Value.list bs).text := text_list_eq_of_ofArguments_eq herror
  have hequal : DeepEqual (.list as) (.list bs) :=
    (Legible.list has).deepEqual_of_text_eq (Legible.list hbs) htext
  cases hequal.equalParts with
  | list hitems => exact ⟨hitems.length_eq, hitems⟩

/-- Bitstrings of a text and of two numbers, in a list beside a text with commas and brackets: their
errors are the same, and the arguments are equal. -/
theorem texts_identify_arguments_bitstrings :
    (Value.bitstring ⟨[.binary "AB"], [65, 66]⟩).equals
      (.bitstring ⟨[.integer 65, .integer 66], [65, 66]⟩) ∧
    ofArguments [.list [.bitstring ⟨[.binary "AB"], [65, 66]⟩, .atom ⟨"ok"⟩], .str "], ["] =
      ofArguments [.list [.bitstring ⟨[.integer 65, .integer 66], [65, 66]⟩, .atom ⟨"ok"⟩],
        .str "], ["] ∧
    List.Forall₂ (fun a b => Value.equals a b)
      [.list [.bitstring ⟨[.binary "AB"], [65, 66]⟩, .atom ⟨"ok"⟩], .str "], ["]
      [.list [.bitstring ⟨[.integer 65, .integer 66], [65, 66]⟩, .atom ⟨"ok"⟩], .str "], ["] := by
  have hbits (bits : Bitstring) : Legible (.bitstring bits) :=
    ⟨.bitstring bits, .leaf rfl rfl, .leaf rfl rfl⟩
  have htext : Legible (.str "], [") := ⟨.str _, .leaf rfl rfl, .leaf rfl rfl⟩
  have hok : Legible (.atom ⟨"ok"⟩) := ⟨.atom _, .leaf rfl rfl, .leaf rfl (by decide)⟩
  have hargs (bits : Bitstring) :
      ∀ v ∈ [Value.list [.bitstring bits, .atom ⟨"ok"⟩], .str "], ["], Legible v := by
    have hitems : ∀ v ∈ [Value.bitstring bits, .atom ⟨"ok"⟩], Legible v := by
      simp only [List.forall_mem_cons]
      exact ⟨hbits bits, hok, List.forall_mem_nil _⟩
    simp only [List.forall_mem_cons]
    exact ⟨.list hitems, htext, List.forall_mem_nil _⟩
  obtain ⟨hvalues, hlists⟩ := texts_identify_arguments (.bitstring ⟨[.binary "AB"], [65, 66]⟩)
    (.bitstring ⟨[.integer 65, .integer 66], [65, 66]⟩)
    [.list [.bitstring ⟨[.binary "AB"], [65, 66]⟩, .atom ⟨"ok"⟩], .str "], ["]
    [.list [.bitstring ⟨[.integer 65, .integer 66], [65, 66]⟩, .atom ⟨"ok"⟩], .str "], ["]
  exact ⟨hvalues (hbits _) (hbits _) rfl, rfl, (hlists (hargs _) (hargs _) rfl).2⟩

end NoMatch

/-! ## Converted values -/

namespace Pattern

/-- The pattern of a value has the text of the value, so a clause with the patterns of values shows
their list. Called with arguments in which these values do not embed one by one, it fails with an
error that shows the list of the arguments without its brackets, and only then. -/
theorem conversion_keeps_the_text (satisfies : Regex → String → Bool) (values args : List Value)
    (handler : Bindings → α) :
    (∀ v, (ofValue v).text = v.text) ∧
    (Clause.ofValues values handler).pattern.text = (Value.list values).text ∧
    (Clause.ofValues values handler).debugText =
      "Clause \x7b pattern: " ++ (Value.list values).text ++ ", guarded: false, .. \x7d" ∧
    (args ≠ [] → ∀ e,
      (Dispatcher.mk [Clause.ofValues values handler]).dispatchWith satisfies args = .error e ↔
        ¬ List.Forall₂ Embeds values args ∧
          ∃ shown, e = ⟨some shown⟩ ∧ (Value.list args).text = "[" ++ shown ++ "]") := by
  refine ⟨text_ofValue, Clause.text_pattern_ofValues, Clause.debugText_ofValues, ?_⟩
  intro hargs e
  rw [Dispatcher.dispatchWith_eq_error_ofArguments_iff, ← NoMatch.eq_ofArguments_iff hargs,
    List.forall_mem_singleton, Clause.ofValues_accepts_iff]

/-- The clause of an atom and a list, called with another atom and the list. -/
theorem conversion_keeps_the_text_other_atom :
    (Clause.ofValues [.atom ⟨"add"⟩, .list [.int 1, .nil]] Array.size).pattern.text =
      "[:add, [1, nil]]" ∧
    (Dispatcher.mk [Clause.ofValues [.atom ⟨"add"⟩, .list [.int 1, .nil]] Array.size]).dispatchWith
      Regex.isMatch [.atom ⟨"sub"⟩, .list [.int 1, .nil]] = .error ⟨some ":sub, [1, nil]"⟩ ∧
    (Value.list [.atom ⟨"sub"⟩, .list [.int 1, .nil]]).text = "[:sub, [1, nil]]" := by
  have hother : ¬ List.Forall₂ Embeds [.atom ⟨"add"⟩, .list [.int 1, .nil]]
      [.atom ⟨"sub"⟩, .list [.int 1, .nil]] := by
    intro h
    cases h with
    | cons hatom _ =>
      cases hatom.of_leaf rfl with
      | equal hequal => exact absurd hequal (by decide)
  obtain ⟨-, hpattern, -, herror⟩ := conversion_keeps_the_text Regex.isMatch
    [.atom ⟨"add"⟩, .list [.int 1, .nil]] [.atom ⟨"sub"⟩, .list [.int 1, .nil]] Array.size
  exact ⟨hpattern, (herror (by decide) _).mpr ⟨hother, ":sub, [1, nil]", rfl, rfl⟩, rfl⟩

end Pattern

end ClauseMatch
