import ClauseMatch.Proofs.Value.Equality
import ClauseMatch.Value.Text

/-!
# The text of a value by its parts

Writing appends to the text written so far: a part of a value is written behind everything that
comes before it. It adds the same text wherever that is, so the text of a value is put together from
the texts of its parts, joined by commas.
-/

namespace ClauseMatch

namespace Value

variable {style : ValueStyle}

/-- The text of a field. -/
def fieldText (style : ValueStyle) (field : Atom × Value) : String :=
  style.key field.1 ++ field.2.write style ""

/-! ## What writing adds -/

theorem writeItems_eq {items : List Value}
    (hitems : ∀ v ∈ items, ∀ out, v.write style out = out ++ v.write style "") (out : String) :
    writeItems style items out = out ++ ", ".intercalate (items.map (write style · "")) := by
  induction items generalizing out with
  | nil => simp [writeItems]
  | cons v items ih =>
    obtain ⟨hv, hitems⟩ := List.forall_mem_cons.mp hitems
    cases items with
    | nil => simp [writeItems, hv out]
    | cons next items =>
      rw [writeItems, ih hitems, hv out]
      · simp [String.append_assoc]
      · simp

theorem writeFields_eq {fields : List (Atom × Value)}
    (hfields : ∀ field ∈ fields, ∀ out, field.2.write style out = out ++ field.2.write style "")
    (out : String) :
    writeFields style fields out = out ++ ", ".intercalate (fields.map (fieldText style)) := by
  induction fields generalizing out with
  | nil => simp [writeFields]
  | cons field fields ih =>
    obtain ⟨key, v⟩ := field
    obtain ⟨hv, hfields⟩ := List.forall_mem_cons.mp hfields
    cases fields with
    | nil => simp [writeFields, fieldText, hv (out ++ style.key key), String.append_assoc]
    | cons next fields =>
      rw [writeFields, ih hfields, hv (out ++ style.key key)]
      · simp [fieldText, String.append_assoc]
      · simp

/-- A value adds the same text wherever it is written. -/
theorem write_append (v : Value) (out : String) : v.write style out = out ++ v.write style "" := by
  induction v generalizing out with
  | list items ih => simp [write, writeItems_eq ih, String.append_assoc]
  | tuple items ih => simp [write, writeItems_eq ih, String.append_assoc]
  | object tag fields ih => simp [write, writeFields_eq ih, String.append_assoc]
  | nil | bool | int | float | atom | str | bitstring => simp [write]

/-! ## The text for readers -/

theorem writeItems_plain (items : List Value) (out : String) :
    writeItems .plain items out = out ++ ", ".intercalate (items.map text) :=
  writeItems_eq (fun v _ => v.write_append) out

theorem text_list (items : List Value) :
    (list items).text = "[" ++ ", ".intercalate (items.map text) ++ "]" := by
  rw [text, write, writeItems_plain]
  rfl

theorem text_tuple (items : List Value) :
    (tuple items).text = "\x7b" ++ ", ".intercalate (items.map text) ++ "\x7d" := by
  rw [text, write, writeItems_plain]
  rfl

theorem text_object (tag : Atom) (fields : List (Atom × Value)) :
    (object tag fields).text =
      objectBracket tag ++ ", ".intercalate (fields.map (fieldText .plain)) ++ "\x7d" := by
  rw [text, write, writeFields_eq fun field _ => field.2.write_append]
  rfl

end Value

end ClauseMatch
