import ClauseMatch.Proofs.Literal.FloatText
import ClauseMatch.Proofs.Literal.SegmentText

/-!
# Texts on a single line

A text is shown between quotes with its line breaks escaped, and the numbers, names and signs around
it have none. The text of a segment therefore stays on one line, whatever text the segment holds,
and a list with a line for each segment can be taken apart at its line breaks.
-/

namespace ClauseMatch

/-- The characters have no line break among them. -/
def SingleLine (chars : List Char) : Prop := '\n' ∉ chars

instance : DecidablePred SingleLine := fun chars => inferInstanceAs (Decidable ('\n' ∉ chars))

namespace SingleLine

variable {chars more : List Char}

theorem nil : SingleLine [] := List.not_mem_nil

theorem append (h : SingleLine chars) (h' : SingleLine more) : SingleLine (chars ++ more) :=
  List.not_mem_append h h'

theorem cons {c : Char} (hc : c ≠ '\n') (h : SingleLine chars) : SingleLine (c :: chars) :=
  List.not_mem_cons_of_ne_of_not_mem hc.symm h

/-- Characters of a class without line breaks. -/
theorem of_class {p : Char → Bool} (hp : p '\n' = false) (h : ∀ c ∈ chars, p c = true) :
    SingleLine chars := by
  intro hbreak
  rw [h '\n' hbreak] at hp
  cases hp

theorem flatMap {α : Type} {text : α → List Char} {items : List α}
    (h : ∀ a ∈ items, SingleLine (text a)) : SingleLine (items.flatMap text) := by
  intro hbreak
  obtain ⟨a, ha, hmem⟩ := List.mem_flatMap.mp hbreak
  exact h a ha hmem

theorem intercalate {separator : List Char} {items : List (List Char)}
    (hseparator : SingleLine separator) (h : ∀ item ∈ items, SingleLine item) :
    SingleLine (separator.intercalate items) := by
  induction items with
  | nil => exact nil
  | cons item items ih =>
    obtain ⟨hitem, hitems⟩ := List.forall_mem_cons.mp h
    cases items with
    | nil => rwa [List.intercalate_singleton]
    | cons next items =>
      rw [List.intercalate_cons_cons]
      exact (hitem.append hseparator).append (ih hitems)

end SingleLine

/-! ## Numbers -/

theorem singleLine_toDigits {base : Nat} (hbase : 1 < base) (n : Nat) :
    SingleLine (Nat.toDigits base n) := by
  intro hbreak
  obtain ⟨d, hd⟩ := Literal.exists_digitChar_of_mem_toDigits hbase hbreak
  exact Nat.digitChar_ne '\n' (by decide) hd.symm

theorem singleLine_signChars (negative : Bool) : SingleLine (Literal.signChars negative) := by
  cases negative with
  | true => exact .cons (by decide) .nil
  | false => exact .nil

theorem singleLine_natText (n : Nat) : SingleLine (toString n).toList := by
  have hdigits : (toString n).toList = Nat.toDigits 10 n := Nat.toList_repr
  rw [hdigits]
  exact singleLine_toDigits (by decide) n

theorem singleLine_intText (n : Int) : SingleLine (toString n).toList := by
  rw [Literal.toList_toString_int]
  exact (singleLine_signChars _).append (singleLine_toDigits (by decide) _)

theorem DecimalNumeral.Plain.singleLine {d : DecimalNumeral} (h : d.Plain) :
    SingleLine d.chars := by
  have hdigits {digits : List Char} (hall : ∀ c ∈ digits, c.isDigit = true) : SingleLine digits :=
    .of_class (by decide) hall
  have hpoint : SingleLine (pointChars d.fraction) := by
    rw [pointChars]
    split
    · exact .nil
    · exact .cons (by decide) (hdigits h.fraction)
  have hexponent : SingleLine (exponentChars d.exponent) := by
    cases hpower : d.exponent with
    | none => exact .nil
    | some power =>
      have hpowerDigits := hdigits (h.exponent power hpower).2
      exact .cons (by decide) ((singleLine_signChars power.1).append hpowerDigits)
  exact (singleLine_signChars _).append ((hdigits h.whole.2).append (hpoint.append hexponent))

theorem singleLine_floatText (x : Binary64) : SingleLine x.text.toList := by
  cases hnumber : x.isNaN with
  | true =>
    have htext : x.text = "NaN" := by rw [Binary64.text, if_pos hnumber]
    rw [htext]
    decide
  | false =>
    cases hinfinite : x.isInfinite with
    | true =>
      rw [Literal.toList_text_of_isInfinite hinfinite]
      exact (singleLine_signChars _).append (by decide)
    | false =>
      obtain ⟨d, hplain, htext, -⟩ :=
        Binary64.exists_numeral_text (Binary64.isFinite_of_not_isInfinite hnumber hinfinite)
      rw [htext]
      exact hplain.singleLine

/-! ## Texts -/

theorem singleLine_codePointEscape (c : Char) : SingleLine (codePointEscape c) := by
  have hdigits : SingleLine (Nat.toDigits 16 c.toNat) := singleLine_toDigits (by decide) _
  exact .cons (by decide) (.cons (by decide) (.cons (by decide)
    (hdigits.append (.cons (by decide) .nil))))

theorem singleLine_quotedChar (c : Char) : SingleLine (quotedChar c) := by
  -- A line break has an escape of its own; without this case it would stand for itself.
  by_cases hbreak : c = '\n'
  · subst hbreak
    exact .cons (by decide) (.cons (by decide) .nil)
  · have hwritten := Literal.writtenAs_quotedChar c
    generalize quotedChar c = written at hwritten
    cases hwritten with
    | itself => exact .cons hbreak .nil
    | @escape d hd _ =>
      have hletter : d ≠ '\n' := by
        rintro rfl
        exact absurd hd (by decide)
      exact .cons (by decide) (.cons hletter .nil)
    | codePoint => exact singleLine_codePointEscape c

theorem singleLine_quoted (text : String) : SingleLine (quoted text).toList := by
  have hinside : SingleLine (text.toList.flatMap quotedChar) :=
    .flatMap fun c _ => singleLine_quotedChar c
  rw [quoted, String.toList_ofList]
  exact .cons (by decide) (hinside.append (.cons (by decide) .nil))

/-! ## Sequences and segments -/

theorem singleLine_sequenceText (values : List Int64) :
    SingleLine (sequenceText values).toList := by
  have hbody : SingleLine (Literal.sequenceBody values) :=
    .intercalate (by decide) (List.forall_mem_map.mpr fun v _ => singleLine_intText v.toInt)
  rw [Literal.toList_sequenceText]
  exact .cons (by decide) (.cons (by decide) (hbody.append (by decide)))

theorem SegmentValue.singleLine_text (v : SegmentValue) : SingleLine v.text.toList := by
  cases v with
  | integer n => exact singleLine_intText n.toInt
  | float x => exact singleLine_floatText x
  | bitstring bits => exact singleLine_sequenceText bits.values
  | binary text | utf8 text | utf16 text | utf32 text => exact singleLine_quoted text

theorem SegmentKind.singleLine_text (kind : SegmentKind) : SingleLine kind.text.toList := by
  cases kind <;> decide

theorem Modifier.singleLine_text (m : Modifier) : SingleLine m.text.toList := by
  cases m with
  | size n | unit n =>
    rw [Modifier.text, String.toList_append, String.toList_append]
    exact ((by decide : SingleLine _).append (singleLine_natText _)).append (by decide)
  | signed | unsigned | native | big | little => decide

/-- The text of a segment has no line breaks, whatever the segment holds. -/
theorem Segment.singleLine_text (s : Segment) : SingleLine s.text.toList := by
  have hmodifiers : SingleLine (String.join (s.modifiers.map fun m => "-" ++ m.text)).toList := by
    rw [String.toList_join, List.flatMap_map]
    refine .flatMap fun m _ => ?_
    rw [String.toList_append]
    exact .append (by decide) m.singleLine_text
  simp only [Segment.text, String.toList_append]
  exact ((s.value.singleLine_text.append (by decide)).append s.kind.singleLine_text).append
    hmodifiers

end ClauseMatch
