import ClauseMatch.Proofs.Literal.Accepted
import ClauseMatch.Proofs.Literal.FloatNotation

/-!
# Float segments as source

A literal can denote a finite double in many ways, and the text of a float segment spells the double
in one of them, so that every finite float segment is read back from its text, with its size and its
modifiers. A numeral that is too large denotes an infinite double. The texts of the two infinite
doubles are no numerals, and a segment with one of them is rejected where its value begins.
-/

namespace ClauseMatch

/-! ## Doubles that numerals denote -/

namespace Binary64

variable {x : Binary64}

theorem roundRatio_le_infinityBits (num den : Nat) :
    FloatFormat.binary64.roundRatio num den ≤ FloatFormat.binary64.infinityBits :=
  Nat.min_le_right _ _

theorem isNaN_ofSignMagnitude {negative : Bool} {magnitude : Nat}
    (h : magnitude ≤ FloatFormat.binary64.infinityBits) :
    (ofSignMagnitude negative magnitude).isNaN = false := by
  have hfields := @fields_ofSignMagnitude negative magnitude (Nat.lt_of_le_of_lt h (by decide))
  rw [isNaN, hfields.2]
  exact decide_eq_false (Nat.not_lt.mpr h)

theorem isNaN_ofScientific (negative : Bool) (digits count : Nat) (exponent : Int) :
    (ofScientific negative digits count exponent).isNaN = false := by
  refine isNaN_ofSignMagnitude ?_
  split
  · exact Nat.zero_le _
  split
  · exact Nat.le_refl _
  split
  · exact Nat.zero_le _
  · exact roundRatio_le_infinityBits _ _

theorem isFinite_of_not_isInfinite (hnumber : x.isNaN = false) (hinfinite : x.isInfinite = false) :
    x.isFinite = true := by
  rw [isNaN, decide_eq_false_iff_not] at hnumber
  rw [isInfinite, beq_eq_false_iff_ne] at hinfinite
  exact decide_eq_true (Nat.lt_of_le_of_ne (Nat.not_lt.mp hnumber) hinfinite)

end Binary64

theorem DecimalNumeral.isNaN_eq_false {d : DecimalNumeral} {x : Binary64}
    (h : d.toBinary64? = some x) : x.isNaN = false := by
  rw [DecimalNumeral.toBinary64?] at h
  split at h
  · obtain rfl := Option.some.inj h
    exact Binary64.isNaN_ofScientific _ _ _ _
  · cases h

namespace Literal

variable {x : Binary64} {d : DecimalNumeral} {s : Segment} {source rest : List Char}

/-- A float segment is never NaN. -/
theorem SegmentAt.isNaN_eq_false (h : SegmentAt source s rest) (hvalue : s.value = .float x) :
    x.isNaN = false := by
  obtain ⟨hraw, -, -, htyped⟩ := h
  rw [← Segment.withModifiers_eq_foldl] at hvalue
  cases htyped with
  | untypedFloat | float =>
    obtain rfl := SegmentValue.float.inj hvalue
    obtain - | ⟨⟨-, -, -, -, -, hx⟩⟩ := hraw
    exact DecimalNumeral.isNaN_eq_false hx
  | floatOfInteger =>
    obtain rfl := SegmentValue.float.inj hvalue
    exact Binary64.isNaN_ofSignMagnitude (Binary64.roundRatio_le_infinityBits _ _)
  | _ => exact SegmentValue.noConfusion hvalue

/-! ## Numerals in a source -/

theorem exponentAt_chars {exponent : Option (Bool × List Char)}
    (h : ∀ power ∈ exponent, power.2 ≠ [] ∧ ∀ c ∈ power.2, c.isDigit = true)
    (hrest : Ends rest) :
    ExponentAt (DecimalNumeral.exponentChars exponent ++ rest) exponent rest := by
  cases exponent with
  | none => exact .absent
  | some power =>
    obtain ⟨negative, digits⟩ := power
    have hsign : ExponentSignAt (signChars negative ++ digits ++ rest) negative (digits ++ rest) := by
      cases negative with
      | true => exact .minus
      | false => exact .absent
    have hdigits := hrest.longestRun (fun _ => isNameChar_of_isDigit) (h _ rfl).2
    exact .present (Or.inl rfl) hsign hdigits

/-- What an exponent begins with does not go on with the digits before it. -/
theorem exponentChars_ends (exponent : Option (Bool × List Char)) (hrest : Ends rest) :
    ∀ c ∈ (DecimalNumeral.exponentChars exponent ++ rest).head?, isDigitOrGap c = false := by
  cases exponent with
  | none => exact hrest.not_head fun _ => isNameChar_of_isDigitOrGap
  | some power => exact not_head_cons (by decide) _

theorem exists_fractionAt_chars {fraction power : List Char}
    (h : ∀ c ∈ fraction, c.isDigit = true)
    (hpower : ∀ c ∈ power.head?, isDigitOrGap c = false) :
    ∃ run, FractionAt (DecimalNumeral.pointChars fraction ++ power) run power ∧
      run.getD [] = fraction ∧ (fraction ≠ [] → run.isSome = true) := by
  cases fraction with
  | nil => exact ⟨none, .absent, rfl, absurd rfl⟩
  | cons c more =>
    have hdigits : LongestRun isDigitOrGap (c :: more ++ power) (c :: more) power :=
      ⟨rfl, fun d hd => isDigitOrGap_of_isDigit (h d hd), hpower⟩
    exact ⟨some (c :: more), .present (h c List.mem_cons_self) hdigits, rfl, fun _ => rfl⟩

theorem pointChars_ends (fraction : List Char) {power : List Char}
    (hpower : ∀ c ∈ power.head?, isDigitOrGap c = false) :
    ∀ c ∈ (DecimalNumeral.pointChars fraction ++ power).head?, isDigitOrGap c = false := by
  cases fraction with
  | nil => exact hpower
  | cons c more => exact not_head_cons (by decide) _

/-- A plain numeral is a double where nothing follows that could continue it. -/
theorem floatAt_of_plain (h : d.Plain) (hx : d.toBinary64? = some x) (hrest : Ends rest) :
    FloatAt (d.chars ++ rest) x rest := by
  have hpower := exponentChars_ends d.exponent hrest
  obtain ⟨run, hfraction, hrun, hsome⟩ := exists_fractionAt_chars h.fraction hpower
  have hwhole : LongestRun isDigitOrGap
      (d.whole ++ (DecimalNumeral.pointChars d.fraction ++
        (DecimalNumeral.exponentChars d.exponent ++ rest)))
      d.whole _ :=
    ⟨rfl, fun c hc => isDigitOrGap_of_isDigit (h.whole.2 c hc), pointChars_ends d.fraction hpower⟩
  have hbegins := beginsNumber_of_isDigit h.whole.1 h.whole.2 d.negative
    (DecimalNumeral.pointChars d.fraction ++ (DecimalNumeral.exponentChars d.exponent ++ rest))
  -- There are no underscores to be dropped.
  have hvalue : DecimalNumeral.toBinary64?
      ⟨d.negative, withoutGaps d.whole, withoutGaps (run.getD []), d.exponent⟩ = some x := by
    rw [hrun, withoutGaps_of_isDigit h.whole.2, withoutGaps_of_isDigit h.fraction]
    exact hx
  have hfloat := FloatAt.intro hbegins hwhole hfraction (exponentAt_chars h.exponent hrest)
    (h.marked.imp_left hsome) hvalue
  simpa only [DecimalNumeral.chars, DecimalNumeral.magnitudeChars, List.append_assoc] using hfloat

/-! ## Finite doubles -/

/-- The text of a finite float segment is the segment. -/
theorem segmentAt_floatText (hs : s.Built) (hvalue : s.value = .float x) (hfinite : x.isFinite = true)
    (hrest : EndsSegment rest) : SegmentAt (s.text.toList ++ rest) s rest := by
  obtain ⟨d, hplain, htext, hd⟩ := Binary64.exists_numeral_text hfinite
  have hkind : s.kind = .float := by rw [Segment.kind, hvalue]; rfl
  have hread : ∀ more, ∃ raw, ValueAt (s.value.text.toList ++ ':' :: more) raw (':' :: more) ∧
      Typed (some (typeOfKind s.kind)) raw s.value.plain := by
    intro more
    have hcolon : Ends (':' :: more) := by
      intro c hc
      obtain rfl : ':' = c := by simpa using hc
      decide
    have hfloat := floatAt_of_plain hplain hd hcolon
    rw [hvalue, hkind]
    refine ⟨.float x, .float ?_, .float x⟩
    rw [← htext] at hfloat
    exact hfloat
  have hsegment := segmentAt_of_valueAt hread hrest
  rwa [← hs.eq_withModifiers] at hsegment

theorem parse_floatText (hs : s.Built) (hvalue : s.value = .float x) (hfinite : x.isFinite = true) :
    parse (literalText [s]) = .ok [s] := by
  have hitem : ∀ t ∈ [s], ∀ rest, EndsSegment rest → SegmentAt (t.text.toList ++ rest) t rest :=
    List.forall_mem_singleton.mpr fun rest hrest => segmentAt_floatText hs hvalue hfinite hrest
  apply LiteralAt.parse_eq
  rw [toList_literalText]
  have hliteral := literalAt_intercalate hitem []
  rwa [List.map_id'] at hliteral

/-! ## Infinite doubles -/

/-- What is wrong with the text of an infinite double: a minus sign without digits behind it, or
nothing that begins a value. -/
def infinityFault (negative : Bool) : Fault :=
  if negative then .invalidNumber "-" else .expected .segmentValue

/-- The text of an infinite double with something behind it. -/
def infinityChars (negative : Bool) (rest : List Char) : List Char :=
  signChars negative ++ ("inf".toList ++ rest)

theorem readScalar_infinityChars (negative : Bool) (rest : List Char) :
    readScalar (infinityChars negative rest) =
      .error ⟨infinityFault negative, infinityChars negative rest⟩ := by
  cases negative <;> rfl

theorem infinityChars_begins (negative : Bool) (rest : List Char) :
    BeginsValue (infinityChars negative rest) ∧ '<' ∉ (infinityChars negative rest).head? := by
  cases negative with
  | true => exact ⟨⟨'-', rfl, by decide⟩, by simp [infinityChars, signChars]⟩
  | false => exact ⟨⟨'i', rfl, by decide⟩, by simp [infinityChars, signChars]⟩

theorem toList_text_of_isInfinite (hinfinite : x.isInfinite = true) :
    x.text.toList = signChars x.isNegative ++ "inf".toList := by
  have hnumber : x.isNaN = false := by
    rw [Binary64.isInfinite, beq_iff_eq] at hinfinite
    rw [Binary64.isNaN, hinfinite]
    rfl
  rw [Binary64.toList_text hnumber, hinfinite]
  rfl

theorem parse_infinityText (hvalue : s.value = .float x) (hinfinite : x.isInfinite = true) :
    parse (literalText [s]) = .error ⟨infinityFault x.isNegative, 2⟩ := by
  have hvalueText : s.value.text.toList = signChars x.isNegative ++ "inf".toList := by
    rw [hvalue]
    exact toList_text_of_isInfinite hinfinite
  obtain ⟨more, hmore⟩ : ∃ more, (literalText [s]).toList =
      ['<', '<'] ++ infinityChars x.isNegative more := by
    refine ⟨':' :: ':' :: (optionsText (.type (typeOfKind s.kind)) (s.modifiers.map .modifier) ++
      ['>', '>']), ?_⟩
    rw [toList_literalText, List.map_singleton, List.intercalate_singleton, toList_segmentText,
      hvalueText]
    simp only [infinityChars, List.append_assoc]
    rfl
  obtain ⟨hbegins, hopening⟩ := infinityChars_begins x.isNegative more
  exact parse_eq_error_of_scalar hmore (hmore ▸ .refl _) (.refl _) hbegins hopening
    (readScalar_infinityChars x.isNegative more)

/-! ## Accepted sources -/

/-- A float segment of an accepted source is a number. If it is finite, its text is read as the
segment itself, with its size and its modifiers. If it is infinite, its text is rejected where the
value begins. -/
theorem parsed_floats_read_back_unless_infinite {source : String} {segments : List Segment}
    (h : parse source = .ok segments) :
    ∀ s ∈ segments, ∀ x, s.value = .float x →
      x.isNaN = false ∧
        (x.isInfinite = false → parse (literalText [s]) = .ok [s]) ∧
        (x.isInfinite = true →
          parse (literalText [s]) = .error ⟨infinityFault x.isNegative, 2⟩) := by
  intro s hs x hvalue
  obtain ⟨place, stop, hsegment⟩ := exists_segmentAt_of_parse h s hs
  have hnumber := hsegment.isNaN_eq_false hvalue
  refine ⟨hnumber, fun hinfinite => ?_, parse_infinityText hvalue⟩
  exact parse_floatText hsegment.built hvalue (Binary64.isFinite_of_not_isInfinite hnumber hinfinite)

set_option maxRecDepth 4096 in
/-- A numeral with an exponent and an option comes back; one that is too large does not. -/
theorem parsed_floats_read_back_unless_infinite_resized :
    parse "<<1_5E-7::32,-1e400>>" =
        .ok [(Segment.float ⟨0x3eb92a737110e454⟩).withModifier (.size 32),
          .float ⟨0xfff0000000000000⟩] ∧
      parse (literalText [(Segment.float ⟨0x3eb92a737110e454⟩).withModifier (.size 32)]) =
        .ok [(Segment.float ⟨0x3eb92a737110e454⟩).withModifier (.size 32)] ∧
      parse (literalText [.float ⟨0xfff0000000000000⟩]) = .error ⟨.invalidNumber "-", 2⟩ := by
  have hparse : parse "<<1_5E-7::32,-1e400>>" =
      .ok [(Segment.float ⟨0x3eb92a737110e454⟩).withModifier (.size 32),
        .float ⟨0xfff0000000000000⟩] := by
    with_unfolding_all rfl
  have hread := parsed_floats_read_back_unless_infinite hparse
  refine ⟨hparse, ?_, ?_⟩
  · exact (hread _ List.mem_cons_self ⟨0x3eb92a737110e454⟩ rfl).2.1 (by decide)
  · have hinfinite := hread (.float ⟨0xfff0000000000000⟩) (by simp) ⟨0xfff0000000000000⟩ rfl
    exact hinfinite.2.2 (by decide)

/-- A numeral that is too large is accepted, and the text of its segment is not. -/
theorem not_parsed_floats_read_back :
    parse "<<1e400>>" = .ok [.float ⟨0x7ff0000000000000⟩] ∧
      literalText [.float ⟨0x7ff0000000000000⟩] = "<<inf::float>>" ∧
      ∀ segments, parse "<<inf::float>>" ≠ .ok segments := by
  refine ⟨by with_unfolding_all rfl, by with_unfolding_all rfl, fun segments hparse => ?_⟩
  have herror : parse "<<inf::float>>" = .error ⟨.expected .segmentValue, 2⟩ := by
    with_unfolding_all rfl
  rw [herror] at hparse
  cases hparse

end Literal

end ClauseMatch
