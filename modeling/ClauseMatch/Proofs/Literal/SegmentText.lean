import ClauseMatch.Proofs.Bitstring.Building
import ClauseMatch.Proofs.Bitstring.Composition
import ClauseMatch.Proofs.Literal.DecimalText
import ClauseMatch.Proofs.Literal.QuotedText

/-!
# Segment text as source

The text of a segment that is no float is a phrase of the grammar, whatever its modifiers. What the
phrase denotes is the segment up to its text, of which characters that are shown by their code
points are misread, and up to the segments of a nested bitstring, of which only the encoded
elements are shown. The texts of several segments in a row between double angle brackets are
therefore a literal.
-/

namespace ClauseMatch

/-- Segments as a literal shows them. -/
def literalText (segments : List Segment) : String :=
  "<<" ++ ", ".intercalate (segments.map Segment.text) ++ ">>"

namespace Literal

variable {rest : List Char}

/-! ## Options -/

/-- The type that a kind is written as. -/
def typeOfKind : SegmentKind → TypeName
  | .integer => .integer
  | .float => .float
  | .bitstring => .bitstring
  | .binary => .binary
  | .utf8 => .utf8
  | .utf16 => .utf16
  | .utf32 => .utf32

theorem text_typeOfKind (k : SegmentKind) : (typeOfKind k).text = k.text := by
  cases k <;> rfl

/-- How an option is written. -/
def SegmentOption.text : SegmentOption → String
  | .type t => t.text
  | .modifier m => m.text

theorem longestRun_of_all {name : List Char} (hname : name.all isNameChar = true)
    (hrest : ∀ c ∈ rest.head?, isNameChar c = false) :
    LongestRun isNameChar (name ++ rest) name rest :=
  ⟨rfl, List.all_eq_true.mp hname, hrest⟩

theorem counts_toDigits (n : UInt32) : Counts (Nat.toDigits 10 n.toNat) n where
  nonempty := Nat.toDigits_ne_nil
  isDigit := fun _ => isDigit_of_mem_toDigits
  value := (natOfDigits_toDigits n.toNat).symm

theorem argumentAt_toDigits (n : UInt32) (rest : List Char) :
    ArgumentAt (Nat.toDigits 10 n.toNat ++ ')' :: rest) n rest := by
  have hrun : LongestRun Char.isDigit (Nat.toDigits 10 n.toNat ++ ')' :: rest)
      (Nat.toDigits 10 n.toNat) (')' :: rest) :=
    ⟨rfl, (counts_toDigits n).isDigit, not_head_cons (by decide) rest⟩
  exact .intro (.refl _) hrun (counts_toDigits n) (.refl _)

theorem optionAt_modifier (m : Modifier) (hrest : ∀ c ∈ rest.head?, isNameChar c = false) :
    OptionAt (m.text.toList ++ rest) (.modifier m) rest := by
  cases m with
  | size n =>
    have htext : (Modifier.size n).text.toList ++ rest =
        "size".toList ++ '(' :: (Nat.toDigits 10 n.toNat ++ ')' :: rest) := by
      simp [Modifier.text]
    rw [htext]
    exact .size (argumentAt_toDigits n rest)
  | unit n =>
    have htext : (Modifier.unit n).text.toList ++ rest =
        "unit".toList ++ '(' :: (Nat.toDigits 10 n.toNat ++ ')' :: rest) := by
      simp [Modifier.text]
    rw [htext]
    exact .unit (argumentAt_toDigits n rest)
  | _ => exact .plain (by decide) (longestRun_of_all (by decide) hrest)

theorem optionAt_text (o : SegmentOption) (hrest : ∀ c ∈ rest.head?, isNameChar c = false) :
    OptionAt (o.text.toList ++ rest) o rest := by
  cases o with
  | type t =>
    have hname : t.text.toList.all isNameChar = true := by cases t <;> decide
    exact .type (longestRun_of_all hname hrest)
  | modifier m => exact optionAt_modifier m hrest

/-- Options with dashes between them. -/
def optionsText (o : SegmentOption) (os : List SegmentOption) : List Char :=
  o.text.toList ++ os.flatMap fun o => '-' :: o.text.toList

theorem optionsAt_text (o : SegmentOption) (os : List SegmentOption)
    (hrest : ∀ c ∈ rest.head?, isNameChar c = false) :
    OptionsAt (optionsText o os ++ rest) (o :: os) rest := by
  induction os generalizing o with
  | nil =>
    rw [optionsText, List.flatMap_nil, List.append_nil]
    exact .last (optionAt_text o hrest)
  | cons next os ih =>
    have hsplit : optionsText o (next :: os) ++ rest =
        o.text.toList ++ '-' :: (optionsText next os ++ rest) := by
      simp [optionsText]
    rw [hsplit]
    exact .cons (optionAt_text o (not_head_cons (by decide) _)) (.refl _) (.refl _) (ih next)

/-! ## Values -/

/-- What a value is read back as. -/
def valueReadBack : SegmentValue → SegmentValue
  | .integer n => .integer n
  | .float x => .float x
  | .bitstring bits => .bitstring (.ofValues bits.values)
  | .binary text => .binary (textReadBack text)
  | .utf8 text => .utf8 (textReadBack text)
  | .utf16 text => .utf16 (textReadBack text)
  | .utf32 text => .utf32 (textReadBack text)

theorem valueAt_quoted (text : String) (rest : List Char) :
    ValueAt ((quoted text).toList ++ rest) (.text (textReadBack text)) rest := by
  obtain ⟨source, hsource, htext⟩ := textAt_quoted text rest
  rw [hsource]
  exact .text htext

/-- A value is written as it is spelled, so that with the type of its kind it is read back. -/
theorem exists_valueAt_text {v : SegmentValue} (hv : v.kind ≠ .float)
    (hrest : ∀ c ∈ rest.head?, isDigitOrGap c = false) :
    ∃ raw, ValueAt (v.text.toList ++ rest) raw rest ∧
      Typed (some (typeOfKind v.kind)) raw (valueReadBack v).plain := by
  cases v with
  | integer n => exact ⟨_, .integer (integerAt_toString n hrest), .integer n⟩
  | float x => exact absurd rfl hv
  | bitstring bits =>
    exact ⟨_, .literal (literalAt_sequenceText bits.values rest) (ofSegments_integers bits.values),
      .bitstring bits.values⟩
  | binary text => exact ⟨_, valueAt_quoted text rest, .binary _⟩
  | utf8 text => exact ⟨_, valueAt_quoted text rest, .utf8 _⟩
  | utf16 text => exact ⟨_, valueAt_quoted text rest, .utf16 _⟩
  | utf32 text => exact ⟨_, valueAt_quoted text rest, .utf32 _⟩

/-! ## Segments -/

/-- What a segment is read back as. -/
def segmentReadBack (s : Segment) : Segment :=
  (valueReadBack s.value).plain.withModifiers s.modifiers

theorem toList_segmentText (s : Segment) :
    s.text.toList = s.value.text.toList ++
      ':' :: ':' :: optionsText (.type (typeOfKind s.kind)) (s.modifiers.map .modifier) := by
  simp only [Segment.text, optionsText, SegmentOption.text, text_typeOfKind, String.toList_append,
    String.toList_join, List.flatMap_map, List.append_assoc]
  rfl

/-- A type followed by modifiers declares this type. -/
theorem filterMap_type?_cons (t : TypeName) (ms : List Modifier) :
    (SegmentOption.type t :: ms.map .modifier).filterMap SegmentOption.type? =
      (some t).toList := by
  have hnone : (ms.map SegmentOption.modifier).filterMap SegmentOption.type? = [] := by
    rw [List.filterMap_map]
    exact List.filterMap_eq_nil_iff.mpr fun _ _ => rfl
  exact congrArg (t :: ·) hnone

/-- A type followed by modifiers appends these modifiers. -/
theorem filterMap_modifier?_cons (t : TypeName) (ms : List Modifier) :
    (SegmentOption.type t :: ms.map .modifier).filterMap SegmentOption.modifier? = ms := by
  have hall : (ms.map SegmentOption.modifier).filterMap SegmentOption.modifier? = ms := by
    rw [List.filterMap_map]
    exact List.filterMap_some
  exact hall

/-- If the text of a segment's value is a value, the text of the segment is what this value is under
the type of the segment's kind, with the modifiers of the segment. -/
theorem segmentAt_of_valueAt {s plain : Segment}
    (h : ∀ more, ∃ raw, ValueAt (s.value.text.toList ++ ':' :: more) raw (':' :: more) ∧
      Typed (some (typeOfKind s.kind)) raw plain) (hrest : EndsSegment rest) :
    SegmentAt (s.text.toList ++ rest) (plain.withModifiers s.modifiers) rest := by
  obtain ⟨raw, hvalue, htyped⟩ :=
    h (':' :: (optionsText (.type (typeOfKind s.kind)) (s.modifiers.map .modifier) ++ rest))
  -- What ends the segment ends the name of its last option.
  have hoptions := optionsAt_text (.type (typeOfKind s.kind)) (s.modifiers.map .modifier)
    (hrest.not_head (p := isNameChar) (by decide))
  have hsegment := SegmentAt.intro hvalue (.present (.refl _) (.refl _) hoptions)
    (filterMap_type?_cons _ _) htyped
  rw [filterMap_modifier?_cons, ← Segment.withModifiers_eq_foldl] at hsegment
  rw [toList_segmentText]
  simpa only [List.append_assoc, List.cons_append] using hsegment

theorem segmentAt_text {s : Segment} (hs : s.kind ≠ .float) (hrest : EndsSegment rest) :
    SegmentAt (s.text.toList ++ rest) (segmentReadBack s) rest :=
  -- The colons end a number.
  segmentAt_of_valueAt (fun more => exists_valueAt_text hs (not_head_cons (by decide) more)) hrest

theorem toList_literalText (segments : List Segment) :
    (literalText segments).toList = '<' :: '<' ::
      ([',', ' '].intercalate (segments.map fun s => s.text.toList) ++ ['>', '>']) := by
  simp only [literalText, String.toList_append, String.toList_intercalate, List.map_map]
  rfl

/-- The text of segments is read as what the segments are read back as. -/
theorem parse_literalText {segments : List Segment} (h : ∀ s ∈ segments, s.kind ≠ .float) :
    parse (literalText segments) = .ok (segments.map segmentReadBack) := by
  have hitem : ∀ s ∈ segments, ∀ rest, EndsSegment rest →
      SegmentAt (s.text.toList ++ rest) (segmentReadBack s) rest := fun s hs rest hrest =>
    segmentAt_text (h s hs) hrest
  apply LiteralAt.parse_eq
  rw [toList_literalText]
  exact literalAt_intercalate hitem []

/-! ## Segments that are read back unchanged -/

/-- The characters of a segment value's text, if it has one. -/
def textChars : SegmentValue → List Char
  | .binary text | .utf8 text | .utf16 text | .utf32 text => text.toList
  | _ => []

theorem valueReadBack_beq_iff {v : SegmentValue} (hv : v.kind ≠ .float) :
    (valueReadBack v == v) = true ↔ ∀ c ∈ textChars v, ¬ ShownByCodePoint c := by
  have htext : ∀ text : String, (textReadBack text == text) = true ↔
      ∀ c ∈ text.toList, ¬ ShownByCodePoint c := fun text =>
    beq_iff_eq.trans textReadBack_eq_iff
  cases v with
  | integer n =>
    have hequal : (SegmentValue.integer n == .integer n) = true := beq_self_eq_true n
    simp [valueReadBack, textChars, hequal]
  | float x => exact absurd rfl hv
  | bitstring bits =>
    have hequal : (SegmentValue.bitstring (.ofValues bits.values) == .bitstring bits) = true :=
      beq_self_eq_true bits.values
    simp [valueReadBack, textChars, hequal]
  | binary text => exact htext text
  | utf8 text => exact htext text
  | utf16 text => exact htext text
  | utf32 text => exact htext text

/-- A segment that was built is read back as an equal one if its value is. -/
theorem segmentReadBack_beq_iff {s : Segment} (hs : s.Built) (hfloat : s.kind ≠ .float) :
    (segmentReadBack s == s) = true ↔ ∀ c ∈ textChars s.value, ¬ ShownByCodePoint c := by
  rw [← valueReadBack_beq_iff hfloat]
  constructor
  · intro h
    have hvalue := Segment.value_beq_of_beq h
    rwa [segmentReadBack, Segment.withModifiers, SegmentValue.value_plain] at hvalue
  · intro h
    have hbeq := Segment.withModifiers_beq h s.modifiers
    rwa [← hs.eq_withModifiers] at hbeq

theorem map_beq_self_iff {α : Type} [BEq α] {f : α → α} {xs : List α} :
    (xs.map f == xs) = true ↔ ∀ x ∈ xs, (f x == x) = true := by
  induction xs with
  | nil => simp
  | cons x xs ih => simp [ih]

/-- The text of segments without floats is always a literal. The segments it is read as are equal
to the original ones exactly when no character of a segment's text is shown by its code point;
characters that stand for themselves or have a short escape are not. -/
theorem literal_text_reads_back :
    (∀ segments : List Segment, (∀ s ∈ segments, s.Built ∧ s.kind ≠ .float) →
      ∃ parsed, parse (literalText segments) = .ok parsed ∧
        ((parsed == segments) = true ↔
          ∀ s ∈ segments, ∀ c ∈ textChars s.value, ¬ ShownByCodePoint c)) ∧
    ∀ c, ¬ ShownByCodePoint c ↔
      quotedChar c = [c] ∨ ∃ d ∈ shortEscapes, quotedChar c = ['\\', d] := by
  refine ⟨?_, fun c => not_shownByCodePoint_iff⟩
  intro segments h
  refine ⟨_, parse_literalText fun s hs => (h s hs).2, ?_⟩
  rw [map_beq_self_iff]
  exact forall₂_congr fun s hs => segmentReadBack_beq_iff (h s hs).1 (h s hs).2

/-- A negative integer, a nested bitstring, a short escape and several modifiers come back; a
filler, which is shown by its code point, does not. -/
theorem literal_text_reads_back_filler :
    (∃ parsed, parse (literalText
        [(Segment.integer (-5)).withModifier (.size 16), .bitstring (.ofValues [1, -2]),
          ((Segment.binary "a\t\"").withModifier .signed).withModifier (.unit 4)]) = .ok parsed ∧
      (parsed == [(Segment.integer (-5)).withModifier (.size 16), .bitstring (.ofValues [1, -2]),
          ((Segment.binary "a\t\"").withModifier .signed).withModifier (.unit 4)]) = true) ∧
    ∃ parsed, parse (literalText [.utf8 "a\u115f"]) = .ok parsed ∧
      (parsed == [.utf8 "a\u115f"]) = false := by
  have hreads := literal_text_reads_back.1
  constructor
  · obtain ⟨parsed, hparse, hiff⟩ := hreads
      [(Segment.integer (-5)).withModifier (.size 16), .bitstring (.ofValues [1, -2]),
        ((Segment.binary "a\t\"").withModifier .signed).withModifier (.unit 4)] (by
      simp only [List.forall_mem_cons]
      exact ⟨⟨.withModifier _ (.integer _), by decide⟩, ⟨.bitstring _, by decide⟩,
        ⟨.withModifier _ (.withModifier _ (.binary _)), by decide⟩, by simp⟩)
    have hall : ['a', '\t', '"'].all (fun c => !decide (ShownByCodePoint c)) = true := by
      decide +kernel
    have htext : ∀ c ∈ ['a', '\t', '"'], ¬ ShownByCodePoint c := by
      intro c hc
      simpa using List.all_eq_true.mp hall c hc
    refine ⟨parsed, hparse, hiff.mpr ?_⟩
    simp only [List.forall_mem_cons]
    exact ⟨List.forall_mem_nil _, List.forall_mem_nil _, htext, by simp⟩
  · obtain ⟨parsed, hparse, hiff⟩ := hreads [.utf8 "a\u115f"]
      (List.forall_mem_singleton.mpr ⟨.utf8 _, by decide⟩)
    refine ⟨parsed, hparse, Bool.eq_false_iff.mpr fun hequal => ?_⟩
    have hneeds : needsCodePoint '\u115f' = true := by
      simp [needsCodePoint, isHangulFiller]
    have hshown : ShownByCodePoint '\u115f' := if_pos hneeds
    exact hiff.mp hequal _ List.mem_cons_self '\u115f' (by decide) hshown

end Literal

end ClauseMatch
