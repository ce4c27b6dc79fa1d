import ClauseMatch.Proofs.Literal.Body
import ClauseMatch.Proofs.Literal.Bytes

/-!
# Nested literals

Further brackets around a literal do not change what it encodes to: the literal inside is encoded
when it is closed, and only its elements are kept. If it cannot be encoded, every text with further
brackets fails, for the same reason and at the brackets of the literal itself. What is kept of a
nested literal never nests again.
-/

namespace ClauseMatch.Literal

variable {source rest : List Char} {segments : List Segment}

/-- A text inside a number of further brackets. -/
def nestedText (depth : Nat) (text : String) : String :=
  String.join (List.replicate depth "<<") ++ text ++ String.join (List.replicate depth ">>")

theorem nestedText_zero (text : String) : nestedText 0 text = text := by
  simp [nestedText]

theorem nestedText_succ (depth : Nat) (text : String) :
    nestedText (depth + 1) text = bracketed (nestedText depth text) := by
  rw [nestedText, List.replicate_succ, List.replicate_succ']
  simp [nestedText, bracketed, String.append_assoc]

/-! ## Literals that encode -/

theorem parse_nestedText {text : String} {bits : Bitstring} (h : parse text = .ok segments)
    (hbits : Bitstring.ofSegments segments = .ok bits) (depth : Nat) :
    parse (nestedText (depth + 1) text) = .ok [.bitstring (.ofValues bits.values)] := by
  induction depth with
  | zero =>
    rw [nestedText_succ, nestedText_zero]
    exact (lists_of_parse h hbits).parse_bracketed
  | succ depth ih =>
    rw [nestedText_succ]
    exact (lists_of_parse ih (ofSegments_bitstring _)).parse_bracketed

/-! ## Literals that do not encode -/

/-- A text after a number of opening brackets. -/
def opened : Nat → List Char → List Char
  | 0, inside => inside
  | depth + 1, inside => '<' :: '<' :: opened depth inside

theorem byteLength_opened (depth : Nat) (inside : List Char) :
    byteLength (opened depth inside) = 2 * depth + byteLength inside := by
  induction depth with
  | zero => simp [opened]
  | succ depth ih =>
    have hbracket : Char.utf8Size '<' = 1 := rfl
    rw [opened, byteLength_cons, byteLength_cons, ih, hbracket]
    omega

theorem toList_nestedText (depth : Nat) (text : String) :
    (nestedText depth text).toList =
      opened depth (text.toList ++ (String.join (List.replicate depth ">>")).toList) := by
  have hopened (inside : List Char) :
      (String.join (List.replicate depth "<<")).toList ++ inside = opened depth inside := by
    induction depth with
    | zero => simp [opened]
    | succ depth ih => simpa [opened, List.replicate_succ] using ih
  rw [nestedText, String.append_assoc, String.toList_append, String.toList_append, hopened]

/-- Opening a literal that begins with a nested one comes to opening the nested one. -/
theorem run_openLiteral_nested {inside inner : List Char}
    (h : skipBlank inside = '<' :: '<' :: inner) (around : List OpenLiteral) :
    (openLiteral source inside around).run =
      (openLiteral ('<' :: '<' :: inner) inner (⟨source, []⟩ :: around)).run := by
  rw [openLiteral, h]
  exact Reader.run_eq _

/-- A literal inside another one, or inside further brackets, has to encode. -/
theorem run_opened_error {cause : EncodeError} {start : List Char}
    (hliteral : LiteralAt start segments rest) (hblanks : Blanks source start)
    (hcause : Bitstring.ofSegments segments = .error cause) (depth : Nat) :
    ∀ around : List OpenLiteral, 1 ≤ depth + around.length →
      ∃ inside, skipBlank (opened depth source) = '<' :: '<' :: inside ∧
        (openLiteral ('<' :: '<' :: inside) inside around).run = .error ⟨.nested cause, start⟩ := by
  -- Each further bracket adds to the literals that are open, so these stay arbitrary.
  induction depth with
  | zero =>
    intro around haround
    obtain ⟨inside, rfl, hrun⟩ := hliteral.exists_run_eq
    refine ⟨inside, hblanks.skipBlank_eq (not_head_cons (by decide) _), ?_⟩
    obtain ⟨parent, around, rfl⟩ := List.exists_cons_of_length_pos (by omega : 0 < around.length)
    rw [hrun, closeLiteral]
    simp only [closedValues, hcause]
    rfl
  | succ depth ih =>
    intro around _
    obtain ⟨inner, hinner, hrun⟩ := ih (⟨opened (depth + 1) source, []⟩ :: around)
      (by rw [List.length_cons]; omega)
    refine ⟨opened depth source, skipBlank_eq_self (not_head_cons (by decide) _), ?_⟩
    rw [run_openLiteral_nested hinner]
    exact hrun

theorem readSource_opened_error {cause : EncodeError} {start : List Char} {depth : Nat}
    (hliteral : LiteralAt start segments rest) (hblanks : Blanks source start)
    (hcause : Bitstring.ofSegments segments = .error cause) (hdepth : 1 ≤ depth) :
    readSource (opened depth source) = .error ⟨.nested cause, start⟩ := by
  obtain ⟨inside, hinside, hrun⟩ := run_opened_error hliteral hblanks hcause depth [] hdepth
  simp only [readSource, readLiteral, hinside, hrun]

/-- The failure is reported as far into the text as its further brackets and the blanks before the
literal go. -/
theorem parse_nestedText_error {text : String} {cause : EncodeError} {blanks start : List Char}
    {depth : Nat} (hliteral : LiteralAt start segments rest)
    (hblanks : ∀ c ∈ blanks, isBlank c = true) (htext : text.toList = blanks ++ start)
    (hcause : Bitstring.ofSegments segments = .error cause) (hdepth : 1 ≤ depth) :
    parse (nestedText depth text) = .error ⟨.nested cause, 2 * depth + byteLength blanks⟩ := by
  obtain ⟨own, -, rfl, hown⟩ := hliteral.closed
  obtain ⟨closing, hclosing⟩ : ∃ closing, (nestedText depth text).toList =
      opened depth (blanks ++ (own ++ (rest ++ closing))) := by
    refine ⟨(String.join (List.replicate depth ">>")).toList, ?_⟩
    rw [toList_nestedText, htext, List.append_assoc, List.append_assoc]
  have hread :=
    readSource_opened_error (hown (rest ++ closing)) ⟨blanks, hblanks, rfl⟩ hcause hdepth
  simp only [parse, hclosing, hread]
  rw [Failure.toParseError, byteLength_opened, byteLength_append, ← Nat.add_assoc,
    Nat.add_sub_cancel]

/-! ## What is kept of nested literals -/

/-- A bitstring in the segment has one plain integer segment for every element, and no other. -/
def IsFlat (s : Segment) : Prop :=
  ∀ bits, s.value = .bitstring bits → bits.segments = bits.values.map Segment.integer

theorem Typed.isFlat {type : Option TypeName} {value : RawValue} {s : Segment}
    (h : Typed type value s) : IsFlat s := by
  intro bits hbits
  have hvalues {values : List Int64} (hvalue : s = .bitstring (.ofValues values)) :
      bits.segments = bits.values.map Segment.integer := by
    rw [hvalue] at hbits
    obtain rfl : Bitstring.ofValues values = bits := SegmentValue.bitstring.inj hbits
    rfl
  cases h with
  | untypedBits | bitstring | bits => exact hvalues rfl
  | _ => exact SegmentValue.noConfusion hbits

theorem SegmentAt.isFlat {s : Segment} (h : SegmentAt source s rest) : IsFlat s := by
  obtain ⟨-, -, -, htyped⟩ := h
  rw [← Segment.withModifiers_eq_foldl]
  exact htyped.isFlat

theorem isFlat_of_parse {text : String} (h : parse text = .ok segments) :
    ∀ s ∈ segments, IsFlat s := by
  intro s hs
  obtain ⟨place, stop, hsegment⟩ := exists_segmentAt_of_parse h s hs
  exact hsegment.isFlat

/-! ## Transparency -/

theorem toNat_sizeOfLength (length : Nat) :
    (sizeOfLength length).toNat = min length (UInt32.size - 1) :=
  UInt32.toNat_ofNat_of_lt' (Nat.lt_of_le_of_lt (Nat.min_le_right ..) (by decide))

/-- Inside further brackets a literal that encodes is one bitstring segment without modifiers, of
the literal's own elements and their number as its size; a literal that does not encode makes the
text fail at the literal's own brackets, for the reason why it does not encode. In every accepted
source, the segments of a nested bitstring are plain integers, one for every element. -/
theorem nesting_is_transparent (text : String) (segments : List Segment)
    (h : parse text = .ok segments) :
    (∀ bits, Bitstring.ofSegments segments = .ok bits → ∀ depth, 1 ≤ depth →
      ∃ s, parse (nestedText depth text) = .ok [s] ∧
        (∃ inner, s.value = .bitstring inner ∧ inner.values = bits.values) ∧ s.modifiers = [] ∧
        s.recordedSize.map UInt32.toNat = some (min bits.length (UInt32.size - 1)) ∧
        (Bitstring.ofSegments [s]).map (·.values) = .ok bits.values) ∧
    (∀ cause, Bitstring.ofSegments segments = .error cause →
      "<<".toList <+: skipBlank text.toList ∧ ∀ depth, 1 ≤ depth →
        parse (nestedText depth text) =
          .error ⟨.nested cause, 2 * depth + byteLength (text.toList.takeWhile isBlank)⟩) ∧
    ∀ s ∈ segments, ∀ inner, s.value = .bitstring inner →
      inner.segments = inner.values.map Segment.integer := by
  refine ⟨fun bits hbits depth hdepth => ?_, fun cause hcause => ?_, isFlat_of_parse h⟩
  · obtain ⟨depth, rfl⟩ := Nat.exists_eq_add_of_le' hdepth
    refine ⟨_, parse_nestedText h hbits depth, ⟨.ofValues bits.values, rfl, rfl⟩, rfl, ?_, ?_⟩
    · exact congrArg some (toNat_sizeOfLength _)
    · rw [ofSegments_bitstring]
      rfl
  · obtain ⟨hstart, hliteral, -⟩ := readSource_eq_ok_iff.mp (parse_eq_ok.mp h)
    obtain ⟨inside, rfl, -⟩ := hliteral.exists_run_eq
    have hskip : skipBlank text.toList = '<' :: '<' :: inside :=
      hstart.skipBlank_eq (not_head_cons (by decide) _)
    have hrun := longestRun_takeWhile isBlank text.toList
    refine ⟨⟨inside, hskip.symm⟩, fun depth hdepth => ?_⟩
    exact parse_nestedText_error hliteral hrun.within (hskip ▸ hrun.split) hcause hdepth

/-- A literal behind a blank inside two further pairs of brackets, and one behind a blank of three
bytes that has a float of sixteen bits. -/
theorem nesting_is_transparent_two_deep :
    (parse " <<1, 300>>" = .ok [.integer 1, .integer 300] ∧
      ∃ s, parse (nestedText 2 " <<1, 300>>") = .ok [s] ∧
        (Bitstring.ofSegments [s]).map (·.values) = .ok [1, 300]) ∧
    ∃ segments, parse "\u2003<<1.5::16>>" = .ok segments ∧
      Bitstring.ofSegments segments = .error (.invalidFloatSize 16) ∧
      parse (nestedText 2 "\u2003<<1.5::16>>") = .error ⟨.nested (.invalidFloatSize 16), 7⟩ := by
  constructor
  · have hparse : parse " <<1, 300>>" = .ok [.integer 1, .integer 300] := by with_unfolding_all rfl
    obtain ⟨s, hs, -, -, -, hvalues⟩ := (nesting_is_transparent _ _ hparse).1 _
      (ofSegments_integers [1, 300]) 2 (by decide)
    exact ⟨hparse, s, hs, hvalues⟩
  · obtain ⟨segments, hparse, hcause⟩ : ∃ segments, parse "\u2003<<1.5::16>>" = .ok segments ∧
        Bitstring.ofSegments segments = .error (.invalidFloatSize 16) :=
      ⟨_, by with_unfolding_all rfl, rfl⟩
    have hnested := ((nesting_is_transparent _ _ hparse).2.1 _ hcause).2 2 (by decide)
    exact ⟨segments, hparse, hcause, hnested⟩

end ClauseMatch.Literal
