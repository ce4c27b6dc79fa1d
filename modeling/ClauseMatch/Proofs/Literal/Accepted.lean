import ClauseMatch.Proofs.Bitstring.Building
import ClauseMatch.Proofs.Bitstring.Bytes
import ClauseMatch.Proofs.Bitstring.Concatenation
import ClauseMatch.Proofs.Literal.Diagnosis
import ClauseMatch.Proofs.Literal.Nesting

/-!
# Segments of accepted sources

The segments of an accepted source are built as segments are built anywhere else, so that each
records what its value and its modifiers say. The segments of the literals nested in it are encoded
while the source is read. One that cannot be encoded is therefore enough to reject the source, in
whatever literal it stands, what comes before it, and what comes after it; and if it is the first
fault, it is reported at the brackets of its literal.
-/

namespace ClauseMatch.Literal

variable {source place start rest : List Char} {segments : List Segment} {s : Segment}

/-! ## Segments are built -/

theorem Typed.built {type : Option TypeName} {value : RawValue} (h : Typed type value s) :
    s.Built := by
  cases h with
  | untypedInteger n | integer n => exact .integer n
  | untypedFloat x | float x => exact .float x
  | floatOfInteger n => exact .float _
  | untypedBits values | bitstring values | bits values => exact .bitstring _
  | untypedText text | binary text | bytes text => exact .binary text
  | utf8 text => exact .utf8 text
  | utf16 text => exact .utf16 text
  | utf32 text => exact .utf32 text
  | utf8OfCode => exact .utf8 _
  | utf16OfCode => exact .utf16 _
  | utf32OfCode => exact .utf32 _

theorem built_foldl_withModifier (h : s.Built) (ms : List Modifier) :
    (ms.foldl Segment.withModifier s).Built := by
  induction ms generalizing s with
  | nil => exact h
  | cons m ms ih => exact ih (h.withModifier m)

theorem SegmentAt.built (h : SegmentAt source s rest) : s.Built := by
  obtain ⟨-, -, -, htyped⟩ := h
  exact built_foldl_withModifier htyped.built _

theorem built_of_parse {text : String} (h : parse text = .ok segments) :
    ∀ s ∈ segments, s.Built := by
  intro s hs
  obtain ⟨place, stop, hsegment⟩ := exists_segmentAt_of_parse h s hs
  exact hsegment.built

/-- A float records a size, whatever modifiers it has been given. -/
theorem exists_recordedSize_of_built (h : s.Built) (hfloat : s.kind = .float) :
    ∃ size, s.recordedSize = some size := by
  obtain ⟨x, hx⟩ : ∃ x, s.value = .float x := by
    cases hvalue : s.value <;> simp_all [Segment.kind, SegmentValue.kind]
  have hsize : s.recordedSize = Segment.sizeAfter s.modifiers (some 64) := by
    rw [h.eq_withModifiers, hx]
    rfl
  rw [hsize, Segment.sizeAfter_eq]
  cases lastSize? s.modifiers with
  | none => exact ⟨64, rfl⟩
  | some size => exact ⟨size, rfl⟩

/-! ## Places that the reader comes to -/

/-- From the opening of a literal on, the reader comes to every place in it where a value begins. -/
theorem OpenAt.exists_run_eq (h : OpenAt source segments place) (hbegins : BeginsValue place) :
    ∃ inside, source = '<' :: '<' :: inside ∧ ∀ around,
      (openLiteral source inside around).run =
        (Reader.mk .value ⟨source, segments.reverse⟩ around place).run := by
  induction h with
  | @opening inside place hblanks =>
    refine ⟨inside, rfl, fun around => ?_⟩
    rw [openLiteral, hblanks.skipBlank_eq hbegins.not_blank]
    obtain ⟨c, hc, -, hc'⟩ := hbegins
    split
    · obtain rfl : '>' = c := by simpa using hc
      exact absurd rfl hc'
    · rfl
  | @comma segments s source place stop more next _ hsegment hcomma hnext ih =>
    obtain ⟨inside, hinside, hrun⟩ := ih hsegment.begins
    refine ⟨inside, hinside, fun around => ?_⟩
    obtain ⟨value, after, hvalue, hread⟩ :=
      hsegment.run_eq hcomma (endsSegment_comma more) ⟨source, segments.reverse⟩ around
    rw [hrun around, hvalue, run_comma hread, hnext.skipBlank_eq hbegins.not_blank,
      List.reverse_append]
    rfl

theorem run_value_nested {inside : List Char} (current : OpenLiteral)
    (outer : List OpenLiteral) :
    (Reader.mk .value current outer ('<' :: '<' :: inside)).run =
      (openLiteral ('<' :: '<' :: inside) inside (current :: outer)).run := by
  rw [Reader.run_eq]
  rfl

theorem beginsValue_nested (inside : List Char) : BeginsValue ('<' :: '<' :: inside) :=
  ⟨'<', rfl, by decide⟩

/-- The reader comes to every place where a segment is due and a value begins. -/
theorem SegmentDue.exists_readLiteral_eq (h : SegmentDue source place)
    (hbegins : BeginsValue place) :
    ∃ current outer, readLiteral source = (Reader.mk .value current outer place).run := by
  induction h with
  | @outermost segments start place hblanks hopen =>
    obtain ⟨inside, rfl, hrun⟩ := hopen.exists_run_eq hbegins
    have hskip : skipBlank source = '<' :: '<' :: inside :=
      hblanks.skipBlank_eq (not_head_cons (by decide) _)
    refine ⟨⟨'<' :: '<' :: inside, segments.reverse⟩, [], ?_⟩
    simp only [readLiteral, hskip]
    exact hrun []
  | @nested segments start place _ hopen ih =>
    obtain ⟨inside, rfl, hrun⟩ := hopen.exists_run_eq hbegins
    obtain ⟨current, outer, hread⟩ := ih (beginsValue_nested inside)
    refine ⟨⟨'<' :: '<' :: inside, segments.reverse⟩, current :: outer, ?_⟩
    rw [hread, run_value_nested]
    exact hrun (current :: outer)

/-! ## Segments in nested literals -/

/-- A segment of a literal that is nested, at any depth, in the literal in `source`. It has ended:
past blanks it is followed by a comma or a closing bracket. -/
def NestedSegment (source : List Char) (s : Segment) : Prop :=
  ∃ start segments place stop rest, SegmentDue source start ∧ OpenAt start segments place ∧
    SegmentAt place s stop ∧ Blanks stop rest ∧ EndsSegment rest

theorem not_misfit_of_ofSegments {bits : Bitstring}
    (h : Bitstring.ofSegments segments = .ok bits) : ∀ s ∈ segments, ¬ s.Misfit := by
  intro s hs hmisfit
  obtain ⟨parts, hparts, -⟩ := map_eq_ok_iff.mp h
  have hencode := exists_encode_of_mem (encodeSegments_eq_ok_iff.mp hparts) hs
  exact Segment.exists_encode_iff.mp hencode hmisfit

theorem not_misfit_of_run_closeLiteral {parent : OpenLiteral} {outer : List OpenLiteral}
    {result : List Segment × List Char}
    (h : (closeLiteral segments source (parent :: outer) rest).run = .ok result) :
    ∀ s ∈ segments, ¬ s.Misfit := by
  obtain ⟨bits, hbits⟩ := ofSegments_of_run_closeLiteral h
  exact not_misfit_of_ofSegments hbits

/-- A run through a nested literal that ends well has no misfit among its segments. -/
theorem not_misfit_of_run {value : RawValue} {segment : List Char} {current parent : OpenLiteral}
    {outer : List OpenLiteral} {result : List Segment × List Char}
    (hsegment : readSegment value segment source = .ok (s, rest))
    (h : (Reader.mk (.options value segment) current (parent :: outer) source).run = .ok result) :
    ¬ s.Misfit := by
  have hstep := h
  rw [Reader.run_eq] at hstep
  simp only [Reader.step, hsegment] at hstep
  split at hstep
  · rename_i heq
    simp at heq
  · rename_i s' more heq
    obtain ⟨rfl, -⟩ : s = s' ∧ rest = ',' :: more := by simpa using heq
    obtain ⟨own, stop, -, -, hclose⟩ := Reader.runsThrough _ result hstep
    exact not_misfit_of_run_closeLiteral hclose s (by simp)
  · rename_i s' stop heq
    obtain ⟨rfl, -⟩ : s = s' ∧ rest = '>' :: '>' :: stop := by simpa using heq
    exact not_misfit_of_run_closeLiteral hstep s (by simp)
  · simp [Progress.run] at hstep

/-- A misfit in a nested literal is not read, wherever it stands. -/
theorem NestedSegment.not_misfit {result : List Segment × List Char} (h : NestedSegment source s)
    (hread : readLiteral source = .ok result) : ¬ s.Misfit := by
  obtain ⟨start, segments, place, stop, rest, hdue, hopen, hsegment, hstop, hends⟩ := h
  obtain ⟨inside, rfl, hinside⟩ := hopen.exists_run_eq hsegment.begins
  obtain ⟨current, outer, hcurrent⟩ := hdue.exists_readLiteral_eq (beginsValue_nested inside)
  obtain ⟨value, after, hvalue, hsegmentRead⟩ :=
    hsegment.run_eq hstop hends ⟨'<' :: '<' :: inside, segments.reverse⟩ (current :: outer)
  rw [hcurrent, run_value_nested, hinside, hvalue] at hread
  exact not_misfit_of_run hsegmentRead hread

theorem exists_parse_error_of_nested_misfit {text : String} (h : NestedSegment text.toList s)
    (hmisfit : s.Misfit) : ∃ e, parse text = .error e := by
  cases hparse : parse text with
  | error e => exact ⟨e, rfl⟩
  | ok segments =>
    obtain ⟨hblanks, hliteral, -⟩ := readSource_eq_ok_iff.mp (parse_eq_ok.mp hparse)
    have hread := readLiteral_eq_ok_iff.mpr ⟨_, hblanks, hliteral⟩
    exact absurd hmisfit (h.not_misfit hread)

/-- A nested literal that cannot be encoded is reported where it begins. -/
theorem parse_eq_error_of_nested {text : String} {before : List Char} {cause : EncodeError}
    (htext : text.toList = before ++ start) (hdue : SegmentDue text.toList start)
    (hliteral : LiteralAt start segments rest)
    (hcause : Bitstring.ofSegments segments = .error cause) :
    parse text = .error ⟨.nested cause, byteLength before⟩ := by
  obtain ⟨inside, rfl, hrun⟩ := hliteral.exists_run_eq
  obtain ⟨current, outer, hcurrent⟩ := hdue.exists_readLiteral_eq (beginsValue_nested inside)
  have hread : readLiteral text.toList = .error ⟨.nested cause, '<' :: '<' :: inside⟩ := by
    rw [hcurrent, run_value_nested, hrun, closeLiteral]
    simp only [closedValues, hcause]
    rfl
  have hsource : readSource text.toList = .error ⟨.nested cause, '<' :: '<' :: inside⟩ := by
    simp only [readSource, hread]
  simp only [parse, hsource]
  rw [Failure.toParseError, htext, byteLength_append, Nat.add_sub_cancel]

end ClauseMatch.Literal
