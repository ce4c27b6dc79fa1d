import ClauseMatch.Proofs.Command.DecimalOutput
import ClauseMatch.Proofs.Command.HexOutput
import ClauseMatch.Proofs.Literal.Accepted
import ClauseMatch.Proofs.Literal.Joining

/-!
# How encoding a literal ends

The encode command goes through three stages, each of which can fail in a way of its own: the source
is read, its segments are encoded, and the elements are printed. Without a listing of segments a
failure of a stage is a failure of the command, and the stages before it have then succeeded; so
every source comes to exactly one end, and which one is a matter of the source and the format alone.
-/

namespace ClauseMatch.Command

open Literal (EncodesTo)

variable {format : OutputFormat} {source out : String} {segments : List Segment}
  {bits : Bitstring} {cause : EncodeError}

/-- The first element that is not a byte, and its place. -/
def FirstOffender (values : List Int64) (index : Nat) (v : Int64) : Prop :=
  ∃ before after, values = before ++ v :: after ∧ (∀ u ∈ before, IsByte u) ∧ ¬ IsByte v ∧
    index = before.length

/-! ## Printing -/

/-- Printing fails in hexadecimal only, at the first element that is not a byte. -/
theorem render_eq_error_iff :
    render format bits = .error cause ↔
      format = .hex ∧ ∃ index v, FirstOffender bits.values index v ∧ cause = .notAByte index v := by
  cases format with
  | decimal => simp [render]
  | hex =>
    rw [render, map_eq_error_iff, Bitstring.toBytes_eq_error_iff]
    simp only [true_and]
    constructor
    · rintro ⟨before, v, after, hvalues, hbefore, hv, rfl⟩
      exact ⟨before.length, v, ⟨before, after, hvalues, hbefore, hv, rfl⟩, rfl⟩
    · rintro ⟨index, v, ⟨before, after, hvalues, hbefore, hv, rfl⟩, rfl⟩
      exact ⟨before, v, after, hvalues, hbefore, hv, rfl⟩

theorem exists_render_iff :
    (∃ out, render format bits = .ok out) ↔ (format = .hex → ∀ v ∈ bits.values, IsByte v) := by
  cases format with
  | decimal => simp [render]
  | hex =>
    rw [← Bitstring.exists_toBytes_iff]
    simp only [render, map_eq_ok_iff, forall_const]
    constructor
    · rintro ⟨_, bytes, hbytes, -⟩
      exact ⟨bytes, hbytes⟩
    · rintro ⟨bytes, hbytes⟩
      exact ⟨_, bytes, hbytes, rfl⟩

/-! ## Stages -/

/-- Without a listing the segments are encoded and the elements are printed. -/
theorem encodeSegments_unlisted (format : OutputFormat) (segments : List Segment) :
    encodeSegments ⟨format, false⟩ segments =
      (Bitstring.ofSegments segments).bind (render format) := by
  have hsteps : encodeSegments ⟨format, false⟩ segments =
      (Bitstring.ofSegments segments).bind fun bits =>
        (render format bits).bind fun shown => .ok ("" ++ shown) := rfl
  rw [hsteps]
  cases Bitstring.ofSegments segments with
  | error cause => rfl
  | ok bits =>
    cases hshown : render format bits <;> simp [Except.bind, hshown]

theorem bind_eq_error_iff {ε α β : Type} {f : α → Except ε β} {result : Except ε α} {e : ε} :
    result.bind f = .error e ↔ result = .error e ∨ ∃ a, result = .ok a ∧ f a = .error e := by
  cases result <;> simp [Except.bind]

theorem mapError_eq_error_iff {ε ε' β : Type} {f : ε → ε'} {result : Except ε β} {e : ε'} :
    result.mapError f = .error e ↔ ∃ cause, result = .error cause ∧ f cause = e := by
  cases result <;> simp [Except.mapError]

theorem encodeLiteral_eq_parse_error_iff {config : EncodeConfig} {e : Literal.ParseError} :
    encodeLiteral config source = .error (.parse e) ↔ Literal.parse source = .error e := by
  unfold encodeLiteral
  cases Literal.parse source with
  | error e' => simp
  | ok segments => simp [mapError_eq_error_iff]

theorem encodeLiteral_eq_encode_error_iff :
    encodeLiteral ⟨format, false⟩ source = .error (.encode cause) ↔
      ∃ segments, Literal.parse source = .ok segments ∧
        (Bitstring.ofSegments segments = .error cause ∨
          ∃ bits, Bitstring.ofSegments segments = .ok bits ∧ render format bits = .error cause) := by
  unfold encodeLiteral
  cases Literal.parse source with
  | error e => simp
  | ok segments =>
    simp [mapError_eq_error_iff, encodeSegments_unlisted, bind_eq_error_iff]

theorem encodeLiteral_eq_ok_iff :
    encodeLiteral ⟨format, false⟩ source = .ok out ↔
      ∃ segments bits, Literal.parse source = .ok segments ∧
        Bitstring.ofSegments segments = .ok bits ∧ render format bits = .ok out := by
  unfold encodeLiteral
  cases Literal.parse source with
  | error e => simp
  | ok segments =>
    simp only [encodeSegments_unlisted, mapError_eq_ok_iff]
    cases hbits : Bitstring.ofSegments segments <;> simp [Except.bind, hbits]

/-! ## Ends -/

theorem encodesTo_iff {values : List Int64} (hparse : Literal.parse source = .ok segments) :
    EncodesTo source values ↔
      ∃ bits, Bitstring.ofSegments segments = .ok bits ∧ bits.values = values := by
  simp [EncodesTo, hparse]

/-- A source that is read encodes to something unless there is a misfit among its segments. -/
theorem exists_encodesTo_iff :
    (∃ values, EncodesTo source values) ↔
      ∃ segments, Literal.parse source = .ok segments ∧ ∀ s ∈ segments, ¬ s.Misfit := by
  constructor
  · rintro ⟨_, segments, bits, hparse, hbits, -⟩
    exact ⟨segments, hparse, Literal.not_misfit_of_ofSegments hbits⟩
  · rintro ⟨segments, hparse, hfits⟩
    cases hbits : Bitstring.ofSegments segments with
    | ok bits => exact ⟨bits.values, segments, bits, hparse, hbits, rfl⟩
    | error cause =>
      obtain ⟨s, ⟨before, after, rfl, -, hs⟩, -⟩ := Bitstring.ofSegments_eq_error_iff.mp hbits
      exact absurd hs (hfits s (by simp))

/-- A float of a size that cannot be encoded is named by its size. -/
theorem encodeLiteral_eq_invalidFloatSize_iff {size : UInt32} :
    encodeLiteral ⟨format, false⟩ source = .error (.encode (.invalidFloatSize size)) ↔
      ∃ segments s, Literal.parse source = .ok segments ∧ FirstMisfit segments s ∧
        s.recordedSize = some size := by
  rw [encodeLiteral_eq_encode_error_iff]
  constructor
  · rintro ⟨segments, hparse, hcause | ⟨bits, -, hshown⟩⟩
    · obtain ⟨s, hs, hsize⟩ := Bitstring.ofSegments_eq_error_iff.mp hcause
      obtain ⟨before, after, rfl, hbefore, hmisfit⟩ := hs
      have hbuilt : s.Built := Literal.built_of_parse hparse s (by simp)
      obtain ⟨recorded, hrecorded⟩ := Literal.exists_recordedSize_of_built hbuilt hmisfit.float
      refine ⟨_, s, hparse, ⟨before, after, rfl, hbefore, hmisfit⟩, ?_⟩
      rw [Segment.misfitError, hrecorded, EncodeError.invalidFloatSize.injEq] at hsize
      rw [hrecorded, hsize, Option.getD_some]
    · obtain ⟨-, index, v, -, hcause⟩ := render_eq_error_iff.mp hshown
      cases hcause
  · rintro ⟨segments, s, hparse, hs, hsize⟩
    refine ⟨segments, hparse, Or.inl (Bitstring.ofSegments_eq_error_iff.mpr ⟨s, hs, ?_⟩)⟩
    rw [Segment.misfitError, hsize, Option.getD_some]

theorem encodeLiteral_eq_notAByte_iff {index : Nat} {v : Int64} :
    encodeLiteral ⟨format, false⟩ source = .error (.encode (.notAByte index v)) ↔
      format = .hex ∧ ∃ values, EncodesTo source values ∧ FirstOffender values index v := by
  rw [encodeLiteral_eq_encode_error_iff]
  constructor
  · rintro ⟨segments, hparse, hcause | ⟨bits, hbits, hshown⟩⟩
    · obtain ⟨s, -, hsize⟩ := Bitstring.ofSegments_eq_error_iff.mp hcause
      cases hsize
    · obtain ⟨hformat, index', v', hfirst, hcause⟩ := render_eq_error_iff.mp hshown
      obtain ⟨rfl, rfl⟩ := EncodeError.notAByte.inj hcause
      exact ⟨hformat, bits.values, (encodesTo_iff hparse).mpr ⟨bits, hbits, rfl⟩, hfirst⟩
  · rintro ⟨hformat, _, ⟨segments, bits, hparse, hbits, rfl⟩, hfirst⟩
    exact ⟨segments, hparse, Or.inr ⟨bits, hbits,
      render_eq_error_iff.mpr ⟨hformat, index, v, hfirst, rfl⟩⟩⟩

theorem exists_encodeLiteral_iff :
    (∃ out, encodeLiteral ⟨format, false⟩ source = .ok out) ↔
      ∃ values, EncodesTo source values ∧ (format = .hex → ∀ v ∈ values, IsByte v) := by
  simp only [encodeLiteral_eq_ok_iff]
  constructor
  · rintro ⟨out, segments, bits, hparse, hbits, hshown⟩
    exact ⟨bits.values, ⟨segments, bits, hparse, hbits, rfl⟩, exists_render_iff.mp ⟨out, hshown⟩⟩
  · rintro ⟨_, ⟨segments, bits, hparse, hbits, rfl⟩, hbytes⟩
    obtain ⟨out, hshown⟩ := exists_render_iff.mpr hbytes
    exact ⟨out, segments, bits, hparse, hbits, hshown⟩

/-- What is printed in hexadecimal spells what the source encodes to, and nothing else. -/
theorem encodesTo_iff_hexElements? (h : encodeLiteral ⟨.hex, false⟩ source = .ok out)
    (values : List Int64) : EncodesTo source values ↔ hexElements? out = some values := by
  obtain ⟨segments, bits, hparse, hbits, hshown⟩ := encodeLiteral_eq_ok_iff.mp h
  rw [encodesTo_iff hparse, hexElements?_of_render hshown]
  simp [hbits]

/-- Encoding a literal without a listing ends in one of four ways. It fails to be read exactly if
the source is rejected, for the same reason. If the source is accepted, its first float of another
size than 32 and 64 makes it fail to be encoded; floats in nested literals never come to this, since
such a float makes the source rejected, at the brackets of its literal if nothing else is wrong
before these are closed. If the source encodes to something, the first element that is not a byte
makes it fail to be printed in hexadecimal. In all other cases it is printed, and the output in
hexadecimal can be read back, so that sources with the same output encode to the same. -/
theorem encoding_ends_in_four_ways (format : OutputFormat) (source : String) :
    (∀ e, encodeLiteral ⟨format, false⟩ source = .error (.parse e) ↔
      Literal.parse source = .error e) ∧
    (∀ size, encodeLiteral ⟨format, false⟩ source = .error (.encode (.invalidFloatSize size)) ↔
      ∃ segments s, Literal.parse source = .ok segments ∧ FirstMisfit segments s ∧
        s.recordedSize = some size) ∧
    (∀ index v, encodeLiteral ⟨format, false⟩ source = .error (.encode (.notAByte index v)) ↔
      format = .hex ∧ ∃ values, EncodesTo source values ∧ FirstOffender values index v) ∧
    ((∃ out, encodeLiteral ⟨format, false⟩ source = .ok out) ↔
      ∃ values, EncodesTo source values ∧ (format = .hex → ∀ v ∈ values, IsByte v)) ∧
    ((∃ values, EncodesTo source values) ↔
      ∃ segments, Literal.parse source = .ok segments ∧ ∀ s ∈ segments, ¬ s.Misfit) ∧
    (∀ s, Literal.NestedSegment source.toList s → s.Misfit →
      ∃ e, encodeLiteral ⟨format, false⟩ source = .error (.parse e)) ∧
    (∀ before start segments rest cause, source.toList = before ++ start →
      Literal.SegmentDue source.toList start → Literal.LiteralAt start segments rest →
      Bitstring.ofSegments segments = .error cause →
      encodeLiteral ⟨format, false⟩ source =
        .error (.parse ⟨.nested cause, Literal.byteLength before⟩)) ∧
    (∀ out, encodeLiteral ⟨.hex, false⟩ source = .ok out →
      ∀ values, EncodesTo source values ↔ hexElements? out = some values) ∧
    ∀ source' out, encodeLiteral ⟨.hex, false⟩ source = .ok out →
      encodeLiteral ⟨.hex, false⟩ source' = .ok out →
      ∃ values, EncodesTo source values ∧ EncodesTo source' values := by
  refine ⟨fun e => encodeLiteral_eq_parse_error_iff,
    fun size => encodeLiteral_eq_invalidFloatSize_iff,
    fun index v => encodeLiteral_eq_notAByte_iff, exists_encodeLiteral_iff, exists_encodesTo_iff,
    fun s hs hmisfit => ?_, fun before start segments rest cause htext hdue hliteral hcause => ?_,
    fun out h => encodesTo_iff_hexElements? h, fun source' out h h' => ?_⟩
  · obtain ⟨e, he⟩ := Literal.exists_parse_error_of_nested_misfit hs hmisfit
    exact ⟨e, encodeLiteral_eq_parse_error_iff.mpr he⟩
  · exact encodeLiteral_eq_parse_error_iff.mpr
      (Literal.parse_eq_error_of_nested htext hdue hliteral hcause)
  · obtain ⟨values, hvalues, -⟩ := exists_encodeLiteral_iff.mp ⟨out, h⟩
    have hspelled := (encodesTo_iff_hexElements? h values).mp hvalues
    exact ⟨values, hvalues, (encodesTo_iff_hexElements? h' values).mpr hspelled⟩

/-- A float of sixteen bits in a nested literal, an element that is not a byte, and two sources with
the same output. -/
theorem encoding_ends_in_four_ways_nested_float :
    encodeLiteral ⟨.hex, false⟩ "<<<<1.5::16>>>>" =
      .error (.parse ⟨.nested (.invalidFloatSize 16), 2⟩) ∧
    encodeLiteral ⟨.hex, false⟩ "<<1, 256>>" = .error (.encode (.notAByte 1 256)) ∧
    ∃ out values, encodeLiteral ⟨.hex, false⟩ "<<97, 255>>" = .ok out ∧
      EncodesTo "<<97, 255>>" values ∧ hexElements? out = some values := by
  refine ⟨?_, ?_, ?_⟩
  · obtain ⟨-, -, -, -, -, -, hnested, -⟩ := encoding_ends_in_four_ways .hex "<<<<1.5::16>>>>"
    obtain ⟨segments, hread, hcause⟩ : ∃ segments,
        Literal.readLiteral "<<1.5::16>>>>".toList = .ok (segments, ">>".toList) ∧
          Bitstring.ofSegments segments = .error (.invalidFloatSize 16) :=
      ⟨_, by with_unfolding_all rfl, rfl⟩
    obtain ⟨start, hblanks, hliteral⟩ := Literal.readLiteral_eq_ok_iff.mp hread
    obtain ⟨inside, rfl, -⟩ := hliteral.exists_run_eq
    have hstart := hblanks.skipBlank_eq (Literal.not_head_cons (by decide) _)
    have hdue : Literal.SegmentDue "<<<<1.5::16>>>>".toList "<<1.5::16>>>>".toList :=
      .outermost (.refl _) (.opening (.refl _))
    exact hnested "<<".toList _ _ _ _ rfl hdue (hstart ▸ hliteral) hcause
  · obtain ⟨-, -, hhex, -⟩ := encoding_ends_in_four_ways .hex "<<1, 256>>"
    have hparse : Literal.parse "<<1, 256>>" = .ok [.integer 1, .integer 256] := by
      with_unfolding_all rfl
    have hone : ∀ u ∈ [(1 : Int64)], IsByte u := List.forall_mem_singleton.mpr (by decide)
    exact (hhex 1 256).mpr ⟨rfl, _, ⟨_, _, hparse, ofSegments_integers [1, 256], rfl⟩,
      [1], [], rfl, hone, by decide, rfl⟩
  · obtain ⟨-, -, -, hprinted, -, -, -, hspells, -⟩ :=
      encoding_ends_in_four_ways .hex "<<97, 255>>"
    have hparse : Literal.parse "<<97, 255>>" = .ok [.integer 97, .integer 255] := by
      with_unfolding_all rfl
    have hencodes : EncodesTo "<<97, 255>>" [97, 255] :=
      ⟨_, _, hparse, ofSegments_integers [97, 255], rfl⟩
    have hbytes : ∀ v ∈ [(97 : Int64), 255], IsByte v :=
      List.forall_mem_cons.mpr ⟨by decide, List.forall_mem_singleton.mpr (by decide)⟩
    obtain ⟨out, hout⟩ := hprinted.mpr ⟨_, hencodes, fun _ => hbytes⟩
    exact ⟨out, _, hout, hencodes, (hspells out hout _).mp hencodes⟩

end ClauseMatch.Command
