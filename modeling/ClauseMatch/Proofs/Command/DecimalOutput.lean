import ClauseMatch.Command.Encode
import ClauseMatch.Proofs.Bitstring.Composition
import ClauseMatch.Proofs.Literal.DecimalText

/-!
# Decimal output as a literal

What the encode command prints in decimal, without a listing, is a literal that encodes to the
same sequence. Printing it once more changes nothing.
-/

namespace ClauseMatch.Command

/-- Without a listing the decimal output of segments is the text of their bitstring. -/
theorem encodeSegments_default (segments : List Segment) :
    encodeSegments .default segments = (Bitstring.ofSegments segments).map Bitstring.text := by
  have hsteps : encodeSegments .default segments =
      (Bitstring.ofSegments segments).bind fun bits =>
        (render .decimal bits).bind fun shown => .ok ("" ++ shown) := rfl
  rw [hsteps]
  cases Bitstring.ofSegments segments with
  | error cause => rfl
  | ok bits => simp [render, Except.bind, Except.map]

theorem mapError_eq_ok_iff {ε ε' β : Type} {f : ε → ε'} {result : Except ε β} {b : β} :
    result.mapError f = .ok b ↔ result = .ok b := by
  cases result with
  | error cause =>
    have hleft : (Except.error cause).mapError f = (.error (f cause) : Except ε' β) := rfl
    simp [hleft]
  | ok value =>
    have hleft : (Except.ok value).mapError f = (.ok value : Except ε' β) := rfl
    simp [hleft]

theorem encodeLiteral_default_eq_ok_iff {source out : String} :
    encodeLiteral .default source = .ok out ↔
      ∃ segments bits, Literal.parse source = .ok segments ∧
        Bitstring.ofSegments segments = .ok bits ∧ bits.text = out := by
  unfold encodeLiteral
  cases Literal.parse source with
  | error cause => simp
  | ok segments =>
    simp only [encodeSegments_default, mapError_eq_ok_iff]
    cases hbits : Bitstring.ofSegments segments <;> simp [hbits, Except.map]

/-- The decimal text of a bitstring is a literal of plain integer segments that encode to the
bitstring's own values. Therefore what the encode command prints in decimal, given back to it, is
printed unchanged. -/
theorem decimal_text_reads_back :
    (∀ b : Bitstring, Literal.parse b.text = .ok (b.values.map Segment.integer) ∧
      (Bitstring.ofSegments (b.values.map Segment.integer)).map (·.values) = .ok b.values) ∧
    ∀ source out : String, encodeLiteral .default source = .ok out →
      encodeLiteral .default out = .ok out := by
  refine ⟨fun b => ⟨Literal.parse_sequenceText b.values, ?_⟩, fun source out h => ?_⟩
  · rw [ofSegments_integers]
    rfl
  · obtain ⟨segments, bits, -, -, rfl⟩ := encodeLiteral_default_eq_ok_iff.mp h
    refine encodeLiteral_default_eq_ok_iff.mpr
      ⟨_, _, Literal.parse_sequenceText bits.values, ofSegments_integers bits.values, rfl⟩

/-- A literal with a truncated integer and a text, printed twice. -/
theorem decimal_text_reads_back_mixed :
    encodeLiteral .default "<<300::signed, \"a\">>" = .ok "<<44, 97>>" ∧
      encodeLiteral .default "<<44, 97>>" = .ok "<<44, 97>>" := by
  have hprint : encodeLiteral .default "<<300::signed, \"a\">>" = .ok "<<44, 97>>" := by
    have hvalue : (encodeLiteral .default "<<300::signed, \"a\">>").toOption =
        some "<<44, 97>>" := by
      decide +kernel
    cases hresult : encodeLiteral .default "<<300::signed, \"a\">>" with
    | error cause => simp [hresult, Except.toOption] at hvalue
    | ok out => simpa [hresult, Except.toOption] using hvalue
  exact ⟨hprint, decimal_text_reads_back.2 _ _ hprint⟩

end ClauseMatch.Command
