import ClauseMatch.Proofs.Literal.Body

/-!
# Joined literals

A comma between the texts of two literals joins what they mean: the literal with both texts between
its brackets has the segments of the one and then those of the other. Its elements are joined in the
same way, also when one of the two stands inside brackets of its own, and its first segment that
cannot be encoded is that of the first of the two that cannot.
-/

namespace ClauseMatch.Literal

variable {a b : String} {xs ys : List Segment}

/-- A source is a literal that encodes to the given elements. -/
def EncodesTo (source : String) (values : List Int64) : Prop :=
  ∃ segments bits, parse source = .ok segments ∧ Bitstring.ofSegments segments = .ok bits ∧
    bits.values = values

theorem encodesTo_of_lists {text : String} {segments : List Segment} {bits : Bitstring}
    (h : Lists text.toList segments) (hbits : Bitstring.ofSegments segments = .ok bits) :
    EncodesTo (bracketed text) bits.values :=
  ⟨segments, bits, h.parse_bracketed, hbits, rfl⟩

theorem lists_comma (ha : Lists a.toList xs) (hb : Lists b.toList ys) :
    Lists (a ++ "," ++ b).toList (xs ++ ys) := by
  have htext : (a ++ "," ++ b).toList = a.toList ++ ',' :: b.toList := by simp
  rw [htext]
  exact ha.append hb

/-- Lists joined by a comma encode to their elements, joined. -/
theorem encodesTo_comma {c d : Bitstring} (ha : Lists a.toList xs) (hb : Lists b.toList ys)
    (hxs : Bitstring.ofSegments xs = .ok c) (hys : Bitstring.ofSegments ys = .ok d) :
    EncodesTo (bracketed (a ++ "," ++ b)) (c.values ++ d.values) := by
  have hjoined : Bitstring.ofSegments (xs ++ ys) = .ok ⟨xs ++ ys, c.values ++ d.values⟩ := by
    rw [ofSegments_append, hxs, hys]
    rfl
  exact encodesTo_of_lists (lists_comma ha hb) hjoined

theorem ofSegments_append_error {cause : EncodeError}
    (h : Bitstring.ofSegments (xs ++ ys) = .error cause) :
    Bitstring.ofSegments xs = .error cause ∨
      (∃ c, Bitstring.ofSegments xs = .ok c) ∧ Bitstring.ofSegments ys = .error cause := by
  rw [ofSegments_append] at h
  cases hxs : Bitstring.ofSegments xs with
  | error cause' =>
    rw [hxs] at h
    exact Or.inl h
  | ok c =>
    rw [hxs] at h
    exact Or.inr ⟨⟨c, rfl⟩, map_eq_error_iff.mp h⟩

/-- The texts between the brackets of two literals that are not empty, joined by a comma, are those
of a literal with the segments of both. If both encode, so does it, to the elements of the first and
then of the second, and this does not change when either has brackets of its own. If it does not
encode, the reason is that of the first of the two that does not. -/
theorem joined_literals_concatenate (a b : String) (xs ys : List Segment)
    (ha : parse (bracketed a) = .ok xs) (hb : parse (bracketed b) = .ok ys)
    (hxs : xs ≠ []) (hys : ys ≠ []) :
    parse (bracketed (a ++ "," ++ b)) = .ok (xs ++ ys) ∧
    (∀ c d, Bitstring.ofSegments xs = .ok c → Bitstring.ofSegments ys = .ok d →
      EncodesTo (bracketed (a ++ "," ++ b)) (c.values ++ d.values) ∧
      EncodesTo (bracketed (a ++ "," ++ bracketed b)) (c.values ++ d.values) ∧
      EncodesTo (bracketed (bracketed a ++ "," ++ b)) (c.values ++ d.values)) ∧
    ∀ cause, Bitstring.ofSegments (xs ++ ys) = .error cause →
      Bitstring.ofSegments xs = .error cause ∨
        (∃ c, Bitstring.ofSegments xs = .ok c) ∧ Bitstring.ofSegments ys = .error cause := by
  have hlistsA := lists_of_parse_bracketed ha hxs
  have hlistsB := lists_of_parse_bracketed hb hys
  refine ⟨(lists_comma hlistsA hlistsB).parse_bracketed, fun c d hc hd => ⟨?_, ?_, ?_⟩,
    fun cause => ofSegments_append_error⟩
  · exact encodesTo_comma hlistsA hlistsB hc hd
  · have hnested := ofSegments_bitstring (.ofValues d.values)
    have hjoined := encodesTo_comma hlistsA (lists_of_parse hb hd) hc hnested
    exact hjoined
  · have hnested := ofSegments_bitstring (.ofValues c.values)
    have hjoined := encodesTo_comma (lists_of_parse ha hc) hlistsB hnested hd
    exact hjoined

/-- A text with a comma and a number with underscores, with blanks around them, joined. -/
theorem joined_literals_concatenate_blanks :
    parse (bracketed "\"a,\" ") = .ok [.binary "a,"] ∧
      parse (bracketed " 1_0") = .ok [.integer 10] ∧
      parse (bracketed ("\"a,\" " ++ "," ++ " 1_0")) = .ok [.binary "a,", .integer 10] ∧
      EncodesTo (bracketed (bracketed "\"a,\" " ++ "," ++ " 1_0")) [97, 44, 10] := by
  have ha : parse (bracketed "\"a,\" ") = .ok [.binary "a,"] := by with_unfolding_all rfl
  have hb : parse (bracketed " 1_0") = .ok [.integer 10] := by with_unfolding_all rfl
  obtain ⟨hjoined, hencoded, -⟩ := joined_literals_concatenate _ _ _ _ ha hb (by simp) (by simp)
  have helements : Bitstring.ofSegments [.binary "a,"] = .ok ⟨[.binary "a,"], [97, 44]⟩ := rfl
  exact ⟨ha, hb, hjoined, (hencoded _ _ helements (ofSegments_integers [10])).2.2⟩

end ClauseMatch.Literal
