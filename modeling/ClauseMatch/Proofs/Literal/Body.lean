import ClauseMatch.Proofs.Bitstring.Composition
import ClauseMatch.Proofs.Literal.Context
import ClauseMatch.Proofs.Literal.Reading

/-!
# The text between the brackets

A text that stands between the brackets of a literal with segments lists these segments wherever a
comma or a closing bracket follows it. Such texts are joined by commas, put between brackets, and,
as literals, listed again as a segment of their own: the texts of larger literals are composed of
those of smaller ones without reading any of them again.
-/

namespace ClauseMatch.Literal

variable {source stop text text' : List Char} {segments segments' : List Segment}

/-- Up to blanks at both ends, the text lists the segments, if a comma or a closing bracket
follows. -/
def Lists (text : List Char) (segments : List Segment) : Prop :=
  ∀ rest, EndsSegment rest → ∃ start stop,
    Blanks (text ++ rest) start ∧ SegmentsAt start segments stop ∧ Blanks stop rest

/-- The text of a literal with the given text between its brackets. -/
def bracketed (text : String) : String := "<<" ++ text ++ ">>"

theorem toList_bracketed (text : String) :
    (bracketed text).toList = '<' :: '<' :: (text.toList ++ ['>', '>']) := by
  simp [bracketed]

theorem endsSegment_comma (rest : List Char) : EndsSegment (',' :: rest) := ⟨',', rfl, Or.inl rfl⟩

theorem endsSegment_closing (rest : List Char) : EndsSegment ('>' :: '>' :: rest) :=
  ⟨'>', rfl, Or.inr rfl⟩

theorem EndsSegment.standsFor {rest' rest : List Char} (h : EndsSegment rest') :
    StandsFor rest' rest :=
  fun c hc => Or.inr (h.not_head (by decide) c hc)

/-! ## Composition -/

theorem SegmentsAt.append : ∀ {source stop more next rest : List Char}
    {segments segments' : List Segment}, SegmentsAt source segments stop →
    Blanks stop (',' :: more) → Blanks more next → SegmentsAt next segments' rest →
    SegmentsAt source (segments ++ segments') rest
  | _, _, _, _, _, _, _, .last hsegment, hcomma, hnext, hmore => .cons hsegment hcomma hnext hmore
  | _, _, _, _, _, _, _, .cons hsegment hcomma' hnext' hsegments, hcomma, hnext, hmore =>
    .cons hsegment hcomma' hnext' (hsegments.append hcomma hnext hmore)

/-- Lists joined by a comma list all their segments. -/
theorem Lists.append (h : Lists text segments) (h' : Lists text' segments') :
    Lists (text ++ ',' :: text') (segments ++ segments') := by
  intro rest hrest
  obtain ⟨next, stop', hnext, hsegments', hstop'⟩ := h' rest hrest
  obtain ⟨start, stop, hstart, hsegments, hstop⟩ := h _ (endsSegment_comma (text' ++ rest))
  refine ⟨start, stop', ?_, ?_, hstop'⟩
  · rwa [List.append_assoc]
  · exact hsegments.append hstop hnext hsegments'

/-- Between brackets a list makes up a literal. -/
theorem Lists.literalAt (h : Lists text segments) (rest : List Char) :
    LiteralAt ('<' :: '<' :: (text ++ '>' :: '>' :: rest)) segments rest := by
  obtain ⟨start, stop, hstart, hsegments, hstop⟩ := h _ (endsSegment_closing rest)
  exact .segments hstart hsegments hstop

theorem Lists.parse_bracketed {text : String} (h : Lists text.toList segments) :
    parse (bracketed text) = .ok segments := by
  rw [parse_eq_ok, readSource_eq_ok_iff, toList_bracketed]
  exact .intro (.refl _) (h.literalAt []) (.refl _)

/-- A literal with the text of another one between its brackets. -/
theorem lists_of_parse {source : String} {bits : Bitstring} (h : parse source = .ok segments)
    (hbits : Bitstring.ofSegments segments = .ok bits) :
    Lists source.toList [.bitstring (.ofValues bits.values)] := by
  obtain ⟨hblanks, hliteral, ⟨run, hrun, rfl⟩⟩ := readSource_eq_ok_iff.mp (parse_eq_ok.mp h)
  obtain ⟨own, -, hsource, hown⟩ := hblanks.moves.close hliteral.closed
  intro rest _
  obtain ⟨start, hstart, hliteral'⟩ := hown (run ++ rest)
  have hvalue : ValueAt start (.bits bits.values) (run ++ rest) := .literal hliteral' hbits
  refine ⟨start, run ++ rest, ?_, ?_, run, hrun, rfl⟩
  · rwa [hsource, List.append_nil, List.append_assoc]
  · exact .last (.intro hvalue .absent rfl (.untypedBits bits.values))

/-! ## Lists in accepted sources -/

/-- Blanks at the end of a text that ends in a bracket are none. -/
theorem eq_nil_of_blank_suffix (h : stop <:+ text ++ ['>', '>'])
    (hstop : ∀ c ∈ stop, isBlank c = true) : stop = [] := by
  obtain ⟨before, hbefore⟩ := h
  rcases List.eq_nil_or_concat stop with hnil | ⟨init, c, rfl⟩
  · exact hnil
  · have hlast := congrArg List.getLast? hbefore
    obtain rfl : c = '>' := by simpa using hlast
    have hblank := hstop '>' (by simp)
    simp [isBlank] at hblank

theorem lists_of_parse_bracketed {text : String} (h : parse (bracketed text) = .ok segments)
    (hne : segments ≠ []) : Lists text.toList segments := by
  obtain ⟨hstart, hliteral, hend⟩ := readSource_eq_ok_iff.mp (parse_eq_ok.mp h)
  rename_i start stop
  have hopen : start = '<' :: '<' :: (text.toList ++ ['>', '>']) := by
    have hhead : ∀ c ∈ start.head?, isBlank c = false := by
      rcases hliteral with _ | _ <;> exact not_head_cons (by decide) _
    rw [← hstart.skipBlank_eq hhead, toList_bracketed]
    exact skipBlank_eq_self (not_head_cons (by decide) _)
  rcases hliteral with _ | ⟨hinside, hsegments, hclose⟩
  · exact absurd rfl hne
  · obtain ⟨-, hopen⟩ := List.cons.inj hopen
    obtain ⟨-, rfl⟩ := List.cons.inj hopen
    obtain ⟨blank, hblank, rfl⟩ := hend
    -- The literal ends with the text: the blanks after its closing brackets are none.
    obtain ⟨own, hown, hlists⟩ := hinside.moves.comp (hsegments.moves.comp hclose.moves)
    rw [List.append_nil] at hown
    have hsuffix : blank <:+ text.toList ++ ['>', '>'] := ⟨own ++ ['>', '>'], by simp [hown]⟩
    obtain rfl := eq_nil_of_blank_suffix hsuffix hblank
    obtain rfl : text.toList = own := List.append_cancel_right hown
    intro rest hrest
    obtain ⟨start, hstart, stop, hsegments', hstop⟩ := hlists rest hrest.standsFor
    exact ⟨start, stop, hstart, hsegments', hstop⟩

end ClauseMatch.Literal
