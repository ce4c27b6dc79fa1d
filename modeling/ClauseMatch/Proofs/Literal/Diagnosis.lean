import ClauseMatch.Proofs.Literal.Fault

/-!
# Faults of literals

Whatever is wrong with a source, the parse error says something true about it. The reader goes
through states in which the open literals lie inside one another as the grammar has it, each where
a segment of the one around it is due. A step leads from such a state to another one, to the end of
the outermost literal, or to a failure that is true of the source; so does a run, by induction.
-/

namespace ClauseMatch.Literal

variable {source whole segment rest : List Char}

/-! ## Segments -/

theorem readOptions_error_trueOf {type : Option TypeName} {modifiers : List Modifier}
    {failure : Failure} (h : readOptions segment source type modifiers = .error failure)
    (hsource : source <:+ whole) (hduplicate : Failure.TrueOf whole ⟨.duplicateType, segment⟩) :
    failure.TrueOf whole := by
  have hmore {stop more : List Char} (hdash : skipBlank stop = '-' :: more)
      (hstop : stop <:+ whole) : more <:+ whole := by
    have hskip := (blanks_skipBlank stop).moves.suffix
    rw [hdash] at hskip
    exact ((List.suffix_cons ..).trans hskip).trans hstop
  have hafter {start stop : List Char} {o : SegmentOption}
      (hread : readOption (skipBlank start) = .ok (o, stop)) (hstart : start <:+ whole) :
      stop <:+ whole :=
    ((readOption_sound hread).moves.suffix.trans (blanks_skipBlank start).moves.suffix).trans hstart
  -- Every option begins at what the one before it has left, a suffix of the whole source.
  fun_induction readOptions segment source type modifiers with
  | case1 source type modifiers failure' hread =>
    obtain rfl := Except.error.inj h
    exact readOption_error_trueOf hread ((blanks_skipBlank source).moves.suffix.trans hsource)
  | case2 =>
    obtain rfl := Except.error.inj h
    exact hduplicate
  | case3 source type modifiers name stop hread _ more hdash ih =>
    exact ih h (hmore hdash (hafter hread hsource))
  | case4 => simp at h
  | case5 source type modifiers m stop hread more hdash ih =>
    exact ih h (hmore hdash (hafter hread hsource))
  | case6 => simp at h

theorem not_charOfCodePoint?_of_error {code : Int64} {fault : Fault}
    (h : textOfCodePoint code = .error fault) :
    fault = .invalidCodePoint code ∧ ∀ c : Char, code.toInt ≠ c.toNat := by
  refine ⟨?_, fun c hc => ?_⟩
  · simp only [textOfCodePoint] at h
    split at h
    · simp at h
    · exact (Except.error.inj h).symm
  · rw [textOfCodePoint_eq_ok_iff.mpr ⟨c, hc, rfl⟩] at h
    simp at h

/-- A value that has not the declared type is of another kind, or is no code point. -/
theorem typedSegment_error {type : TypeName} {value : RawValue} {fault : Fault}
    (h : typedSegment type value = .error fault) :
    fault = .typeMismatch value.kind type ∨ ∃ code, value = .integer code ∧
      fault = .invalidCodePoint code ∧ ∀ c : Char, code.toInt ≠ c.toNat := by
  unfold typedSegment at h
  split at h
  case h_11 | h_12 | h_13 =>
    exact Or.inr ⟨_, rfl, not_charOfCodePoint?_of_error (map_eq_error_iff.mp h)⟩
  case h_14 => exact Or.inl (Except.error.inj h).symm
  all_goals simp at h

theorem segmentOf_error_trueOf {value : RawValue} {options : Options} {fault : Fault}
    (h : segmentOf value options = .error fault) (hdue : SegmentDue whole segment)
    (hvalue : ValueAt segment value rest) : Failure.TrueOf whole ⟨fault, segment⟩ := by
  obtain ⟨type, modifiers⟩ := options
  rcases type with _ | type
  · simp [segmentOf] at h
  · have htyped : typedSegment type value = .error fault := map_eq_error_iff.mp h
    refine trueOf_of_suffix hdue.suffix ?_
    rintro before rfl
    rcases typedSegment_error htyped with rfl | ⟨code, rfl, rfl, hcode⟩
    · refine ⟨hdue, value, rest, hvalue, rfl, fun s hs => ?_⟩
      rw [typedSegment_eq_ok_iff.mpr hs] at htyped
      simp at htyped
    · exact ⟨hdue, ⟨rest, hvalue⟩, hcode⟩

theorem readSegment_error_trueOf {value : RawValue} {failure : Failure}
    (h : readSegment value segment source = .error failure) (hdue : SegmentDue whole segment)
    (hvalue : ValueAt segment value source) : failure.TrueOf whole := by
  have hsource := hvalue.moves.suffix.trans hdue.suffix
  have hduplicate : Failure.TrueOf whole ⟨.duplicateType, segment⟩ := by
    refine trueOf_of_suffix hdue.suffix ?_
    rintro before rfl
    exact ⟨hdue, value, source, hvalue⟩
  simp only [readSegment] at h
  split at h
  · rename_i hoptions
    obtain rfl := Except.error.inj h
    unfold readOptions? at hoptions
    split at hoptions
    · rename_i more hcolons
      have hskip := (blanks_skipBlank source).moves.suffix
      rw [hcolons] at hskip
      have hmore : more <:+ whole :=
        (((List.suffix_cons ..).trans (List.suffix_cons ..)).trans hskip).trans hsource
      exact readOptions_error_trueOf hoptions hmore hduplicate
    · simp at hoptions
  · split at h
    · rename_i hsegment
      obtain rfl := Except.error.inj h
      exact segmentOf_error_trueOf hsegment hdue hvalue
    · simp at h

/-! ## States of the reader -/

/-- Open literals lie inside one another: the outermost begins the source, and every other one
begins where a segment of the one around it is due. -/
inductive Within (source : List Char) : OpenLiteral → List OpenLiteral → Prop where
  | outermost {current : OpenLiteral} :
      Blanks source current.source → Within source current []
  | nested {current parent : OpenLiteral} {outer : List OpenLiteral} :
      Within source parent outer →
      OpenAt parent.source parent.segments.reverse current.source →
      Within source current (parent :: outer)

theorem Within.segmentDue {current : OpenLiteral} {outer : List OpenLiteral}
    {segments : List Segment} {place : List Char} (h : Within source current outer)
    (hopen : OpenAt current.source segments place) : SegmentDue source place := by
  induction h generalizing segments place with
  | outermost hblanks => exact .outermost hblanks hopen
  | nested _ hparent ih => exact .nested (ih hparent) hopen

/-- What is due is due at a place: a value that begins there with what remains of the source, or
the options of one that began there. -/
def Due.At (place rest : List Char) : Due → Prop
  | .value => place = rest
  | .options v segment => place = segment ∧ ValueAt segment v rest

/-- A state in which the reader has read the source, up to what remains, as the grammar has it. -/
structure Reader.Sound (source : List Char) (r : Reader) : Prop where
  within : Within source r.current r.outer
  due : ∃ place, OpenAt r.current.source r.current.segments.reverse place ∧ r.due.At place r.rest

/-- A step has led to a sound state, to the end of the outermost literal, or to a failure that is
true of the source. -/
def Progress.Sound (source : List Char) : Progress → Prop
  | .next r => r.Sound source
  | .done segments rest => ∃ start, Blanks source start ∧ LiteralAt start segments rest
  | .failed failure => failure.TrueOf source

/-- Closing a literal that has been read is sound. -/
theorem closeLiteral_sound {segments own : List Segment} {literal : List Char}
    {outer : List OpenLiteral} (hwithin : Within source ⟨literal, own⟩ outer)
    (hliteral : LiteralAt literal segments rest) :
    (closeLiteral segments literal outer rest).Sound source := by
  rcases hwithin with hblanks | @⟨_, parent, outer, hwithin, hopen⟩
  · exact ⟨literal, hblanks, hliteral⟩
  · simp only [closeLiteral, closedValues]
    cases hbits : Bitstring.ofSegments segments with
    | ok bits =>
      exact ⟨hwithin, literal, hopen, rfl, .literal hliteral hbits⟩
    | error cause =>
      refine trueOf_of_suffix (hwithin.segmentDue hopen).suffix ?_
      rintro before rfl
      refine ⟨hwithin.segmentDue hopen, ?_, segments, rest, hliteral, hbits⟩
      rcases hliteral with _ | _ <;> exact ⟨_, rfl⟩

/-- Opening a literal is sound. -/
theorem openLiteral_sound {inside : List Char} {around : List OpenLiteral}
    (hwithin : Within source ⟨'<' :: '<' :: inside, []⟩ around) :
    (openLiteral ('<' :: '<' :: inside) inside around).Sound source := by
  have hblanks := blanks_skipBlank inside
  unfold openLiteral
  split
  · rename_i rest hclose
    exact closeLiteral_sound hwithin (.empty (hclose ▸ hblanks))
  · exact ⟨hwithin, _, .opening hblanks, rfl⟩

theorem step_sound_of_value {current : OpenLiteral} {outer : List OpenLiteral}
    (hwithin : Within source current outer)
    (hopen : OpenAt current.source current.segments.reverse rest) :
    (Reader.mk .value current outer rest).step.Sound source := by
  have hsuffix := (hwithin.segmentDue hopen).suffix
  simp only [Reader.step]
  split
  · exact openLiteral_sound (.nested hwithin hopen)
  · rename_i tail hnested
    refine trueOf_of_suffix hsuffix fun before _ => ?_
    rintro ⟨inside, hinside⟩
    exact hnested inside (List.cons.inj hinside).2.symm
  · rename_i hbrackets hbracket
    split
    · rename_i hscalar
      exact readScalar_error_trueOf hscalar hbracket hsuffix
    · rename_i hscalar
      exact ⟨hwithin, rest, hopen, rfl, (readScalar_sound hscalar).valueAt⟩

theorem step_sound_of_options {value : RawValue} {current : OpenLiteral}
    {outer : List OpenLiteral} (hwithin : Within source current outer)
    (hopen : OpenAt current.source current.segments.reverse segment)
    (hvalue : ValueAt segment value rest) :
    (Reader.mk (.options value segment) current outer rest).step.Sound source := by
  have hdue := hwithin.segmentDue hopen
  have hsegmentAt {s : Segment} {stop : List Char} (hcompleted : CompletedAt value rest s stop) :
      SegmentAt segment s stop := segmentAt_iff.mpr ⟨value, rest, hvalue, hcompleted⟩
  simp only [Reader.step]
  split
  · rename_i hsegment
    exact readSegment_error_trueOf hsegment hdue hvalue
  · rename_i s more hsegment
    obtain ⟨stop, hcompleted, hcomma⟩ := readSegment_sound hsegment
    have hnext : OpenAt current.source (s :: current.segments).reverse (skipBlank more) := by
      rw [List.reverse_cons]
      exact .comma hopen (hsegmentAt hcompleted) hcomma (blanks_skipBlank more)
    refine ⟨?_, skipBlank more, hnext, rfl⟩
    rcases hwithin with hblanks | ⟨hwithin, hparent⟩
    · exact .outermost hblanks
    · exact .nested hwithin hparent
  · rename_i s after hsegment
    obtain ⟨stop, hcompleted, hclose⟩ := readSegment_sound hsegment
    have hliteral : LiteralAt current.source (s :: current.segments).reverse after := by
      rw [List.reverse_cons]
      exact hopen.literalAt (.last (hsegmentAt hcompleted)) hclose
    exact closeLiteral_sound hwithin hliteral
  · rename_i s after hcomma hclose hsegment
    obtain ⟨stop, hcompleted, hafter⟩ := readSegment_sound hsegment
    have hpassed := hafter.moves.suffix.trans (hsegmentAt hcompleted).moves.suffix
    refine trueOf_of_suffix (hpassed.trans hdue.suffix) fun before _ => ?_
    rintro ⟨tail, htail⟩
    exact hclose tail htail.symm

/-- A step from a sound state is sound. -/
theorem Reader.Sound.step {r : Reader} (h : r.Sound source) : r.step.Sound source := by
  obtain ⟨due, current, outer, rest⟩ := r
  obtain ⟨hwithin, place, hopen, hdue⟩ := h
  cases due with
  | value =>
    obtain rfl : place = rest := hdue
    exact step_sound_of_value hwithin hopen
  | options value segment =>
    obtain ⟨rfl, hvalue⟩ : place = segment ∧ ValueAt segment value rest := hdue
    exact step_sound_of_options hwithin hopen hvalue

/-- A run from a sound state that fails does so for a reason that is true of the source. -/
theorem Reader.Sound.trueOf {r : Reader} {failure : Failure} (h : r.Sound source)
    (hrun : r.run = .error failure) : failure.TrueOf source := by
  fun_induction Reader.run r with
  | case1 r next hstep ih =>
    have hsound := h.step
    rw [hstep] at hsound
    exact ih hsound hrun
  | case2 => simp at hrun
  | case3 r failure' hstep =>
    have hsound := h.step
    rw [hstep] at hsound
    rw [Except.error.injEq] at hrun
    exact hrun ▸ hsound

/-! ## Whole literals -/

theorem Progress.Sound.trueOf {p : Progress} {failure : Failure} (h : p.Sound source)
    (hrun : p.run = .error failure) : failure.TrueOf source := by
  cases p with
  | next r => exact Reader.Sound.trueOf h hrun
  | done segments rest => simp [Progress.run] at hrun
  | failed failure' =>
    obtain rfl : failure' = failure := Except.error.inj hrun
    exact h

theorem readLiteral_error_trueOf {failure : Failure} (h : readLiteral source = .error failure) :
    failure.TrueOf source := by
  have hblanks := blanks_skipBlank source
  unfold readLiteral at h
  split at h
  · rename_i inside hopen
    rw [hopen] at h hblanks
    exact (openLiteral_sound (.outermost hblanks)).trueOf h
  · rename_i hopen
    obtain rfl := Except.error.inj h
    refine trueOf_of_suffix hblanks.moves.suffix fun before _ => ?_
    rintro ⟨inside, hinside⟩
    exact hopen inside hinside.symm

/-- Up to the end of the literal and the blanks after it, a source is accepted. -/
theorem exists_parse_eq_of_trailing {segments : List Segment} {stop before : List Char}
    (h : readLiteral source = .ok (segments, stop)) (hstop : Blanks stop rest)
    (hsource : source = before ++ rest) : parse (String.ofList before) = .ok segments := by
  obtain ⟨start, hblanks, hliteral⟩ := readLiteral_eq_ok_iff.mp h
  obtain ⟨own, -, rfl, hown⟩ := hblanks.moves.close hliteral.closed
  obtain ⟨run, hrun, rfl⟩ := hstop
  have hbefore : before = own ++ run := by
    rw [← List.append_assoc] at hsource
    exact (List.append_cancel_right hsource).symm
  obtain ⟨start', hblanks', hliteral'⟩ := hown run
  rw [parse_eq_ok, readSource_eq_ok_iff, String.toList_ofList, hbefore]
  exact .intro hblanks' hliteral' ⟨run, hrun, (List.append_nil run).symm⟩

theorem readSource_error_trueOf {failure : Failure} (h : readSource source = .error failure) :
    failure.TrueOf source := by
  unfold readSource at h
  split at h
  · rename_i hliteral
    obtain rfl := Except.error.inj h
    exact readLiteral_error_trueOf hliteral
  · rename_i segments stop hliteral
    have hblanks := blanks_skipBlank stop
    obtain ⟨start, hstart, hliteralAt⟩ := readLiteral_eq_ok_iff.mp hliteral
    have hsuffix := (hblanks.moves.suffix.trans hliteralAt.closed.moves.suffix).trans
      hstart.moves.suffix
    split at h
    · simp at h
    · rename_i hne
      obtain rfl := Except.error.inj h
      refine trueOf_of_suffix hsuffix fun before hbefore => ⟨?_, ?_, segments, ?_⟩
      · rw [byteLength_append]
        exact Nat.lt_add_of_pos_right (one_le_byteLength hne)
      · obtain ⟨c, tail, htail⟩ := List.exists_cons_of_ne_nil hne
        have hends := (longestRun_takeWhile isBlank stop).ends
        refine ⟨c, by rw [htail]; rfl, hends c ?_⟩
        show c ∈ (skipBlank stop).head?
        rw [htail]
        rfl
      · exact exists_parse_eq_of_trailing hliteral hblanks hbefore

theorem parse_eq_error {source : String} {e : ParseError} (h : parse source = .error e) :
    ∃ failure, readSource source.toList = .error failure ∧
      e = failure.toParseError source.toList := by
  unfold parse at h
  split at h
  · simp at h
  · rename_i failure hread
    exact ⟨failure, hread, (Except.error.inj h).symm⟩

theorem toParseError_pos {failure : Failure} {before : List Char}
    (h : source = before ++ failure.rest) :
    (failure.toParseError source).pos = byteLength before := by
  rw [Failure.toParseError, h, byteLength_append, Nat.add_sub_cancel]

/-- The position of a parse error is a boundary of characters in the source, and what the error says
holds of the source there. -/
theorem parse_errors_tell_the_truth {source : String} {e : ParseError}
    (h : parse source = .error e) :
    e.pos ≤ source.utf8ByteSize ∧ String.Pos.Raw.IsValid source ⟨e.pos⟩ ∧
      ∃ before rest, source.toList = before ++ rest ∧ e.pos = byteLength before ∧
        e.fault.HoldsAt before rest := by
  obtain ⟨failure, hread, rfl⟩ := parse_eq_error h
  obtain ⟨before, hsource, hfault⟩ := readSource_error_trueOf hread
  have hpos := toParseError_pos hsource
  refine ⟨?_, ?_, before, failure.rest, hsource, hpos, hfault⟩
  · rw [hpos, ← byteLength_toList, hsource, byteLength_append]
    exact Nat.le_add_right ..
  · rw [hpos]
    exact isValid_byteLength hsource

/-- The last quote of a source is escaped, so that the text before it is not closed. -/
theorem parse_errors_tell_the_truth_escaped_quote :
    parse "<<\"é\", \"b\\\">>" = .error ⟨.unterminatedText, 8⟩ ∧
      String.Pos.Raw.IsValid "<<\"é\", \"b\\\">>" ⟨8⟩ ∧
      ∃ before rest, "<<\"é\", \"b\\\">>".toList = before ++ rest ∧ 8 = byteLength before ∧
        Fault.unterminatedText.HoldsAt before rest := by
  have hparse : parse "<<\"é\", \"b\\\">>" = .error ⟨.unterminatedText, 8⟩ := by
    with_unfolding_all rfl
  exact ⟨hparse, (parse_errors_tell_the_truth hparse).2⟩

end ClauseMatch.Literal
