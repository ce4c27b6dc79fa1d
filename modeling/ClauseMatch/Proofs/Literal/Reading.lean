import ClauseMatch.Proofs.Literal.Segment

/-!
# The reader accepts the grammar

A source is read as a literal exactly when it derives in the grammar, and then what is read is what
it denotes. That derivable sources are read is an induction on the derivation: a phrase takes the
reader from the state before it to the state after it, whatever literals are open around it. That
what is read is derivable is an induction on the length of the source: a run that ends well has
read the rest of the innermost open literal on its way, and has then gone on from where that
literal was closed.
-/

namespace ClauseMatch.Literal

variable {source rest stop : List Char}

/-! ## Steps of the reader -/

theorem Reader.run_eq (r : Reader) : r.run = r.step.run := by
  rw [Reader.run]
  split <;> rename_i h <;> rw [h] <;> rfl

theorem run_scalar {value : RawValue} (h : readScalar source = .ok (value, rest))
    (current : OpenLiteral) (outer : List OpenLiteral) :
    (Reader.mk .value current outer source).run =
      (Reader.mk (.options value source) current outer rest).run := by
  rw [Reader.run_eq]
  simp only [Reader.step]
  split
  · simp [readScalar] at h
  · simp [readScalar] at h
  · rw [h]
    rfl

theorem run_comma {value : RawValue} {segment more : List Char} {s : Segment}
    (h : readSegment value segment source = .ok (s, ',' :: more))
    (current : OpenLiteral) (outer : List OpenLiteral) :
    (Reader.mk (.options value segment) current outer source).run =
      (Reader.mk .value { current with segments := s :: current.segments } outer
        (skipBlank more)).run := by
  rw [Reader.run_eq]
  simp only [Reader.step, h]
  rfl

theorem run_close {value : RawValue} {segment : List Char} {s : Segment}
    (h : readSegment value segment source = .ok (s, '>' :: '>' :: rest))
    (current : OpenLiteral) (outer : List OpenLiteral) :
    (Reader.mk (.options value segment) current outer source).run =
      (closeLiteral (s :: current.segments).reverse current.source outer rest).run := by
  rw [Reader.run_eq]
  simp only [Reader.step, h]

/-- Closing a nested literal makes it a value of the literal around it. -/
theorem run_closeLiteral_cons {segments : List Segment} {bits : Bitstring}
    (h : Bitstring.ofSegments segments = .ok bits) (parent : OpenLiteral)
    (outer : List OpenLiteral) :
    (closeLiteral segments source (parent :: outer) rest).run =
      (Reader.mk (.options (.bits bits.values) source) parent outer rest).run := by
  simp only [closeLiteral, closedValues, h, Except.map]
  rfl

theorem ofSegments_of_run_closeLiteral {segments : List Segment} {parent : OpenLiteral}
    {outer : List OpenLiteral} {result : List Segment × List Char}
    (h : (closeLiteral segments source (parent :: outer) rest).run = .ok result) :
    ∃ bits, Bitstring.ofSegments segments = .ok bits := by
  cases hbits : Bitstring.ofSegments segments with
  | ok bits => exact ⟨bits, rfl⟩
  | error cause =>
    simp only [closeLiteral, closedValues, hbits, Except.map, Progress.run] at h
    simp at h

/-! ## Derivable sources are read -/

/-- The first character is neither a blank nor a closing bracket, as with every value. -/
def BeginsValue (source : List Char) : Prop :=
  ∃ c ∈ source.head?, isBlank c = false ∧ c ≠ '>'

theorem beginsValue_of_number (h : ∃ c ∈ source.head?, c = '-' ∨ c.isDigit = true) :
    BeginsValue source := by
  obtain ⟨c, hc, hbegins⟩ := h
  refine ⟨c, hc, ?_⟩
  rcases hbegins with rfl | hdigit
  · decide
  · refine ⟨isBlank_of_isNameChar (isNameChar_of_isDigit hdigit), ?_⟩
    rintro rfl
    simp at hdigit

theorem ValueAt.begins {value : RawValue} (h : ValueAt source value rest) : BeginsValue source := by
  cases h with
  | @integer n _ _ h => exact beginsValue_of_number (@NumberAt.begins _ _ (.integer n) h)
  | @float x _ _ h => exact beginsValue_of_number (@NumberAt.begins _ _ (.float x) h)
  | text => exact ⟨'"', rfl, by decide⟩
  | literal h =>
    cases h with
    | empty | segments => exact ⟨'<', rfl, by decide⟩

theorem SegmentAt.begins {s : Segment} (h : SegmentAt source s rest) : BeginsValue source := by
  obtain ⟨hvalue⟩ := h
  exact hvalue.begins

theorem SegmentsAt.begins {segments : List Segment} (h : SegmentsAt source segments rest) :
    BeginsValue source := by
  cases h with
  | last h => exact h.begins
  | cons h => exact h.begins

theorem BeginsValue.not_blank (h : BeginsValue source) : ∀ c ∈ source.head?, isBlank c = false := by
  obtain ⟨c, hc, hblank, -⟩ := h
  intro d hd
  rwa [← Option.mem_unique hc hd]

mutual

/-- Reading a literal from its opening brackets on comes to the point where it is closed. -/
theorem LiteralAt.exists_run_eq : ∀ {source rest : List Char} {segments : List Segment},
    LiteralAt source segments rest →
    ∃ inside, source = '<' :: '<' :: inside ∧ ∀ around,
      (openLiteral source inside around).run = (closeLiteral segments source around rest).run
  | _, _, _, .empty hclose => by
    refine ⟨_, rfl, fun around => ?_⟩
    rw [openLiteral, hclose.skipBlank_eq (by simp [isBlank])]
    rfl
  | _, _, _, .segments hstart hsegments hclose => by
    refine ⟨_, rfl, fun around => ?_⟩
    have hbegins := hsegments.begins
    rw [openLiteral, hstart.skipBlank_eq hbegins.not_blank]
    obtain ⟨c, hc, -, hc'⟩ := hbegins
    split
    · obtain rfl : '>' = c := by simpa using hc
      exact absurd rfl hc'
    · exact hsegments.run_eq hclose ⟨_, []⟩ around

/-- Reading segments and closing brackets comes to the point where the literal is closed. -/
theorem SegmentsAt.run_eq : ∀ {source stop rest : List Char} {segments : List Segment},
    SegmentsAt source segments stop → Blanks stop ('>' :: '>' :: rest) → ∀ current outer,
      (Reader.mk .value current outer source).run =
        (closeLiteral (current.segments.reverse ++ segments) current.source outer rest).run
  | _, _, _, _, .last hsegment, hclose, current, outer => by
    obtain ⟨value, after, hvalue, hread⟩ :=
      hsegment.run_eq hclose ⟨'>', rfl, Or.inr rfl⟩ current outer
    rw [hvalue, run_close hread]
    simp
  | _, _, _, _, .cons hsegment hcomma hnext hsegments, hclose, current, outer => by
    obtain ⟨value, after, hvalue, hread⟩ :=
      hsegment.run_eq hcomma ⟨',', rfl, Or.inl rfl⟩ current outer
    rw [hvalue, run_comma hread, hnext.skipBlank_eq hsegments.begins.not_blank,
      hsegments.run_eq hclose]
    simp

/-- Reading the value of a segment comes to the point where its options are read. -/
theorem SegmentAt.run_eq : ∀ {source stop rest : List Char} {s : Segment},
    SegmentAt source s stop → Blanks stop rest → EndsSegment rest → ∀ current outer,
      ∃ value after, (Reader.mk .value current outer source).run =
          (Reader.mk (.options value source) current outer after).run ∧
        readSegment value source after = .ok (s, rest)
  | _, _, _, _, .intro hvalue htail htype htyped, hrest, hend, current, outer => by
    have hcompleted := CompletedAt.intro htail htype htyped
    exact ⟨_, _, hvalue.run_eq (hcompleted.follows hrest hend) current outer,
      hcompleted.readSegment_eq hrest hend⟩

/-- Reading a value, a nested literal included, comes to the point where it has ended. -/
theorem ValueAt.run_eq : ∀ {source rest : List Char} {value : RawValue},
    ValueAt source value rest → Follows [':', ',', '>'] rest → ∀ current outer,
      (Reader.mk .value current outer source).run =
        (Reader.mk (.options value source) current outer rest).run
  | _, _, _, .integer hinteger, hfollows, current, outer => by
    have hscalar := ScalarAt.number (show NumberAt _ (.integer _) _ from hinteger)
    exact run_scalar (hscalar.readScalar_eq hfollows.ends) current outer
  | _, _, _, .float hfloat, hfollows, current, outer => by
    have hscalar := ScalarAt.number (show NumberAt _ (.float _) _ from hfloat)
    exact run_scalar (hscalar.readScalar_eq hfollows.ends) current outer
  | _, _, _, .text htext, hfollows, current, outer => by
    have hscalar := ScalarAt.text htext
    exact run_scalar (hscalar.readScalar_eq hfollows.ends) current outer
  | _, _, _, .literal hliteral hbits, _, current, outer => by
    obtain ⟨inside, rfl, hopen⟩ := hliteral.exists_run_eq
    rw [← run_closeLiteral_cons hbits, ← hopen, Reader.run_eq]
    rfl

end

/-! ## What is read is derivable -/

/-- Segments up to and including the closing brackets. -/
def BodyAt (source : List Char) (segments : List Segment) (rest : List Char) : Prop :=
  ∃ stop, SegmentsAt source segments stop ∧ Blanks stop ('>' :: '>' :: rest)

/-- What stands after a segment: the closing brackets, or a comma and further segments. -/
inductive AfterSegment : List Char → List Segment → List Char → Prop where
  | close {source rest : List Char} :
      Blanks source ('>' :: '>' :: rest) → AfterSegment source [] rest
  | more {segments : List Segment} {source more next rest : List Char} :
      Blanks source (',' :: more) →
      Blanks more next →
      BodyAt next segments rest →
      AfterSegment source segments rest

theorem SegmentAt.bodyAt {s : Segment} {segments : List Segment} (h : SegmentAt source s stop)
    (hafter : AfterSegment stop segments rest) : BodyAt source (s :: segments) rest := by
  cases hafter with
  | close hclose => exact ⟨stop, .last h, hclose⟩
  | more hcomma hnext hbody =>
    obtain ⟨stop', hsegments, hclose⟩ := hbody
    exact ⟨stop', .cons h hcomma hnext hsegments, hclose⟩

/-- The segments that are read from a state on until the innermost literal is closed. -/
def Due.LeadsTo (source : List Char) (segments : List Segment) (rest : List Char) : Due → Prop
  | .value => BodyAt source segments rest
  | .options v _ => ∃ s own stop, CompletedAt v source s stop ∧
      AfterSegment stop own rest ∧ segments = s :: own

theorem ValueAt.bodyAt {value : RawValue} {segment : List Char} {segments : List Segment}
    (h : ValueAt source value stop) (hafter : (Due.options value segment).LeadsTo stop segments rest) :
    BodyAt source segments rest := by
  obtain ⟨s, own, stop', hcompleted, hafter, rfl⟩ := hafter
  exact SegmentAt.bodyAt (segmentAt_iff.mpr ⟨value, stop, h, hcompleted⟩) hafter

/-- A run that ends well from a state of the reader has read the rest of the innermost literal,
and has gone on from where that literal is closed. -/
def Reader.RunsThrough (r : Reader) : Prop :=
  ∀ result, r.run = .ok result → ∃ segments rest, r.due.LeadsTo r.rest segments rest ∧
    rest.length < r.rest.length ∧
    (closeLiteral (r.current.segments.reverse ++ segments) r.current.source r.outer rest).run =
      .ok result

/-- A run that opens a literal has read it as a whole, if runs from inside it do so. -/
theorem literalAt_of_run_openLiteral {inside : List Char} {around : List OpenLiteral}
    {result : List Segment × List Char}
    (ih : ∀ r : Reader, r.rest.length ≤ inside.length → r.RunsThrough)
    (h : (openLiteral ('<' :: '<' :: inside) inside around).run = .ok result) :
    ∃ segments rest, LiteralAt ('<' :: '<' :: inside) segments rest ∧
      rest.length < inside.length ∧
      (closeLiteral segments ('<' :: '<' :: inside) around rest).run = .ok result := by
  have hblanks := blanks_skipBlank inside
  have hlength := length_skipBlank_le inside
  unfold openLiteral at h
  split at h
  · rename_i rest hclose
    rw [hclose] at hblanks hlength
    simp only [List.length_cons] at hlength
    exact ⟨[], rest, .empty hblanks, by omega, h⟩
  · obtain ⟨segments, rest, ⟨stop, hsegments, hclose⟩, hlt, hrun⟩ := ih _ hlength result h
    exact ⟨segments, rest, .segments hblanks hsegments hclose, Nat.lt_of_lt_of_le hlt hlength, hrun⟩

theorem Reader.runsThrough_of_value {current : OpenLiteral} {outer : List OpenLiteral}
    (ih : ∀ r : Reader, r.rest.length < source.length → r.RunsThrough) :
    (Reader.mk .value current outer source).RunsThrough := by
  intro result h
  rw [Reader.run_eq] at h
  simp only [Reader.step] at h
  split at h
  · rename_i inside
    obtain ⟨own, stop, hliteral, hlt, hrun⟩ := literalAt_of_run_openLiteral
      (fun r hr => ih r (by simp only [List.length_cons]; omega)) h
    obtain ⟨bits, hbits⟩ := ofSegments_of_run_closeLiteral hrun
    rw [run_closeLiteral_cons hbits] at hrun
    obtain ⟨segments, rest, hleads, hlt', hrun⟩ :=
      ih _ (by simp only [List.length_cons]; omega) result hrun
    refine ⟨segments, rest, (ValueAt.literal hliteral hbits).bodyAt hleads, ?_, hrun⟩
    simp only [List.length_cons] at hlt' ⊢
    omega
  · simp [Progress.run] at h
  · split at h
    · simp [Progress.run] at h
    · rename_i hscalar
      have hlt := readScalar_length_lt hscalar
      obtain ⟨segments, rest, hleads, hlt', hrun⟩ := ih _ hlt result h
      exact ⟨segments, rest, (readScalar_sound hscalar).valueAt.bodyAt hleads,
        Nat.lt_trans hlt' hlt, hrun⟩

theorem Reader.runsThrough_of_options {value : RawValue} {segment : List Char}
    {current : OpenLiteral} {outer : List OpenLiteral}
    (ih : ∀ r : Reader, r.rest.length < source.length → r.RunsThrough) :
    (Reader.mk (.options value segment) current outer source).RunsThrough := by
  intro result h
  rw [Reader.run_eq] at h
  simp only [Reader.step] at h
  split at h
  · simp [Progress.run] at h
  · rename_i s more hsegment
    have hle := readSegment_length_le hsegment
    have hskip := length_skipBlank_le more
    simp only [List.length_cons] at hle
    obtain ⟨stop, hcompleted, hcomma⟩ := readSegment_sound hsegment
    obtain ⟨own, rest, hbody, hlt, hrun⟩ :=
      ih ⟨.value, { current with segments := s :: current.segments }, outer, skipBlank more⟩
        (by simp only; omega) result h
    refine ⟨s :: own, rest, ⟨s, own, stop, hcompleted,
      .more hcomma (blanks_skipBlank more) hbody, rfl⟩, ?_, ?_⟩
    · simp only at hlt ⊢
      omega
    · simpa using hrun
  · rename_i s rest hsegment
    have hle := readSegment_length_le hsegment
    simp only [List.length_cons] at hle
    obtain ⟨stop, hcompleted, hclose⟩ := readSegment_sound hsegment
    refine ⟨[s], rest, ⟨s, [], stop, hcompleted, .close hclose, rfl⟩, ?_, ?_⟩
    · simp only
      omega
    · simpa using h
  · simp [Progress.run] at h

theorem Reader.runsThrough (r : Reader) : r.RunsThrough := by
  induction hn : r.rest.length using Nat.strongRecOn generalizing r with
  | ind n ih =>
    have ih' : ∀ r' : Reader, r'.rest.length < r.rest.length → r'.RunsThrough := by
      intro r' hr'
      exact ih _ (hn ▸ hr') r' rfl
    obtain ⟨due, current, outer, source⟩ := r
    cases due with
    | value => exact Reader.runsThrough_of_value ih'
    | options value segment => exact Reader.runsThrough_of_options ih'

/-! ## Whole literals -/

theorem readLiteral_eq_ok_iff {segments : List Segment} :
    readLiteral source = .ok (segments, rest) ↔
      ∃ start, Blanks source start ∧ LiteralAt start segments rest := by
  constructor
  · intro h
    unfold readLiteral at h
    split at h
    · rename_i inside hopen
      rw [hopen] at h
      obtain ⟨own, rest', hliteral, -, hrun⟩ :=
        literalAt_of_run_openLiteral (fun r _ => r.runsThrough) h
      obtain ⟨rfl, rfl⟩ : own = segments ∧ rest' = rest := by
        simpa [closeLiteral, Progress.run] using hrun
      exact ⟨_, hopen ▸ blanks_skipBlank source, hliteral⟩
    · simp at h
  · rintro ⟨start, hblanks, hliteral⟩
    obtain ⟨inside, rfl, hrun⟩ := hliteral.exists_run_eq
    have hopen : skipBlank source = '<' :: '<' :: inside :=
      hblanks.skipBlank_eq (by simp [isBlank])
    simp only [readLiteral, hopen, hrun]
    rfl

theorem readSource_eq_ok_iff {segments : List Segment} :
    readSource source = .ok segments ↔ Denotes source segments := by
  constructor
  · intro h
    unfold readSource at h
    split at h
    · simp at h
    · rename_i own stop hliteral
      have hblanks := blanks_skipBlank stop
      obtain ⟨start, hstart, hliteral⟩ := readLiteral_eq_ok_iff.mp hliteral
      split at h
      · rename_i hend
        rw [Except.ok.injEq] at h
        subst h
        exact .intro hstart hliteral (hend ▸ hblanks)
      · simp at h
  · rintro ⟨hstart, hliteral, hend⟩
    have hread := readLiteral_eq_ok_iff.mpr ⟨_, hstart, hliteral⟩
    simp only [readSource, hread]
    rw [hend.skipBlank_eq (by simp)]

theorem parse_eq_ok {source : String} {segments : List Segment} :
    parse source = .ok segments ↔ readSource source.toList = .ok segments := by
  unfold parse
  cases readSource source.toList <;> simp

theorem SegmentsAt.exists_segmentAt : ∀ {segments : List Segment} {source rest : List Char},
    SegmentsAt source segments rest → ∀ s ∈ segments, ∃ place stop, SegmentAt place s stop
  | _, _, _, .last hsegment => List.forall_mem_singleton.mpr ⟨_, _, hsegment⟩
  | _, _, _, .cons hsegment _ _ hsegments =>
    List.forall_mem_cons.mpr ⟨⟨_, _, hsegment⟩, hsegments.exists_segmentAt⟩

/-- Every segment of an accepted source derives in the grammar from a text of its own. -/
theorem exists_segmentAt_of_parse {source : String} {segments : List Segment}
    (h : parse source = .ok segments) : ∀ s ∈ segments, ∃ place stop, SegmentAt place s stop := by
  obtain ⟨-, hliteral, -⟩ := readSource_eq_ok_iff.mp (parse_eq_ok.mp h)
  rcases hliteral with _ | ⟨-, hsegments, -⟩
  · exact List.forall_mem_nil _
  · exact hsegments.exists_segmentAt

/-- A text is read as a literal exactly when it derives in the grammar, and what is read is what it
denotes. -/
theorem parse_eq_ok_iff_denotes (source : String) (segments : List Segment) :
    parse source = .ok segments ↔ Denotes source.toList segments :=
  parse_eq_ok.trans readSource_eq_ok_iff

end ClauseMatch.Literal
