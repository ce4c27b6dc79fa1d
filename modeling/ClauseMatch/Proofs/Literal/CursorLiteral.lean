import ClauseMatch.Proofs.Literal.CursorLexeme
import ClauseMatch.Proofs.Literal.Reading

/-!
# Literals under the cursor

The reader over lists of characters keeps the open literals in a list; the reader under the cursor
calls itself. Both are related through results: for each of the routines there is one result that
the call reads, and with which the reader over lists goes on. The results exist by induction on the
length of the source, as each literal and each comma leaves a shorter one. Along the induction goes
how far apart the open literals begin, and a limit that a source as long as its characters needs.
-/

namespace ClauseMatch.Literal

variable {source rest : List Char}

/-! ## Results of the reader over lists -/

/-- What is read of a segment after its value, without the blanks that follow it. -/
def readCompletion (value : RawValue) (segment source : List Char) :
    Except Failure (Segment × List Char) :=
  match readOptions? segment source with
  | .error failure => .error failure
  | .ok (options, rest) =>
    match segmentOf value options with
    | .error fault => .error ⟨fault, segment⟩
    | .ok s => .ok (s, rest)

/-- Goes on from what has been read. -/
def onwards {α β : Type} (result : Except Failure (α × List Char))
    (next : α → List Char → Except Failure β) : Except Failure β :=
  match result with
  | .error failure => .error failure
  | .ok (a, rest) => next a rest

/-- Opens the literal that a source begins with. -/
def readOpening (around : List OpenLiteral) (source : List Char) :
    Except Failure (List Segment × List Char) :=
  match skipBlank source with
  | '<' :: '<' :: inside => (openLiteral (skipBlank source) inside around).run
  | start => .error ⟨.expected .opening, start⟩

/-- Closes the innermost literal, whose brackets are due. -/
def readClosing (segments : List Segment) (source : List Char) (outer : List OpenLiteral)
    (rest : List Char) : Except Failure (List Segment × List Char) :=
  match rest with
  | '>' :: '>' :: rest => (closeLiteral segments source outer rest).run
  | rest => .error ⟨.expected .closing, rest⟩

/-- Goes on after a segment: a comma announces another one, closing brackets end the literal. -/
def readNext (s : Segment) (current : OpenLiteral) (outer : List OpenLiteral) (stop : List Char) :
    Except Failure (List Segment × List Char) :=
  match skipBlank stop with
  | ',' :: more =>
    (Reader.mk .value { current with segments := s :: current.segments } outer
      (skipBlank more)).run
  | stop => readClosing (s :: current.segments).reverse current.source outer stop

theorem onwards_eq_ok_iff {α β : Type} {result : Except Failure (α × List Char)}
    {next : α → List Char → Except Failure β} {b : β} :
    onwards result next = .ok b ↔ ∃ a rest, result = .ok (a, rest) ∧ next a rest = .ok b := by
  constructor
  · intro h
    cases result with
    | error failure => simp [onwards] at h
    | ok answer => exact ⟨answer.1, answer.2, rfl, h⟩
  · rintro ⟨a, rest, rfl, h⟩
    exact h

theorem readSegment_eq (value : RawValue) (segment source : List Char) :
    readSegment value segment source =
      onwards (readCompletion value segment source) fun s rest => .ok (s, skipBlank rest) := by
  rw [readSegment, readCompletion]
  cases readOptions? segment source with
  | error failure => rfl
  | ok answer =>
    obtain ⟨options, rest⟩ := answer
    simp only
    cases segmentOf value options <;> rfl

theorem readCompletion_length_le {value : RawValue} {segment : List Char} {s : Segment}
    (h : readCompletion value segment source = .ok (s, rest)) : rest.length ≤ source.length := by
  rw [readCompletion] at h
  split at h
  · simp at h
  · rename_i hoptions
    split at h
    · simp at h
    · rw [Except.ok.injEq, Prod.mk.injEq] at h
      exact h.2 ▸ readOptions?_length_le hoptions

namespace Cursor

/-- The open literal calls began at least two bytes before `rest`. -/
def Room (source : String) (opened : List Nat) (rest : List Char) : Prop :=
  ∀ start ∈ opened, start + 2 ≤ offset source rest

/-- The result of reading a literal at `rest`. -/
structure LiteralResult (source : String) (rest : List Char)
    (result : Except Failure (List Segment × List Char)) : Prop where
  run : ∀ around, readOpening around rest = onwards result fun segments after =>
    (closeLiteral segments (skipBlank rest) around after).run
  shorter : ∀ segments after, result = .ok (segments, after) → after.length < rest.length
  reads : ∀ limit opened, 0 < limit → rest.length ≤ limit → Room source opened rest →
    Reads source opened 4 (literal source limit) rest result

/-- The result of reading a segment value at `rest`. -/
structure ValueResult (source : String) (rest : List Char)
    (result : Except Failure (RawValue × List Char)) : Prop where
  run : ∀ current outer, (Reader.mk .value current outer rest).run =
    onwards result fun v after => (Reader.mk (.options v rest) current outer after).run
  shorter : ∀ v after, result = .ok (v, after) → after.length < rest.length
  reads : ∀ limit opened, rest.length ≤ limit → Room source opened rest →
    Reads source opened 1 (value source (literal source limit)) rest result

/-- The result of reading one segment at `rest`. -/
structure SegmentResult (source : String) (rest : List Char)
    (result : Except Failure (Segment × List Char)) : Prop where
  run : ∀ current outer, (Reader.mk .value current outer rest).run =
    onwards result fun s stop => readNext s current outer stop
  shorter : ∀ s stop, result = .ok (s, stop) → stop.length < rest.length
  reads : ∀ limit rounds opened, rest.length ≤ limit → rest.length ≤ rounds →
    Room source opened rest →
    Reads source opened 0 (segment source (literal source limit) rounds) rest result

/-- The result of reading segments at `rest`, up to the first that no comma follows. -/
structure SegmentsResult (source : String) (rest : List Char)
    (result : Except Failure (List Segment × List Char)) : Prop where
  run : ∀ current outer, (Reader.mk .value current outer rest).run =
    onwards result fun segments after =>
      readClosing (current.segments.reverse ++ segments) current.source outer after
  shorter : ∀ segments after, result = .ok (segments, after) → after.length < rest.length
  reads : ∀ limit rounds opened done, rest.length ≤ limit → rest.length < rounds →
    Room source opened rest →
    Reads source opened 0 (segmentLoop source (literal source limit) rounds done) rest
      (onwards result fun segments after => .ok (done.reverse ++ segments, after))

variable {source : String} {opened : List Nat} {j k : Nat} {rest rest' : List Char}

theorem Room.mono (h : Room source opened rest)
    (hle : offset source rest + j ≤ offset source rest') : Room source opened rest' := by
  intro start hstart
  have := h start hstart
  omega

/-! ## Segment values -/

/-- A value that is not a literal is read without reading one. -/
theorem reads_scalar {nestedLiteral : CursorM (List Segment)} (h : ∀ text, rest ≠ '<' :: text) :
    Reads source opened 1 (value source nestedLiteral) rest (readScalar rest) := by
  refine Reads.call ?_ (Nat.le_refl _)
  cases rest with
  | nil =>
    apply reads_peek_nil.andThen
    exact Reads.fail (.expected .segmentValue) []
  | cons c text =>
    -- the first byte of a character tells it apart from every ASCII character
    obtain ⟨b, more, hbytes⟩ := exists_utf8EncodeChar_eq_cons c
    have hb : b ∈ String.utf8EncodeChar c := by simp [hbytes]
    have hquote := sameClass_eq (d := '"') (by decide) c b hb
    have hopen := sameClass_eq (d := '<') (by decide) c b hb
    have hminus := sameClass_eq (d := '-') (by decide) c b hb
    have hdigit := sameClass_isDigit c b hb
    have hlt : (c == '<') = false := by
      rw [beq_eq_false_iff_ne]
      rintro rfl
      exact h text rfl
    apply (reads_peek_cons hbytes).andThen
    simp only [hquote, hopen, hminus, hdigit, hlt, Bool.false_eq_true, if_false]
    by_cases hc : c = '"'
    · subst hc
      have hstring : Reads source opened 1 (string source) ('"' :: text) _ := reads_string
      rw [if_pos (beq_self_eq_true _), readScalar]
      cases hread : readText text [] with
      | none =>
        rw [hread] at hstring
        exact (hstring.weaken (Nat.zero_le _)).bind_error
      | some answer =>
        rw [hread] at hstring
        apply hstring.bind (k := 0)
        exact Reads.pure _
    · rw [if_neg (by simpa using hc), readScalar]
      · by_cases hnumber : c = '-' ∨ c.isDigit = true
        · have hreads : Reads source opened 1 (number source) (c :: text)
              (readNumber (c :: text)) := reads_number ⟨c, rfl, hnumber⟩
          rw [if_pos (by simpa using hnumber), if_pos hnumber]
          cases hread : readNumber (c :: text) with
          | error failure =>
            rw [hread] at hreads
            exact (hreads.weaken (Nat.zero_le _)).bind_error
          | ok answer =>
            rw [hread] at hreads
            apply hreads.bind (k := 0)
            exact Reads.pure _
        · rw [if_neg (by simpa using hnumber), if_neg hnumber]
          exact Reads.fail (.expected .segmentValue) _
      · exact fun hquoted => hc hquoted

theorem valueResult_scalar (h : ∀ text, rest ≠ '<' :: text) :
    ValueResult source rest (readScalar rest) := by
  refine ⟨?_, ?_, ?_⟩
  · intro current outer
    rw [Reader.run_eq]
    simp only [Reader.step]
    split
    · exact absurd rfl (h _)
    · exact absurd rfl (h _)
    · cases readScalar rest <;> rfl
  · intro v after hread
    exact readScalar_length_lt hread
  · intro limit opened _ _
    exact reads_scalar h

/-- At a value that begins like a literal the reader over lists opens one. -/
theorem run_opening (current : OpenLiteral) (outer : List OpenLiteral) (text : List Char) :
    (Reader.mk .value current outer ('<' :: text)).run =
      readOpening (current :: outer) ('<' :: text) := by
  have hstart : skipBlank ('<' :: text) = '<' :: text := rfl
  rw [Reader.run_eq, readOpening, hstart]
  by_cases hopen : ∃ inside, text = '<' :: inside
  · obtain ⟨inside, rfl⟩ := hopen
    rfl
  · have hne : ∀ inside, text ≠ '<' :: inside := not_exists.mp hopen
    simp only [Reader.step]
    split
    · rename_i inside heq
      exact absurd (List.cons.inj heq).2 (hne inside)
    · rfl

/-- A value that is a literal, given the result of that literal. -/
theorem valueResult_literal {text : List Char}
    {result : Except Failure (List Segment × List Char)}
    (h : LiteralResult source ('<' :: text) result) :
    ValueResult source ('<' :: text) (onwards result fun segments after =>
      match closedValues segments with
      | .ok values => .ok (.bits values, after)
      | .error cause => .error ⟨.nested cause, '<' :: text⟩) := by
  refine ⟨?_, ?_, ?_⟩
  · intro current outer
    rw [run_opening, h.run]
    cases result with
    | error failure => rfl
    | ok answer =>
      obtain ⟨segments, after⟩ := answer
      simp only [onwards, closeLiteral]
      cases closedValues segments <;> rfl
  · intro v after hvalue
    obtain ⟨segments, after', hresult, hvalue⟩ := onwards_eq_ok_iff.mp hvalue
    split at hvalue
    · rw [Except.ok.injEq, Prod.mk.injEq] at hvalue
      exact hvalue.2 ▸ h.shorter segments after' hresult
    · simp at hvalue
  · intro limit opened hlimit hroom
    refine Reads.call ?_ (Nat.le_refl _)
    have hliteral := h.reads limit opened (Nat.lt_of_lt_of_le (Nat.succ_pos _) hlimit) hlimit hroom
    apply (reads_peek_cons (show String.utf8EncodeChar '<' = [0x3c] from rfl)).andThen
    cases result with
    | error failure => exact (hliteral.weaken (Nat.zero_le _)).bind_error
    | ok answer =>
      obtain ⟨segments, after⟩ := answer
      refine Reads.weaken ?_ (Nat.le_of_ble_eq_true rfl : 1 ≤ 4)
      apply hliteral.bind (k := 0)
      rw [nested]
      simp only [onwards]
      cases closedValues segments with
      | ok values => exact Reads.pure _
      | error cause => exact Reads.fail (.nested cause) _

/-! ## Segments -/

theorem reads_completeSegment {limit : Nat} {place : List Char} {value : RawValue}
    (hlimit : rest.length < limit) :
    Reads source opened 0 (completeSegment source limit (offset source place) value) rest
      (readCompletion value place rest) := by
  have hlength := length_skipBlank_le rest
  have hfinish (options : Options) (text : List Char) :
      Reads source opened 0 (orFail (offset source place) (segmentOf value options)) text
        (match segmentOf value options with
          | .error fault => .error ⟨fault, place⟩
          | .ok s => .ok (s, text)) := by
    cases segmentOf value options with
    | ok s => exact Reads.pure s
    | error fault => exact Reads.fail fault place
  apply reads_skipWhitespace.andThen
  rw [readCompletion]
  by_cases hcolons : ∃ more, skipBlank rest = ':' :: ':' :: more
  · obtain ⟨more, hmore⟩ := hcolons
    have hoptions : Reads source opened 0 (optionLoop source (offset source place) limit ⟨none, []⟩)
        more (readOptions place more none []) := by
      apply reads_optionLoop
      rw [hmore, List.length_cons, List.length_cons] at hlength
      omega
    rw [readOptions?, hmore]
    apply (reads_eat_of_eq (show ':' :: ':' :: more = "::".toList ++ more from rfl)).andThen
    simp only
    cases hread : readOptions place more none [] with
    | error failure =>
      rw [hread] at hoptions
      exact hoptions.bind_error
    | ok answer =>
      obtain ⟨options, text⟩ := answer
      rw [hread] at hoptions
      apply hoptions.andThen
      exact hfinish options text
  · have hread : readOptions? place rest = .ok (⟨none, []⟩, skipBlank rest) := by
      rw [readOptions?]
      split
      · rename_i more hmore
        exact absurd ⟨more, hmore⟩ hcolons
      · rfl
    rw [hread]
    apply (reads_eat_of_not (not_exists.mp hcolons)).andThen
    apply (Reads.pure _).andThen
    exact hfinish ⟨none, []⟩ _

/-- Reading a segment takes a byte, which the count of segments takes up. -/
theorem reads_segment {nestedLiteral : CursorM (List Segment)} {limit : Nat}
    {result : Except Failure (RawValue × List Char)}
    (hvalue : Reads source opened 1 (value source nestedLiteral) rest result)
    (hlimit : ∀ v after, result = .ok (v, after) → after.length < limit) :
    Reads source opened 0 (segment source nestedLiteral limit) rest
      (onwards result fun v after => readCompletion v rest after) := by
  apply Reads.producing
  refine Reads.call ?_ (Nat.le_refl _)
  cases result with
  | error failure => exact (hvalue.weaken (Nat.zero_le _)).bind_error
  | ok answer =>
    obtain ⟨v, after⟩ := answer
    exact hvalue.bind (reads_completeSegment (hlimit v after rfl))

/-- The reader over lists goes on after a segment with the next one or with closing brackets. -/
theorem run_options (v : RawValue) (segment after : List Char) (current : OpenLiteral)
    (outer : List OpenLiteral) :
    (Reader.mk (.options v segment) current outer after).run =
      onwards (readCompletion v segment after) fun s stop => readNext s current outer stop := by
  have hread := readSegment_eq v segment after
  cases hcompletion : readCompletion v segment after with
  | error failure =>
    rw [hcompletion] at hread
    rw [Reader.run_eq]
    simp only [Reader.step, hread]
    rfl
  | ok answer =>
    obtain ⟨s, stop⟩ := answer
    rw [hcompletion] at hread
    simp only [onwards, readNext] at hread ⊢
    split
    · rename_i more hcomma
      exact run_comma (hcomma ▸ hread) current outer
    · rename_i hcomma
      unfold readClosing
      split
      · rename_i text hclose
        exact run_close (hclose ▸ hread) current outer
      · rename_i hclose
        rw [Reader.run_eq]
        simp only [Reader.step, hread]
        rfl

/-- A segment, given the result of its value. -/
theorem segmentResult_of_value {result : Except Failure (RawValue × List Char)}
    (h : ValueResult source rest result) :
    SegmentResult source rest (onwards result fun v after => readCompletion v rest after) := by
  refine ⟨?_, ?_, ?_⟩
  · intro current outer
    rw [h.run]
    cases result with
    | error failure => rfl
    | ok answer => exact run_options ..
  · intro s stop hsegment
    obtain ⟨v, after, hresult, hread⟩ := onwards_eq_ok_iff.mp hsegment
    exact Nat.lt_of_le_of_lt (readCompletion_length_le hread) (h.shorter v after hresult)
  · intro limit rounds opened hlimit hrounds hroom
    apply reads_segment (h.reads limit opened hlimit hroom)
    intro v after hresult
    exact Nat.lt_of_lt_of_le (h.shorter v after hresult) hrounds

/-- Every round of the loop begins with a segment. -/
theorem reads_segmentLoop {limit rounds : Nat} {done : List Segment}
    {result : Except Failure (List Segment × List Char)} (hrounds : rest.length < rounds)
    (h : ∀ rounds', rest.length ≤ rounds' → Reads source opened 0
      (do
        let s ← segment source (literal source limit) rounds'
        skipWhitespace source
        if ← eat source "," then
          skipWhitespace source
          segmentLoop source (literal source limit) rounds' (s :: done)
        else return (s :: done).reverse) rest result) :
    Reads source opened 0 (segmentLoop source (literal source limit) rounds done) rest result := by
  cases rounds with
  | zero => exact absurd hrounds (Nat.not_lt_zero _)
  | succ rounds => exact h rounds (Nat.le_of_lt_succ hrounds)

theorem segmentsResult_of_error {failure : Failure}
    (h : SegmentResult source rest (.error failure)) :
    SegmentsResult source rest (.error failure) := by
  refine ⟨h.run, by simp, ?_⟩
  intro limit rounds opened done hlimit hrounds hroom
  apply reads_segmentLoop hrounds
  intro rounds' hrounds'
  exact (h.reads limit rounds' opened hlimit hrounds' hroom).bind_error

/-- A segment that a comma follows, given the result of those after it. -/
theorem segmentsResult_of_comma {s : Segment} {stop more : List Char}
    {result : Except Failure (List Segment × List Char)}
    (h : SegmentResult source rest (.ok (s, stop))) (hmore : skipBlank stop = ',' :: more)
    (hnext : SegmentsResult source (skipBlank more) result) :
    SegmentsResult source rest (onwards result fun segments after => .ok (s :: segments, after)) := by
  have hlength : (skipBlank more).length < rest.length := by
    have hstop := h.shorter s stop rfl
    have hblank := length_skipBlank_le stop
    have hblank' := length_skipBlank_le more
    rw [hmore, List.length_cons] at hblank
    omega
  refine ⟨?_, ?_, ?_⟩
  · intro current outer
    rw [h.run]
    simp only [onwards, readNext, hmore, hnext.run]
    cases result with
    | error failure => rfl
    | ok answer => simp
  · intro segments after hsegments
    obtain ⟨segments', after', hresult, hcons⟩ := onwards_eq_ok_iff.mp hsegments
    rw [Except.ok.injEq, Prod.mk.injEq] at hcons
    rw [← hcons.2]
    exact Nat.lt_trans (hnext.shorter segments' after' hresult) hlength
  · intro limit rounds opened done hlimit hrounds hroom
    apply reads_segmentLoop hrounds
    intro rounds' hrounds'
    apply (h.reads limit rounds' opened hlimit hrounds' hroom).andThenFrom
    intro hsegment
    apply reads_skipWhitespace.andThenFrom
    intro hblank
    apply (reads_eat_of_eq hmore).andThenFrom
    intro hcomma
    apply reads_skipWhitespace.andThenFrom
    intro hblank'
    have hroom' := (((hroom.mono hsegment).mono hblank).mono hcomma).mono hblank'
    have hloop := hnext.reads limit rounds' opened (s :: done) (by omega) (by omega) hroom'
    cases result with
    | error failure => exact hloop
    | ok answer => simpa [onwards] using hloop

/-- A segment that no comma follows. -/
theorem segmentsResult_of_last {s : Segment} {stop : List Char}
    (h : SegmentResult source rest (.ok (s, stop))) (hcomma : ∀ more, skipBlank stop ≠ ',' :: more) :
    SegmentsResult source rest (.ok ([s], skipBlank stop)) := by
  refine ⟨?_, ?_, ?_⟩
  · intro current outer
    rw [h.run]
    simp only [onwards, readNext, List.reverse_cons]
  · intro segments after hsegments
    rw [Except.ok.injEq, Prod.mk.injEq] at hsegments
    rw [← hsegments.2]
    exact Nat.lt_of_le_of_lt (length_skipBlank_le stop) (h.shorter s stop rfl)
  · intro limit rounds opened done hlimit hrounds hroom
    apply reads_segmentLoop hrounds
    intro rounds' hrounds'
    apply (h.reads limit rounds' opened hlimit hrounds' hroom).andThen
    apply reads_skipWhitespace.andThen
    apply (reads_eat_of_not hcomma).andThen
    simp only [onwards, ← List.reverse_cons]
    exact Reads.pure _

/-- The segments from a value on, given the results of reading shorter sources. -/
theorem exists_segmentsResult_of_value {result : Except Failure (RawValue × List Char)}
    (hvalue : ValueResult source rest result)
    (ih : ∀ next, next.length < rest.length → ∃ result, SegmentsResult source next result) :
    ∃ result, SegmentsResult source rest result := by
  have hsegment := segmentResult_of_value hvalue
  generalize (onwards result fun v after => readCompletion v rest after) = completed at hsegment
  cases completed with
  | error failure => exact ⟨_, segmentsResult_of_error hsegment⟩
  | ok answer =>
    obtain ⟨s, stop⟩ := answer
    by_cases hcomma : ∃ more, skipBlank stop = ',' :: more
    · obtain ⟨more, hmore⟩ := hcomma
      have hstop := hsegment.shorter s stop rfl
      have hblank := length_skipBlank_le stop
      have hblank' := length_skipBlank_le more
      rw [hmore, List.length_cons] at hblank
      obtain ⟨result', hnext⟩ := ih (skipBlank more) (by omega)
      exact ⟨_, segmentsResult_of_comma hsegment hmore hnext⟩
    · exact ⟨_, segmentsResult_of_last hsegment (not_exists.mp hcomma)⟩

/-! ## Literals -/

/-- The brackets that close a literal, due after the segments that `result` has. -/
def closedBy (result : Except Failure (List Segment × List Char)) :
    Except Failure (List Segment × List Char) :=
  onwards result fun segments after =>
    match after with
    | '>' :: '>' :: rest => .ok (segments, rest)
    | after => .error ⟨.expected .closing, after⟩

theorem closedBy_length_le {result : Except Failure (List Segment × List Char)}
    {segments : List Segment} {stop : List Char}
    (hle : ∀ segments after, result = .ok (segments, after) → after.length < rest.length)
    (h : closedBy result = .ok (segments, stop)) : stop.length < rest.length := by
  obtain ⟨segments', after, hresult, hclose⟩ := onwards_eq_ok_iff.mp h
  have hafter := hle segments' after hresult
  split at hclose
  · simp only [Except.ok.injEq, Prod.mk.injEq] at hclose
    rw [← hclose.2]
    simp only [List.length_cons] at hafter
    omega
  · simp at hclose

/-- After its segments the brackets that close a literal are read. -/
theorem reads_closing {m : CursorM (List Segment)}
    {result : Except Failure (List Segment × List Char)}
    (h : Reads source opened 0 m rest result) :
    Reads source opened 2
      (do
        let segments ← m
        expect source .closing
        return segments) rest (closedBy result) := by
  cases result with
  | error failure => exact h.bind_error
  | ok answer =>
    obtain ⟨segments, after⟩ := answer
    apply h.andThen
    simp only [closedBy, onwards]
    split
    · rename_i stop
      have hexpect : Reads source opened 2 (expect source .closing) ('>' :: '>' :: stop)
          (.ok ((), stop)) := reads_expect_of_eq rfl
      apply hexpect.bind (k := 0)
      exact Reads.pure segments
    · rename_i hclose
      exact (reads_expect_of_not hclose).bind_error

/-- Within a limit a literal is its brackets and what is between them, as an open call. -/
theorem reads_literal {limit : Nat} {result : Except Failure (List Segment × List Char)}
    (hlimit : 0 < limit) (hroom : Room source opened rest)
    (h : ∀ limit', limit = limit' + 1 → Reads source (offset source rest :: opened) 4
      (literalBody source (literal source limit') limit') rest result) :
    Reads source opened 4 (literal source limit) rest result := by
  cases limit with
  | zero => exact absurd hlimit (Nat.lt_irrefl 0)
  | succ limit => exact Reads.whileOpen hroom (Reads.call (h limit rfl) (Nat.le_refl _))

theorem literalResult_of_not_opening (hopen : ∀ inside, skipBlank rest ≠ '<' :: '<' :: inside) :
    LiteralResult source rest (.error ⟨.expected .opening, skipBlank rest⟩) := by
  refine ⟨?_, by simp, ?_⟩
  · intro around
    unfold readOpening
    split
    · rename_i inside hinside
      exact absurd hinside (hopen inside)
    · rfl
  · intro limit opened hpos hlimit hroom
    apply reads_literal hpos hroom
    intro limit' _
    apply reads_skipWhitespace.andThen
    exact (reads_expect_of_not hopen).bind_error

/-- A literal without segments. -/
theorem literalResult_empty {inside after : List Char}
    (hinside : skipBlank rest = '<' :: '<' :: inside)
    (hafter : skipBlank inside = '>' :: '>' :: after) :
    LiteralResult source rest (.ok ([], after)) := by
  refine ⟨?_, ?_, ?_⟩
  · intro around
    simp only [readOpening, hinside, openLiteral, hafter, onwards]
  · intro segments after' h
    have hblank := length_skipBlank_le rest
    have hblank' := length_skipBlank_le inside
    rw [hinside, List.length_cons, List.length_cons] at hblank
    rw [hafter, List.length_cons, List.length_cons] at hblank'
    rw [Except.ok.injEq, Prod.mk.injEq] at h
    rw [← h.2]
    omega
  · intro limit opened hpos hlimit hroom
    apply reads_literal hpos hroom
    intro limit' _
    have hopening : Reads source (offset source rest :: opened) 2 (expect source .opening)
        (skipBlank rest) (.ok ((), inside)) := reads_expect_of_eq hinside
    have hclosing : Reads source (offset source rest :: opened) 2 (eat source ">>")
        (skipBlank inside) (.ok (true, after)) := reads_eat_of_eq hafter
    apply reads_skipWhitespace.andThen
    apply hopening.bind (k := 2)
    apply reads_skipWhitespace.andThen
    apply hclosing.bind (k := 0)
    exact Reads.pure _

/-- A literal with segments, given their result. -/
theorem literalResult_of_segments {inside : List Char}
    {result : Except Failure (List Segment × List Char)}
    (hinside : skipBlank rest = '<' :: '<' :: inside)
    (hclose : ∀ after, skipBlank inside ≠ '>' :: '>' :: after)
    (h : SegmentsResult source (skipBlank inside) result) :
    LiteralResult source rest (closedBy result) := by
  have hlength : (skipBlank inside).length + 2 ≤ rest.length := by
    have hblank := length_skipBlank_le rest
    have hblank' := length_skipBlank_le inside
    rw [hinside, List.length_cons, List.length_cons] at hblank
    omega
  refine ⟨?_, ?_, ?_⟩
  · intro around
    have hstart : readOpening around rest =
        (Reader.mk .value ⟨skipBlank rest, []⟩ around (skipBlank inside)).run := by
      simp only [readOpening, hinside, openLiteral]
      rfl
    rw [hstart, h.run]
    cases result with
    | error failure => rfl
    | ok answer =>
      obtain ⟨segments, after⟩ := answer
      simp only [onwards, closedBy, readClosing, List.reverse_nil, List.nil_append]
      split <;> rfl
  · intro segments stop hclosed
    apply closedBy_length_le _ hclosed
    intro segments' after hresult
    have hafter := h.shorter segments' after hresult
    omega
  · intro limit opened hpos hlimit hroom
    apply reads_literal hpos hroom
    rintro limit' rfl
    have hopening : Reads source (offset source rest :: opened) 2 (expect source .opening)
        (skipBlank rest) (.ok ((), inside)) := reads_expect_of_eq hinside
    apply reads_skipWhitespace.andThenFrom
    intro hblank
    apply hopening.bindFrom (k := 2)
    intro hbrackets
    apply reads_skipWhitespace.andThenFrom
    intro hblank'
    -- the brackets are the two bytes between this literal and one that its first value opens
    have hroom' : Room source (offset source rest :: opened) (skipBlank inside) := by
      intro start hstart
      rcases List.mem_cons.mp hstart with rfl | hstart
      · omega
      · have := hroom start hstart
        omega
    have hloop := h.reads limit' limit' _ [] (by omega) (by omega) hroom'
    apply (reads_eat_of_not hclose).andThen
    apply reads_closing
    cases result <;> exact hloop

/-- A literal, given the results of reading segments from shorter sources. -/
theorem exists_literalResult
    (ih : ∀ next, next.length < rest.length → ∃ result, SegmentsResult source next result) :
    ∃ result, LiteralResult source rest result := by
  by_cases hopen : ∃ inside, skipBlank rest = '<' :: '<' :: inside
  · obtain ⟨inside, hinside⟩ := hopen
    by_cases hclose : ∃ after, skipBlank inside = '>' :: '>' :: after
    · obtain ⟨after, hafter⟩ := hclose
      exact ⟨_, literalResult_empty hinside hafter⟩
    · have hblank := length_skipBlank_le rest
      have hblank' := length_skipBlank_le inside
      rw [hinside, List.length_cons, List.length_cons] at hblank
      obtain ⟨result, hsegments⟩ := ih (skipBlank inside) (by omega)
      exact ⟨_, literalResult_of_segments hinside (not_exists.mp hclose) hsegments⟩
  · exact ⟨_, literalResult_of_not_opening (not_exists.mp hopen)⟩

theorem exists_segmentsResult (source : String) (rest : List Char) :
    ∃ result, SegmentsResult source rest result := by
  induction hn : rest.length using Nat.strongRecOn generalizing rest with
  | ind n ih =>
    subst hn
    have ih' : ∀ next : List Char, next.length < rest.length →
        ∃ result, SegmentsResult source next result :=
      fun next hnext => ih next.length hnext next rfl
    by_cases hliteral : ∃ text, rest = '<' :: text
    · obtain ⟨text, rfl⟩ := hliteral
      obtain ⟨result, hresult⟩ := exists_literalResult ih'
      exact exists_segmentsResult_of_value (valueResult_literal hresult) ih'
    · exact exists_segmentsResult_of_value (valueResult_scalar (not_exists.mp hliteral)) ih'

end Cursor

end ClauseMatch.Literal
