import ClauseMatch.Literal.Scalar

/-!
# Reading bitstring literals

A literal lists segments between double angle brackets. A segment value may itself be a literal,
so the reader keeps the literals that are still open in a list: opening one pushes it, closing one
encodes its segments and hands the elements to the literal around it as a segment value. The
reader is a machine whose states say what is due next; `Reader.step_length_lt` says that every step
consumes part of the source, and so the machine stops.
-/

namespace ClauseMatch.Literal

/-- A literal whose closing brackets have not been read: the source from its opening brackets on
and its segments so far, latest first. -/
structure OpenLiteral where
  source : List Char
  segments : List Segment

/-- What is to be read next inside a literal. -/
inductive Due where
  /-- A segment value begins here. -/
  | value
  /-- A segment value that began at `segment` has just ended. -/
  | options (value : RawValue) (segment : List Char)

/-- A state of the reader: what is due, the innermost open literal, the open literals around it,
nearest first, and the source that remains. -/
structure Reader where
  due : Due
  current : OpenLiteral
  outer : List OpenLiteral
  rest : List Char

/-- The result of one step of the reader. -/
inductive Progress where
  | next (state : Reader)
  | done (segments : List Segment) (rest : List Char)
  | failed (failure : Failure)

/-- The elements that the segments of a closed literal encode to. -/
def closedValues (segments : List Segment) : Except EncodeError (List Int64) :=
  (Bitstring.ofSegments segments).map (·.values)

/-- Reads the options of a segment whose value has ended, and the blanks after them. -/
def readSegment (value : RawValue) (segment source : List Char) :
    Except Failure (Segment × List Char) :=
  match readOptions? segment source with
  | .error failure => .error failure
  | .ok (options, rest) =>
    match segmentOf value options with
    | .error fault => .error ⟨fault, segment⟩
    | .ok s => .ok (s, skipBlank rest)

/-- Closes the innermost literal, whose segments are complete. -/
def closeLiteral (segments : List Segment) (source : List Char) (outer : List OpenLiteral)
    (rest : List Char) : Progress :=
  match outer with
  | [] => .done segments rest
  | parent :: outer =>
    match closedValues segments with
    | .error cause => .failed ⟨.nested cause, source⟩
    | .ok values => .next ⟨.options (.bits values) source, parent, outer, rest⟩

/-- Opens a literal at `source`, whose opening brackets `inside` follows; inside it a segment value
is due unless it closes at once. -/
def openLiteral (source inside : List Char) (around : List OpenLiteral) : Progress :=
  match skipBlank inside with
  | '>' :: '>' :: rest => closeLiteral [] source around rest
  | inside => .next ⟨.value, ⟨source, []⟩, around, inside⟩

namespace Reader

/-- One step of the reader. -/
def step (r : Reader) : Progress :=
  match r.due with
  | .value =>
    match r.rest with
    | '<' :: '<' :: inside => openLiteral r.rest inside (r.current :: r.outer)
    | '<' :: _ => .failed ⟨.expected .opening, r.rest⟩
    | _ =>
      match readScalar r.rest with
      | .error failure => .failed failure
      | .ok (value, rest) => .next ⟨.options value r.rest, r.current, r.outer, rest⟩
  | .options value segment =>
    match readSegment value segment r.rest with
    | .error failure => .failed failure
    | .ok (s, ',' :: rest) =>
      .next ⟨.value, { r.current with segments := s :: r.current.segments }, r.outer,
        skipBlank rest⟩
    | .ok (s, '>' :: '>' :: rest) =>
      closeLiteral (s :: r.current.segments).reverse r.current.source r.outer rest
    | .ok (_, rest) => .failed ⟨.expected .closing, rest⟩

end Reader

/-! ## Every step consumes the source -/

theorem readOptions_length_lt {segment source rest : List Char} {type : Option TypeName}
    {modifiers : List Modifier} {options : Options}
    (h : readOptions segment source type modifiers = .ok (options, rest)) :
    rest.length < source.length := by
  fun_induction readOptions segment source type modifiers with
  | case1 => simp at h
  | case2 => simp at h
  | case3 source type modifiers name rest' hread _ more hrest ih =>
    have h1 := readOption_length_lt hread
    have h2 := length_skipBlank_le source
    have h3 := length_skipBlank_le rest'
    have h4 := ih h
    simp only [hrest, List.length_cons] at h3
    omega
  | case4 source type modifiers name rest' hread _ _ =>
    have h1 := readOption_length_lt hread
    have h2 := length_skipBlank_le source
    have h3 := length_skipBlank_le rest'
    simp only [Except.ok.injEq, Prod.mk.injEq] at h
    obtain ⟨-, rfl⟩ := h
    omega
  | case5 source type modifiers m rest' hread more hrest ih =>
    have h1 := readOption_length_lt hread
    have h2 := length_skipBlank_le source
    have h3 := length_skipBlank_le rest'
    have h4 := ih h
    simp only [hrest, List.length_cons] at h3
    omega
  | case6 source type modifiers m rest' hread _ =>
    have h1 := readOption_length_lt hread
    have h2 := length_skipBlank_le source
    have h3 := length_skipBlank_le rest'
    simp only [Except.ok.injEq, Prod.mk.injEq] at h
    obtain ⟨-, rfl⟩ := h
    omega

theorem readOptions?_length_le {segment source rest : List Char} {options : Options}
    (h : readOptions? segment source = .ok (options, rest)) : rest.length ≤ source.length := by
  have h1 := length_skipBlank_le source
  unfold readOptions? at h
  split at h
  · rename_i heq
    have h2 := readOptions_length_lt h
    simp only [heq, List.length_cons] at h1
    omega
  · simp only [Except.ok.injEq, Prod.mk.injEq] at h
    obtain ⟨-, rfl⟩ := h
    exact h1

theorem readSegment_length_le {value : RawValue} {segment source rest : List Char} {s : Segment}
    (h : readSegment value segment source = .ok (s, rest)) : rest.length ≤ source.length := by
  simp only [readSegment] at h
  split at h
  · simp at h
  · rename_i options rest' hoptions
    have hle := readOptions?_length_le hoptions
    split at h
    · simp at h
    · simp only [Except.ok.injEq, Prod.mk.injEq] at h
      obtain ⟨-, rfl⟩ := h
      exact Nat.le_trans (length_skipBlank_le rest') hle

/-- Closing a literal keeps the source that remains. -/
theorem closeLiteral_rest {segments : List Segment} {source rest : List Char}
    {outer : List OpenLiteral} {r : Reader}
    (h : closeLiteral segments source outer rest = .next r) : r.rest = rest := by
  unfold closeLiteral at h
  split at h
  · simp at h
  · split at h
    · simp at h
    · simp only [Progress.next.injEq] at h
      subst h
      rfl

theorem openLiteral_length_le {source inside : List Char} {around : List OpenLiteral}
    {r : Reader} (h : openLiteral source inside around = .next r) :
    r.rest.length ≤ inside.length := by
  have hle := length_skipBlank_le inside
  unfold openLiteral at h
  split at h
  · rename_i rest heq
    rw [closeLiteral_rest h]
    simp only [heq, List.length_cons] at hle
    omega
  · simp only [Progress.next.injEq] at h
    subst h
    exact hle

/-- A step that does not end the reading consumes part of the source. -/
theorem Reader.step_length_lt {r r' : Reader} (h : r.step = .next r') :
    r'.rest.length < r.rest.length := by
  unfold Reader.step at h
  split at h
  · split at h
    · rename_i inside heq
      have := openLiteral_length_le h
      simp only [heq, List.length_cons]
      omega
    · simp at h
    · split at h
      · simp at h
      · rename_i hscalar
        simp only [Progress.next.injEq] at h
        subst h
        exact readScalar_length_lt hscalar
  · split at h
    · simp at h
    · rename_i rest hsegment
      have h1 := readSegment_length_le hsegment
      have h2 := length_skipBlank_le rest
      simp only [Progress.next.injEq] at h
      subst h
      simp only [List.length_cons] at h1
      show (skipBlank rest).length < r.rest.length
      omega
    · rename_i hsegment
      have h1 := readSegment_length_le hsegment
      rw [closeLiteral_rest h]
      simp only [List.length_cons] at h1
      omega
    · simp at h

/-! ## Whole literals -/

/-- Runs the reader until the outermost literal is closed or a fault is found. -/
def Reader.run (r : Reader) : Except Failure (List Segment × List Char) :=
  match _h : r.step with
  | .next r' => r'.run
  | .done segments rest => .ok (segments, rest)
  | .failed failure => .error failure
termination_by r.rest.length
decreasing_by exact Reader.step_length_lt _h

/-- Goes on from the result of a step. -/
def Progress.run : Progress → Except Failure (List Segment × List Char)
  | .next r => r.run
  | .done segments rest => .ok (segments, rest)
  | .failed failure => .error failure

/-- Reads a literal, with blanks before it allowed. -/
def readLiteral (source : List Char) : Except Failure (List Segment × List Char) :=
  match skipBlank source with
  | '<' :: '<' :: inside => (openLiteral (skipBlank source) inside []).run
  | rest => .error ⟨.expected .opening, rest⟩

/-- Reads a text that is one literal, with blanks around it allowed. -/
def readSource (source : List Char) : Except Failure (List Segment) :=
  match readLiteral source with
  | .error failure => .error failure
  | .ok (segments, rest) =>
    match skipBlank rest with
    | [] => .ok segments
    | rest => .error ⟨.trailingInput, rest⟩

/-- The segments of a bitstring literal. -/
def parse (source : String) : Except ParseError (List Segment) :=
  match readSource source.toList with
  | .ok segments => .ok segments
  | .error failure => .error (failure.toParseError source.toList)

end ClauseMatch.Literal
