import ClauseMatch.Literal.Segment

/-!
# Scalar values in literals

Numbers and quoted texts. In a quoted text a backslash changes the meaning of four letters and
takes away that of every other character.
-/

namespace ClauseMatch.Literal

/-- The character that a backslash makes of the one after it. -/
def unescape : Char → Char
  | 'n' => '\n'
  | 't' => '\t'
  | 'r' => '\r'
  | '0' => '\x00'
  | c => c

/-- Reads a text up to its closing quote; `done` holds the characters before, latest first. -/
def readText : List Char → List Char → Option (List Char × List Char)
  | [], _ => none
  | '"' :: rest, done => some (done.reverse, rest)
  | '\\' :: [], _ => none
  | '\\' :: c :: rest, done => readText rest (unescape c :: done)
  | c :: rest, done => readText rest (c :: done)

theorem readText_length_lt {source done text rest : List Char}
    (h : readText source done = some (text, rest)) : rest.length < source.length := by
  fun_induction readText source done with
  | case1 => simp at h
  | case2 done rest' =>
    simp only [Option.some.injEq, Prod.mk.injEq] at h
    obtain ⟨-, rfl⟩ := h
    simp
  | case3 => simp at h
  | case4 done c rest' ih =>
    have := ih h
    simp only [List.length_cons]
    omega
  | case5 done c rest' _ _ _ ih =>
    have := ih h
    simp only [List.length_cons]
    omega

/-- A number as a segment value. -/
def RawValue.ofNumber : Number → RawValue
  | .integer n => .integer n
  | .float x => .float x

/-- Reads a segment value that is not a literal. -/
def readScalar (source : List Char) : Except Failure (RawValue × List Char) :=
  match source with
  | '"' :: rest =>
    match readText rest [] with
    | some (text, rest) => .ok (.text (String.ofList text), rest)
    | none => .error ⟨.unterminatedText, source⟩
  | c :: _ =>
    if c = '-' ∨ c.isDigit then
      match readNumber source with
      | .ok (number, rest) => .ok (.ofNumber number, rest)
      | .error failure => .error failure
    else .error ⟨.expected .segmentValue, source⟩
  | [] => .error ⟨.expected .segmentValue, source⟩

/-- Reading a scalar consumes at least one character. -/
theorem readScalar_length_lt {source rest : List Char} {value : RawValue}
    (h : readScalar source = .ok (value, rest)) : rest.length < source.length := by
  unfold readScalar at h
  split at h
  · split at h
    · rename_i hread
      have := readText_length_lt hread
      simp only [Except.ok.injEq, Prod.mk.injEq] at h
      obtain ⟨-, rfl⟩ := h
      simp only [List.length_cons]
      omega
    · simp at h
  · split at h
    · rename_i hc
      split at h
      · rename_i hread
        simp only [Except.ok.injEq, Prod.mk.injEq] at h
        obtain ⟨-, rfl⟩ := h
        exact readNumber_length_lt hc hread
      · simp at h
    · simp at h
  · simp at h

end ClauseMatch.Literal
