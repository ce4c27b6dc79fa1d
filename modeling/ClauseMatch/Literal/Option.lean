import ClauseMatch.Literal.Number

/-!
# Segment options

After two colons a segment lists options separated by dashes: at most one type, and any number of
modifiers. A bare number is short for a size.
-/

namespace ClauseMatch.Literal

/-- One option of a segment. -/
inductive SegmentOption where
  | type (name : TypeName)
  | modifier (m : Modifier)

/-- The options of a segment: its type, if it declares one, and its modifiers in order. -/
structure Options where
  type : Option TypeName
  modifiers : List Modifier

/-- A character that can belong to an option name. -/
def isNameChar (c : Char) : Bool := c.isAlphanum || c == '_'

/-- The modifiers that are written as a plain name. -/
def plainModifiers : List (String × Modifier) :=
  [("signed", .signed), ("unsigned", .unsigned), ("native", .native), ("big", .big),
   ("little", .little)]

/-- Reads digits as a 32-bit number; `source` begins with them. -/
def readCount (digits source : List Char) : Except Failure UInt32 :=
  let n := natOfDigits 10 digits
  if digits.isEmpty ∨ UInt32.size ≤ n then
    .error ⟨.invalidNumber (String.ofList digits), source⟩
  else .ok (UInt32.ofNat n)

/-- The option written as a name with an argument in parentheses. -/
def argumentOption? (name : String) (n : UInt32) : Option SegmentOption :=
  if name = "size" then some (.modifier (.size n))
  else if name = "unit" then some (.modifier (.unit n))
  else none

/-- The option written as a plain name. -/
def plainOption? (name : String) : Option SegmentOption :=
  match TypeName.ofText? name with
  | some type => some (.type type)
  | none => (plainModifiers.lookup name).map .modifier

/-- Reads the argument of an option and its closing parenthesis. -/
def readArgument (source : List Char) : Except Failure (UInt32 × List Char) :=
  let source := skipBlank source
  match readCount (source.takeWhile Char.isDigit) source with
  | .error failure => .error failure
  | .ok n =>
    match skipBlank (source.dropWhile Char.isDigit) with
    | ')' :: rest => .ok (n, rest)
    | rest => .error ⟨.expected .closingParenthesis, rest⟩

/-- Reads one option. -/
def readOption (source : List Char) : Except Failure (SegmentOption × List Char) :=
  let name := source.takeWhile isNameChar
  let rest := source.dropWhile isNameChar
  if name.isEmpty then .error ⟨.expected .segmentOption, source⟩
  else if name.all Char.isDigit then
    match readCount name source with
    | .error failure => .error failure
    | .ok n => .ok (.modifier (.size n), rest)
  else
    match rest with
    | '(' :: argument =>
      match readArgument argument with
      | .error failure => .error failure
      | .ok (n, rest) =>
        match argumentOption? (String.ofList name) n with
        | some option => .ok (option, rest)
        | none =>
          .error ⟨.unknownOption (String.ofList name ++ "(" ++ toString n.toNat ++ ")"), source⟩
    | _ =>
      match plainOption? (String.ofList name) with
      | some option => .ok (option, rest)
      | none => .error ⟨.unknownOption (String.ofList name), source⟩

/-- Reading an argument consumes the closing parenthesis at least. -/
theorem readArgument_length_lt {source rest : List Char} {n : UInt32}
    (h : readArgument source = .ok (n, rest)) : rest.length < source.length := by
  simp only [readArgument] at h
  split at h
  · simp at h
  · split at h
    · rename_i heq
      have h1 := length_skipBlank_le source
      have h2 := length_dropWhile_le Char.isDigit (skipBlank source)
      have h3 := length_skipBlank_le ((skipBlank source).dropWhile Char.isDigit)
      simp only [heq, List.length_cons] at h3
      simp only [Except.ok.injEq, Prod.mk.injEq] at h
      obtain ⟨-, rfl⟩ := h
      omega
    · simp at h

/-- Reading an option consumes its name at least. -/
theorem readOption_length_lt {source rest : List Char} {option : SegmentOption}
    (h : readOption source = .ok (option, rest)) : rest.length < source.length := by
  simp only [readOption] at h
  split at h
  · simp at h
  · rename_i hname
    have hlt : (source.dropWhile isNameChar).length < source.length :=
      length_dropWhile_lt (by simpa using hname)
    split at h
    · split at h
      · simp at h
      · simp only [Except.ok.injEq, Prod.mk.injEq] at h
        obtain ⟨-, rfl⟩ := h
        exact hlt
    · split at h
      · rename_i argument harg
        split at h
        · simp at h
        · rename_i hread
          have := readArgument_length_lt hread
          simp only [harg, List.length_cons] at hlt
          split at h
          · simp only [Except.ok.injEq, Prod.mk.injEq] at h
            obtain ⟨-, rfl⟩ := h
            omega
          · simp at h
      · split at h
        · simp only [Except.ok.injEq, Prod.mk.injEq] at h
          obtain ⟨-, rfl⟩ := h
          exact hlt
        · simp at h

/-- Reads the options after the colons; `type` and the reversed `modifiers` are those read so far,
and `segment` is the source from the segment's value on. -/
def readOptions (segment source : List Char) (type : Option TypeName)
    (modifiers : List Modifier) : Except Failure (Options × List Char) :=
  match _hread : readOption (skipBlank source) with
  | .error failure => .error failure
  | .ok (.type name, rest) =>
    if type.isSome then .error ⟨.duplicateType, segment⟩
    else
      match _hrest : skipBlank rest with
      | '-' :: more => readOptions segment more (some name) modifiers
      | rest => .ok (⟨some name, modifiers.reverse⟩, rest)
  | .ok (.modifier m, rest) =>
    match _hrest : skipBlank rest with
    | '-' :: more => readOptions segment more type (m :: modifiers)
    | rest => .ok (⟨type, (m :: modifiers).reverse⟩, rest)
termination_by source.length
decreasing_by
  all_goals
    have h1 := readOption_length_lt _hread
    have h2 := length_skipBlank_le source
    have h3 := length_skipBlank_le rest
    simp only [_hrest, List.length_cons] at h3
    omega

/-- Reads the options of a segment, if two colons announce any. -/
def readOptions? (segment source : List Char) : Except Failure (Options × List Char) :=
  match skipBlank source with
  | ':' :: ':' :: rest => readOptions segment rest none []
  | rest => .ok (⟨none, []⟩, rest)

end ClauseMatch.Literal
