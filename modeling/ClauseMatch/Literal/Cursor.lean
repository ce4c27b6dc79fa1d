import ClauseMatch.Literal.Parser

/-!
# Reading literals with a byte cursor

The reader of literals takes the source apart as a list of characters and so has no offset that
could be wrong. Here the same literals are read from the source as it is stored, in bytes: a cursor
moves over it by counts of bytes, looks at single bytes, and texts are cut out between two offsets.
Cutting anywhere but at the boundaries of characters is a panic, and so is negating the least
integer. Nothing in these definitions rules a panic out, nor an offset that falls inside a
character, nor a call that never returns.

Literals nest and loops go round as often as the source has them do it. A limit bounds both; a
reader that comes up against it has not returned. The reader keeps a trace of what it does, of the
moments it has gone through and of the calls that have succeeded, for statements about every moment
of a run.
-/

namespace ClauseMatch.Literal

/-- The routines whose successful calls are recorded. -/
inductive Routine where
  | option
  | value
  | segment
  | literal
deriving DecidableEq

/-- A call that has succeeded, with the offset of the cursor before it and after it. -/
structure Call where
  routine : Routine
  start : Nat
  stop : Nat
deriving DecidableEq

/-- The state of the reader at one moment: the offset of the cursor, the offsets at which the
literal calls still open began, innermost first, and the number of segments produced so far. -/
structure Moment where
  pos : Nat
  opened : List Nat
  produced : Nat
deriving DecidableEq

/-- What the reader has done: the present moment, the moments before it and the calls that have
succeeded, both latest first. -/
structure Trace where
  now : Moment
  earlier : List Moment
  calls : List Call
deriving DecidableEq

/-- Every moment of a trace, latest first. -/
def Trace.moments (t : Trace) : List Moment := t.now :: t.earlier

/-- The trace of a reader that has done nothing. -/
def Trace.start : Trace := ⟨⟨0, [], 0⟩, [], []⟩

/-- The ways in which reading can end early. -/
inductive Stop where
  | failed (error : ParseError)
  | panicked
deriving DecidableEq

/-- A reader over a trace. It returns a value, fails or panics; without a result it has not
returned. -/
abbrev CursorM := ExceptT Stop (StateT Trace Option)

/-! ## Bytes and slices -/

/-- The bytes of a text in UTF-8. -/
def bytes (text : String) : List UInt8 := text.toByteArray.data.toList

/-- The text between two offsets, which must be boundaries of characters in this order. -/
def slice? (source : String) (start stop : Nat) : Option String :=
  if h : start ≤ stop ∧ String.Pos.Raw.IsValid source ⟨start⟩ ∧
      String.Pos.Raw.IsValid source ⟨stop⟩ then
    some (String.extract (source.pos ⟨start⟩ h.2.1) (source.pos ⟨stop⟩ h.2.2))
  else none

/-- The negative of an integer, if 64 bits hold it. -/
def negate? (n : Int64) : Option Int64 :=
  if n = Int64.minValue then none else some (-n)

/-- The integer that hexadecimal digits spell, if 64 bits hold it. -/
def hexMagnitude? (digits : List Char) : Option Int64 :=
  if digits.isEmpty ∨ 1 <<< 63 ≤ natOfDigits 16 digits then none
  else some (Int64.ofInt (natOfDigits 16 digits))

/-- The byte of a decimal digit. -/
def isDigitByte (b : UInt8) : Bool := '0'.toUInt8 ≤ b && b ≤ '9'.toUInt8

/-- The byte of a letter between `A` and `last`, or of its lower case. -/
def isLetterByte (last : Char) (b : UInt8) : Bool :=
  ('A'.toUInt8 ≤ b && b ≤ last.toUInt8) || ('a'.toUInt8 ≤ b && b ≤ last.toLower.toUInt8)

/-- The byte of a decimal digit or an underscore. -/
def isDigitOrGapByte (b : UInt8) : Bool := isDigitByte b || b == '_'.toUInt8

/-- The byte of a hexadecimal digit or an underscore. -/
def isHexDigitOrGapByte (b : UInt8) : Bool :=
  isDigitByte b || isLetterByte 'F' b || b == '_'.toUInt8

/-- The byte of a letter, a digit or an underscore. -/
def isNameByte (b : UInt8) : Bool := isDigitByte b || isLetterByte 'Z' b || b == '_'.toUInt8

namespace Cursor

/-! ## The cursor -/

variable {α : Type}

/-- The offset of the cursor. -/
def position : CursorM Nat := do
  return (← get).now.pos

/-- Passes to another moment. -/
def proceed (next : Moment → Moment) : CursorM Unit :=
  modify fun t => { t with now := next t.now, earlier := t.now :: t.earlier }

/-- Puts the cursor at an offset. -/
def moveTo (pos : Nat) : CursorM Unit :=
  proceed fun m => { m with pos }

/-- Moves the cursor by a number of bytes. -/
def advance (count : Nat) : CursorM Unit := do
  moveTo ((← position) + count)

/-- Fails with a fault at an offset. -/
def fail (fault : Fault) (pos : Nat) : CursorM α :=
  throw (.failed ⟨fault, pos⟩)

/-- The value of an operation whose fault is one at an offset. -/
def orFail (pos : Nat) : Except Fault α → CursorM α
  | .ok a => pure a
  | .error fault => fail fault pos

/-- The value of an operation that panics when it has none. -/
def orPanic : Option α → CursorM α
  | some a => pure a
  | none => throw .panicked

/-- What is left when the limit is reached. -/
def noReturn : CursorM α := ExceptT.mk fun _ => none

/-- Calls a routine, whose body is told where it begins, and records the call if it succeeds. -/
def call (routine : Routine) (body : Nat → CursorM α) : CursorM α := do
  let start ← position
  let a ← body start
  let stop ← position
  modify fun t => { t with calls := ⟨routine, start, stop⟩ :: t.calls }
  return a

/-- Reads a literal that stays open until its body has succeeded. -/
def whileOpen (body : CursorM α) : CursorM α := do
  let start ← position
  proceed fun m => { m with opened := start :: m.opened }
  let a ← body
  proceed fun m => { m with opened := m.opened.tail }
  return a

/-- Counts the segment that a body has read. -/
def producing (body : CursorM α) : CursorM α := do
  let a ← body
  proceed fun m => { m with produced := m.produced + 1 }
  return a

variable (source : String)

/-- The source from the cursor on. -/
def rest : CursorM String := do
  orPanic (slice? source (← position) source.utf8ByteSize)

/-- The byte at the cursor, if the source has not ended. -/
def peek : CursorM (Option UInt8) := do
  return (bytes source)[← position]?

/-- Passes over white space. -/
def skipWhitespace : CursorM Unit := do
  let trimmed := skipBlank (← rest source).toList
  moveTo (source.utf8ByteSize - (String.ofList trimmed).utf8ByteSize)

/-- Passes over a token, if it stands at the cursor. -/
def eat (token : String) : CursorM Bool := do
  if token.toList.isPrefixOf (← rest source).toList then
    advance token.utf8ByteSize
    return true
  else return false

/-- Passes over a token that has to stand at the cursor. -/
def expect (what : Expectation) : CursorM Unit := do
  if ← eat source what.text then return ()
  else fail (.expected what) (← position)

/-- Passes over the longest run of bytes of a class and returns its text. -/
def takeWhile (accept : UInt8 → Bool) : CursorM String := do
  let start ← position
  advance ((bytes (← rest source)).takeWhile accept).length
  orPanic (slice? source start (← position))

/-! ## Texts and numbers -/

/-- Reads a text up to its closing quote; `offset` counts the bytes passed over and `out` holds the
characters of the text, latest first. The result has the offset of the quote. -/
def scanQuoted : List Char → Nat → List Char → Option (List Char × Nat)
  | [], _, _ => none
  | '"' :: _, offset, out => some (out.reverse, offset)
  | '\\' :: [], _, _ => none
  | '\\' :: c :: text, offset, out => scanQuoted text (offset + 1 + c.utf8Size) (unescape c :: out)
  | c :: text, offset, out => scanQuoted text (offset + c.utf8Size) (c :: out)

/-- Reads a quoted text. The cursor is at its opening quote. -/
def string : CursorM String := do
  let start ← position
  advance 1
  match scanQuoted (← rest source).toList 0 [] with
  | some (out, offset) =>
    advance (offset + 1)
    return String.ofList out
  | none => fail .unterminatedText start

/-- Fails over the number between `start` and the cursor. -/
def invalidNumber (start : Nat) : CursorM α := do
  let spelling ← orPanic (slice? source start (← position))
  fail (.invalidNumber spelling) start

/-- Reads the digits of a hexadecimal number that began at `start`. -/
def hexadecimal (start : Nat) (negative : Bool) : CursorM Number := do
  let digits ← takeWhile source isHexDigitOrGapByte
  match hexMagnitude? (withoutGaps digits.toList) with
  | some magnitude =>
    if negative then return .integer (← orPanic (negate? magnitude))
    else return .integer magnitude
  | none => invalidNumber source start

/-- Passes over a point with the digits after it. Behind the point at least one digit must stand. -/
def fraction : CursorM Unit := do
  let text ← rest source
  if text.toList.head? = some '.' then
    let after ← orPanic (slice? text 1 text.utf8ByteSize)
    if after.toList.head?.any Char.isDigit then
      advance 1
      let _ ← takeWhile source isDigitOrGapByte

/-- Passes over a sign. -/
def sign : CursorM Unit := do
  if (← rest source).toList.head?.any (fun c => c = '+' ∨ c = '-') then advance 1

/-- Passes over the marker of an exponent, a sign and digits. -/
def exponent : CursorM Unit := do
  if (← rest source).toList.head?.any (fun c => c = 'e' ∨ c = 'E') then
    advance 1
    sign source
    let _ ← takeWhile source isDigitByte

/-- The number between `start` and the cursor. Its text is cut out of the source as a whole and
denotes what the spelling scanned from it denotes. -/
def spelled (start : Nat) : CursorM Number := do
  let text ← orPanic (slice? source start (← position))
  match (scanNumber text.toList).1.denotation? with
  | some number => return number
  | none => invalidNumber source start

/-- Reads a number. -/
def number : CursorM Number := do
  let start ← position
  let negative ← eat source "-"
  if ← eat source "0x" then hexadecimal source start negative
  else
    let _ ← takeWhile source isDigitOrGapByte
    fraction source
    exponent source
    spelled source start

/-! ## Options -/

/-- The number that digits spell in 32 bits; `pos` is where they stand. -/
def count (digits : String) (pos : Nat) : CursorM UInt32 :=
  match readCount digits.toList [] with
  | .ok n => return n
  | .error failure => fail failure.fault pos

/-- Reads the argument of an option and its closing parenthesis. -/
def argument : CursorM UInt32 := do
  skipWhitespace source
  let pos ← position
  let n ← count (← takeWhile source isDigitByte) pos
  skipWhitespace source
  expect source .closingParenthesis
  return n

/-- Reads the option that the name between `pos` and the cursor begins. -/
def namedOption (name : String) (pos : Nat) : CursorM SegmentOption := do
  if ← eat source "(" then
    let n ← argument source
    match argumentOption? name n with
    | some o => return o
    | none => fail (.unknownOption (name ++ "(" ++ toString n.toNat ++ ")")) pos
  else
    match plainOption? name with
    | some o => return o
    | none => fail (.unknownOption name) pos

/-- Reads one option. -/
def option : CursorM SegmentOption :=
  call .option fun pos => do
    let name ← takeWhile source isNameByte
    if name.isEmpty then fail (.expected .segmentOption) pos
    else if name.toList.all Char.isDigit then
      return .modifier (.size (← count name pos))
    else namedOption source name pos

/-- The options together with a further one, the modifiers being kept latest first; a second type
is a fault of the segment, which began at `start`. -/
def addOption (start : Nat) (options : Options) : SegmentOption → CursorM Options
  | .type name =>
    if options.type.isSome then fail .duplicateType start
    else return { options with type := some name }
  | .modifier m => return { options with modifiers := m :: options.modifiers }

/-- Reads options separated by dashes. -/
def optionLoop (start : Nat) : Nat → Options → CursorM Options
  | 0, _ => noReturn
  | limit + 1, done => do
    skipWhitespace source
    let o ← option source
    let options ← addOption start done o
    skipWhitespace source
    if ← eat source "-" then optionLoop start limit options
    else return { options with modifiers := options.modifiers.reverse }

/-- Reads the options of a segment, if two colons announce any, and applies them to its value. -/
def completeSegment (limit start : Nat) (value : RawValue) : CursorM Segment := do
  skipWhitespace source
  let options ←
    if ← eat source "::" then optionLoop source start limit ⟨none, []⟩ else pure ⟨none, []⟩
  orFail start (segmentOf value options)

/-! ## Literals -/

/-- The value that the segments of a nested literal at `pos` make. -/
def nested (pos : Nat) (segments : List Segment) : CursorM RawValue :=
  match closedValues segments with
  | .ok values => return .bits values
  | .error cause => fail (.nested cause) pos

section

variable (nestedLiteral : CursorM (List Segment))

/-- Reads a segment value; `nestedLiteral` reads one that is a literal. The first byte tells of
what kind the value is. -/
def value : CursorM RawValue :=
  call .value fun pos => do
    match ← peek source with
    | none => fail (.expected .segmentValue) pos
    | some b =>
      if b == '"'.toUInt8 then return .text (← string source)
      else if b == '<'.toUInt8 then nested pos (← nestedLiteral)
      else if b == '-'.toUInt8 || isDigitByte b then return .ofNumber (← number source)
      else fail (.expected .segmentValue) pos

/-- Reads a segment. -/
def segment (limit : Nat) : CursorM Segment :=
  producing (call .segment fun start => do
    let v ← value source nestedLiteral
    completeSegment source limit start v)

/-- Reads segments separated by commas; `done` holds those before, latest first. -/
def segmentLoop : Nat → List Segment → CursorM (List Segment)
  | 0, _ => noReturn
  | limit + 1, done => do
    let s ← segment source nestedLiteral limit
    skipWhitespace source
    if ← eat source "," then
      skipWhitespace source
      segmentLoop limit (s :: done)
    else return (s :: done).reverse

/-- Reads the brackets of a literal and what is between them. -/
def literalBody (limit : Nat) : CursorM (List Segment) := do
  skipWhitespace source
  expect source .opening
  skipWhitespace source
  if ← eat source ">>" then return []
  else
    let segments ← segmentLoop source nestedLiteral limit []
    expect source .closing
    return segments

end

/-- Reads a literal, with blanks before it allowed. -/
def literal : Nat → CursorM (List Segment)
  | 0 => noReturn
  | limit + 1 =>
    whileOpen (call .literal fun _ => literalBody source (literal limit) limit)

/-- Reads a source that is one literal, with blanks around it allowed. -/
def literalSource (limit : Nat) : CursorM (List Segment) := do
  let segments ← literal source limit
  skipWhitespace source
  let pos ← position
  if pos < source.utf8ByteSize then fail .trailingInput pos
  else return segments

end Cursor

/-- Runs the reader on a source within a limit: how it ends and what it has done until then. -/
def parseTraced (limit : Nat) (source : String) : Option (Except Stop (List Segment) × Trace) :=
  (Cursor.literalSource source limit).run.run Trace.start

end ClauseMatch.Literal
