import ClauseMatch.Numeric.Decimal
import ClauseMatch.Regex.Basic
import ClauseMatch.Regex.Property

/-!
# Flags and escapes of regular expressions

The flags that are in force at a place of an expression, and what a backslash introduces: a
character, a class, or a condition on a position. A reader gives nothing where the expression is
malformed.
-/

namespace ClauseMatch.RegexSyntax

/-- The flags in force at a place of an expression. -/
structure Flags where
  ignoreCase : Bool
  multiLine : Bool
  dotAll : Bool
  swapGreed : Bool
  crlf : Bool
  unicode : Bool
  verbose : Bool
deriving Inhabited

/-- The flags in force at the start of an expression. -/
def Flags.initial : Flags := ⟨false, false, false, false, false, true, false⟩

/-- Sets the flag with the given letter. -/
def Flags.set? (flags : Flags) (letter : Char) (on : Bool) : Option Flags :=
  match letter with
  | 'i' => some { flags with ignoreCase := on }
  | 'm' => some { flags with multiLine := on }
  | 's' => some { flags with dotAll := on }
  | 'U' => some { flags with swapGreed := on }
  | 'R' => some { flags with crlf := on }
  | 'u' => some { flags with unicode := on }
  | 'x' => some { flags with verbose := on }
  | _ => none

/-- The source after blanks and comments; `inComment` says that a comment has begun. -/
def skipComments : Bool → List Char → List Char
  | _, [] => []
  | true, c :: rest => skipComments (c ≠ '\n') rest
  | false, c :: rest =>
    if isBlank c then skipComments false rest
    else if c = '#' then skipComments true rest
    else c :: rest

/-- In verbose mode, the source after blanks and comments. -/
def Flags.skip (flags : Flags) (source : List Char) : List Char :=
  if flags.verbose then skipComments false source else source

/-- A set closed under case if the flags say so. Without Unicode only ASCII letters have case. -/
def Flags.fold (flags : Flags) (set : CharSet) : CharSet :=
  if flags.ignoreCase then
    if flags.unicode then .caseClosure set else .asciiCaseClosure set
  else set

/-- The complement of a set. Without Unicode it would hold bytes that are no characters. -/
def Flags.complement? (flags : Flags) (set : CharSet) : Option CharSet :=
  if flags.unicode then some (.complement set) else none

/-- What a backslash introduces. A byte is a character written with two hexadecimal digits. -/
inductive Escaped where
  | char (c : Char) (isByte : Bool)
  | set (set : CharSet)
  | look (condition : Look)

/-- The character with the code point that hexadecimal digits give. -/
def charOfHex? (digits : List Char) : Option Char :=
  let n := natOfDigits 16 digits
  if n.isValidChar then some (Char.ofNat n) else none

/-- Reads exactly `count` hexadecimal digits; `done` holds those before, latest first. -/
def readFixedHex (flags : Flags) : Nat → List Char → List Char → Option (List Char × List Char)
  | 0, source, done => some (done.reverse, source)
  | count + 1, source, done =>
    match source with
    | c :: rest =>
      if isHexDigit c then readFixedHex flags count (flags.skip rest) (c :: done) else none
    | [] => none

/-- Reads a text up to its closing brace. With `verbose`, blanks and comments inside are skipped;
`fuel` is at least the length of the source. -/
def readBraced (flags : Flags) : Nat → List Char → List Char → Option (List Char × List Char)
  | 0, _, _ => none
  | fuel + 1, source, done =>
    match flags.skip source with
    | [] => none
    | '\x7d' :: rest => some (done.reverse, rest)
    | c :: rest => readBraced flags fuel rest (c :: done)

/-- Reads the code point after `x`, `u` or `U`: the given number of digits, or digits in braces. -/
def readHexEscape (flags : Flags) (count : Nat) (source : List Char) :
    Option (Escaped × List Char) :=
  match flags.skip source with
  | '\x7b' :: rest => do
    let (digits, rest) ← readBraced flags (rest.length + 1) rest []
    if digits.isEmpty || !digits.all isHexDigit then none
    let c ← charOfHex? digits
    some (.char c false, flags.skip rest)
  | source => do
    let (digits, rest) ← readFixedHex flags count source []
    let c ← charOfHex? digits
    some (.char c (count == 2), rest)

/-- Reads the property after `p` or `P`: one letter, or a text in braces. -/
def readProperty (flags : Flags) (negated : Bool) (source : List Char) :
    Option (Escaped × List Char) := do
  let (set, rest) ←
    match flags.skip source with
    | '\x7b' :: rest => do
      let (text, rest) ← readBraced flags (rest.length + 1) rest []
      let set ← CharSet.ofPropertyText? text
      some (set, rest)
    | '\\' :: _ => none
    | c :: rest => do
      let set ← CharSet.categories? (CharSet.normalName [c])
      some (set, flags.skip rest)
    | [] => none
  if !flags.unicode then none
  let set := flags.fold set
  some (.set (if negated then .complement set else set), rest)

/-- The class of digits, white space or word characters. -/
def shorthandClass? (flags : Flags) (letter : Char) : Option CharSet :=
  match letter, flags.unicode with
  | 'd', true => some (.categories [.decimalNumber])
  | 'd', false => some .asciiDigit
  | 's', true => some .blank
  | 's', false => some .asciiBlank
  | 'w', true => some .word
  | 'w', false => some .asciiWord
  | 'D', true => some (.complement (.categories [.decimalNumber]))
  | 'S', true => some (.complement .blank)
  | 'W', true => some (.complement .word)
  | _, _ => none

/-- The characters that special letters stand for. -/
def controlEscape? : Char → Option Char
  | 'a' => some '\x07'
  | 'f' => some '\x0c'
  | 't' => some '\t'
  | 'n' => some '\n'
  | 'r' => some '\r'
  | 'v' => some '\x0b'
  | _ => none

/-- The word conditions written with a name in braces. -/
def namedBoundary? (unicode : Bool) (name : String) : Option Look :=
  match name with
  | "start" => some (.wordStart unicode)
  | "end" => some (.wordEnd unicode)
  | "start-half" => some (.wordStartHalf unicode)
  | "end-half" => some (.wordEndHalf unicode)
  | _ => none

/-- Reads what may follow `b`: a name in braces selects a special word condition, while braces
that begin otherwise are left for a repetition. -/
def readBoundary (flags : Flags) (source : List Char) : Option (Escaped × List Char) :=
  match source with
  | '\x7b' :: rest =>
    match flags.skip rest with
    | [] => none
    | c :: more =>
      if c.isAlpha || c == '-' then do
        let (name, rest) ← readBraced flags (more.length + 2) (c :: more) []
        let condition ← namedBoundary? flags.unicode (String.ofList name)
        some (.look condition, rest)
      else some (.look (.wordBoundary flags.unicode), source)
  | _ => some (.look (.wordBoundary flags.unicode), source)

/-- Reads what follows a backslash. Any ASCII character but a letter, a digit and the angle
brackets stands for itself. -/
def readEscape (flags : Flags) (source : List Char) : Option (Escaped × List Char) :=
  match source with
  | [] => none
  | 'x' :: rest => readHexEscape flags 2 rest
  | 'u' :: rest => readHexEscape flags 4 rest
  | 'U' :: rest => readHexEscape flags 8 rest
  | 'p' :: rest => readProperty flags false rest
  | 'P' :: rest => readProperty flags true rest
  | 'A' :: rest => some (.look .textStart, rest)
  | 'z' :: rest => some (.look .textEnd, rest)
  | 'b' :: rest => readBoundary flags rest
  | 'B' :: rest => some (.look (.noWordBoundary flags.unicode), rest)
  | '<' :: rest => some (.look (.wordStart flags.unicode), rest)
  | '>' :: rest => some (.look (.wordEnd flags.unicode), rest)
  | c :: rest =>
    match shorthandClass? flags c with
    | some set => some (.set set, rest)
    | none =>
      match controlEscape? c with
      | some c => some (.char c false, rest)
      | none =>
        if c.toNat < 0x80 && !c.isAlphanum then some (.char c false, rest) else none

end ClauseMatch.RegexSyntax
