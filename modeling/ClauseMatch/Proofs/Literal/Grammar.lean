import ClauseMatch.Literal.Parser

/-!
# The grammar of bitstring literals

Every relation below has the form `R source meaning rest`: the text `source` begins with a phrase
that denotes `meaning`, and `rest` is what follows the phrase. The relations say nothing about how
a phrase is found. Blanks are any run of white space; the lexemes that have no closing sign of
their own, which are numbers and names, are longest runs.
-/

namespace ClauseMatch.Literal

/-! ## Lexemes -/

/-- Only white space stands between `source` and `rest`. -/
def Blanks (source rest : List Char) : Prop :=
  ∃ run, (∀ c ∈ run, isBlank c = true) ∧ source = run ++ rest

/-- The longest run of characters of a class at the head of `source` is `run`. -/
structure LongestRun (p : Char → Bool) (source run rest : List Char) : Prop where
  split : source = run ++ rest
  within : ∀ c ∈ run, p c = true
  ends : ∀ c ∈ rest.head?, p c = false

/-- An optional minus sign. -/
def signChars : Bool → List Char
  | true => ['-']
  | false => []

/-- The integer with the given sign and magnitude. -/
def signedInt (negative : Bool) (magnitude : Nat) : Int :=
  if negative then -(magnitude : Int) else magnitude

/-- The first character of a number is its minus sign or a digit. -/
def BeginsNumber (negative : Bool) (source : List Char) : Prop :=
  negative = true ∨ ∃ c ∈ source.head?, c.isDigit = true

/-- Integers in decimal and in hexadecimal notation. Among the digits of either there may be
underscores, which mean nothing. -/
inductive IntegerAt : List Char → Int64 → List Char → Prop where
  | decimal {negative : Bool} {source run rest : List Char} {n : Int64} :
      BeginsNumber negative source →
      LongestRun isDigitOrGap source run rest →
      withoutGaps run ≠ [] →
      n.toInt = signedInt negative (natOfDigits 10 (withoutGaps run)) →
      IntegerAt (signChars negative ++ source) n rest
  | hexadecimal {negative : Bool} {source run rest : List Char} {n : Int64} :
      LongestRun isHexDigitOrGap source run rest →
      withoutGaps run ≠ [] →
      natOfDigits 16 (withoutGaps run) ≤ 0x7fffffffffffffff →
      n.toInt = signedInt negative (natOfDigits 16 (withoutGaps run)) →
      IntegerAt (signChars negative ++ '0' :: 'x' :: source) n rest

/-- A fraction, if there is one: a point, a digit, and further digits and underscores. -/
inductive FractionAt : List Char → Option (List Char) → List Char → Prop where
  | absent {source : List Char} : FractionAt source none source
  | present {c : Char} {source run rest : List Char} :
      c.isDigit = true →
      LongestRun isDigitOrGap (c :: source) run rest →
      FractionAt ('.' :: c :: source) (some run) rest

/-- The sign of an exponent, if there is one; it is negative after a minus sign. -/
inductive ExponentSignAt : List Char → Bool → List Char → Prop where
  | absent {source : List Char} : ExponentSignAt source false source
  | plus {source : List Char} : ExponentSignAt ('+' :: source) false source
  | minus {source : List Char} : ExponentSignAt ('-' :: source) true source

/-- An exponent, if there is one: a letter, an optional sign, and digits. It denotes its sign and
its digits. -/
inductive ExponentAt : List Char → Option (Bool × List Char) → List Char → Prop where
  | absent {source : List Char} : ExponentAt source none source
  | present {marker : Char} {negative : Bool} {source digits more rest : List Char} :
      marker = 'e' ∨ marker = 'E' →
      ExponentSignAt source negative digits →
      LongestRun Char.isDigit digits more rest →
      ExponentAt (marker :: source) (some (negative, more)) rest

/-- Doubles: numbers with a fraction or an exponent that, without their underscores, are complete
decimal numerals. -/
inductive FloatAt : List Char → Binary64 → List Char → Prop where
  | intro {negative : Bool} {source whole point power rest : List Char}
      {fraction : Option (List Char)} {exponent : Option (Bool × List Char)} {x : Binary64} :
      BeginsNumber negative source →
      LongestRun isDigitOrGap source whole point →
      FractionAt point fraction power →
      ExponentAt power exponent rest →
      fraction.isSome ∨ exponent.isSome →
      DecimalNumeral.toBinary64?
        ⟨negative, withoutGaps whole, withoutGaps (fraction.getD []), exponent⟩ = some x →
      FloatAt (signChars negative ++ source) x rest

/-- What a character means after a backslash. -/
inductive Escape : Char → Char → Prop where
  | lineFeed : Escape 'n' '\n'
  | tab : Escape 't' '\t'
  | carriageReturn : Escape 'r' '\r'
  | null : Escape '0' '\x00'
  | itself {c : Char} : c ∉ ['n', 't', 'r', '0'] → Escape c c

/-- A quoted text after its opening quote, up to and including the closing one. -/
inductive TextAt : List Char → List Char → List Char → Prop where
  | close {rest : List Char} : TextAt ('"' :: rest) [] rest
  | escape {c d : Char} {source text rest : List Char} :
      Escape c d → TextAt source text rest → TextAt ('\\' :: c :: source) (d :: text) rest
  | plain {c : Char} {source text rest : List Char} :
      c ≠ '"' → c ≠ '\\' → TextAt source text rest → TextAt (c :: source) (c :: text) rest

/-! ## Options -/

/-- Digits that spell a number of 32 bits. -/
structure Counts (digits : List Char) (n : UInt32) : Prop where
  nonempty : digits ≠ []
  isDigit : ∀ c ∈ digits, c.isDigit = true
  value : n.toNat = natOfDigits 10 digits

/-- The argument of an option after its opening parenthesis, up to and including the closing one.
Inside the parentheses blanks may stand around the number. -/
inductive ArgumentAt : List Char → UInt32 → List Char → Prop where
  | intro {source start digits stop rest : List Char} {n : UInt32} :
      Blanks source start →
      LongestRun Char.isDigit start digits stop →
      Counts digits n →
      Blanks stop (')' :: rest) →
      ArgumentAt source n rest

/-- One option: a type, a modifier without an argument, a size given by a bare number, or a size
or a unit with an argument. -/
inductive OptionAt : List Char → SegmentOption → List Char → Prop where
  | type {t : TypeName} {source rest : List Char} :
      LongestRun isNameChar source t.text.toList rest →
      OptionAt source (.type t) rest
  | plain {m : Modifier} {source rest : List Char} :
      m ∈ [.signed, .unsigned, .native, .big, .little] →
      LongestRun isNameChar source m.text.toList rest →
      OptionAt source (.modifier m) rest
  | bare {n : UInt32} {source digits rest : List Char} :
      LongestRun isNameChar source digits rest →
      Counts digits n →
      OptionAt source (.modifier (.size n)) rest
  | size {n : UInt32} {source rest : List Char} :
      ArgumentAt source n rest →
      OptionAt ("size".toList ++ '(' :: source) (.modifier (.size n)) rest
  | unit {n : UInt32} {source rest : List Char} :
      ArgumentAt source n rest →
      OptionAt ("unit".toList ++ '(' :: source) (.modifier (.unit n)) rest

/-- Options separated by dashes; there is at least one. -/
inductive OptionsAt : List Char → List SegmentOption → List Char → Prop where
  | last {o : SegmentOption} {source rest : List Char} :
      OptionAt source o rest → OptionsAt source [o] rest
  | cons {o : SegmentOption} {os : List SegmentOption} {source stop more next rest : List Char} :
      OptionAt source o stop →
      Blanks stop ('-' :: more) →
      Blanks more next →
      OptionsAt next os rest →
      OptionsAt source (o :: os) rest

/-- What follows a segment's value: nothing, or two colons and options. -/
inductive TailAt : List Char → List SegmentOption → List Char → Prop where
  | absent {source : List Char} : TailAt source [] source
  | present {os : List SegmentOption} {source more next rest : List Char} :
      Blanks source (':' :: ':' :: more) →
      Blanks more next →
      OptionsAt next os rest →
      TailAt source os rest

/-- The type that an option declares. -/
def SegmentOption.type? : SegmentOption → Option TypeName
  | .type t => some t
  | .modifier _ => none

/-- The modifier that an option appends. -/
def SegmentOption.modifier? : SegmentOption → Option Modifier
  | .type _ => none
  | .modifier m => some m

/-! ## The meaning of a segment -/

/-- The segment that a value is under a declared type, or under none. -/
inductive Typed : Option TypeName → RawValue → Segment → Prop where
  | untypedInteger (n : Int64) : Typed none (.integer n) (.integer n)
  | untypedFloat (x : Binary64) : Typed none (.float x) (.float x)
  | untypedText (s : String) : Typed none (.text s) (.binary s)
  | untypedBits (values : List Int64) : Typed none (.bits values) (.bitstring (.ofValues values))
  | integer (n : Int64) : Typed (some .integer) (.integer n) (.integer n)
  | float (x : Binary64) : Typed (some .float) (.float x) (.float x)
  | floatOfInteger (n : Int64) : Typed (some .float) (.integer n) (.float (.ofInt n.toInt))
  | bitstring (values : List Int64) :
      Typed (some .bitstring) (.bits values) (.bitstring (.ofValues values))
  | bits (values : List Int64) : Typed (some .bits) (.bits values) (.bitstring (.ofValues values))
  | binary (s : String) : Typed (some .binary) (.text s) (.binary s)
  | bytes (s : String) : Typed (some .bytes) (.text s) (.binary s)
  | utf8 (s : String) : Typed (some .utf8) (.text s) (.utf8 s)
  | utf16 (s : String) : Typed (some .utf16) (.text s) (.utf16 s)
  | utf32 (s : String) : Typed (some .utf32) (.text s) (.utf32 s)
  | utf8OfCode {n : Int64} {c : Char} :
      n.toInt = c.toNat → Typed (some .utf8) (.integer n) (.utf8 (String.singleton c))
  | utf16OfCode {n : Int64} {c : Char} :
      n.toInt = c.toNat → Typed (some .utf16) (.integer n) (.utf16 (String.singleton c))
  | utf32OfCode {n : Int64} {c : Char} :
      n.toInt = c.toNat → Typed (some .utf32) (.integer n) (.utf32 (String.singleton c))

/-! ## Segments and literals -/

mutual

/-- A literal, which begins at its opening brackets. -/
inductive LiteralAt : List Char → List Segment → List Char → Prop where
  | empty {source rest : List Char} :
      Blanks source ('>' :: '>' :: rest) → LiteralAt ('<' :: '<' :: source) [] rest
  | segments {segments : List Segment} {source start stop rest : List Char} :
      Blanks source start →
      SegmentsAt start segments stop →
      Blanks stop ('>' :: '>' :: rest) →
      LiteralAt ('<' :: '<' :: source) segments rest

/-- Segments separated by commas; there is at least one. -/
inductive SegmentsAt : List Char → List Segment → List Char → Prop where
  | last {s : Segment} {source rest : List Char} :
      SegmentAt source s rest → SegmentsAt source [s] rest
  | cons {s : Segment} {segments : List Segment} {source stop more next rest : List Char} :
      SegmentAt source s stop →
      Blanks stop (',' :: more) →
      Blanks more next →
      SegmentsAt next segments rest →
      SegmentsAt source (s :: segments) rest

/-- A value with its options, of which at most one is a type. The modifiers among them are appended
to the segment in the order written. -/
inductive SegmentAt : List Char → Segment → List Char → Prop where
  | intro {value : RawValue} {options : List SegmentOption} {type : Option TypeName} {s : Segment}
      {source stop rest : List Char} :
      ValueAt source value stop →
      TailAt stop options rest →
      options.filterMap SegmentOption.type? = type.toList →
      Typed type value s →
      SegmentAt source ((options.filterMap SegmentOption.modifier?).foldl Segment.withModifier s)
        rest

/-- A number, a quoted text, or a literal, which denotes the elements that it encodes to. -/
inductive ValueAt : List Char → RawValue → List Char → Prop where
  | integer {n : Int64} {source rest : List Char} :
      IntegerAt source n rest → ValueAt source (.integer n) rest
  | float {x : Binary64} {source rest : List Char} :
      FloatAt source x rest → ValueAt source (.float x) rest
  | text {text source rest : List Char} :
      TextAt source text rest → ValueAt ('"' :: source) (.text (String.ofList text)) rest
  | literal {segments : List Segment} {bits : Bitstring} {source rest : List Char} :
      LiteralAt source segments rest →
      Bitstring.ofSegments segments = .ok bits →
      ValueAt source (.bits bits.values) rest

end

/-- A text that is one literal, up to blanks around it. -/
inductive Denotes : List Char → List Segment → Prop where
  | intro {segments : List Segment} {source start stop : List Char} :
      Blanks source start →
      LiteralAt start segments stop →
      Blanks stop [] →
      Denotes source segments

end ClauseMatch.Literal
