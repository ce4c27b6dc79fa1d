import ClauseMatch.Literal.Option

/-!
# From spelled values to segments

A value as a source spells it, and the segment it becomes under a declared type. Without a type an
integer, a float, a text and a nested literal become an integer, a float, a binary and a bitstring
segment.
-/

namespace ClauseMatch.Literal

/-- A segment value before its type is applied. Of a nested literal only the encoded elements are
kept. -/
inductive RawValue where
  | integer (n : Int64)
  | float (x : Binary64)
  | text (s : String)
  | bits (values : List Int64)

/-- The kind of a spelled value. -/
def RawValue.kind : RawValue → ValueKind
  | integer _ => .integer
  | float _ => .float
  | text _ => .string
  | bits _ => .bits

/-- The character with the given code point, if there is one. -/
def charOfCodePoint? (code : Int64) : Option Char :=
  let n := code.toInt
  if 0 ≤ n ∧ n.toNat.isValidChar then some (Char.ofNat n.toNat) else none

/-- The text of the one character with the given code point. -/
def textOfCodePoint (code : Int64) : Except Fault String :=
  match charOfCodePoint? code with
  | some c => .ok (String.singleton c)
  | none => .error (.invalidCodePoint code)

/-- The segment of a value without a declared type. -/
def untypedSegment : RawValue → Segment
  | .integer n => .integer n
  | .float x => .float x
  | .text s => .binary s
  | .bits values => .bitstring (.ofValues values)

/-- The segment of a value under a declared type. An integer under a Unicode type is a code
point, and one under `float` is rounded to the nearest double. -/
def typedSegment (type : TypeName) (value : RawValue) : Except Fault Segment :=
  match type, value with
  | .integer, .integer n => .ok (.integer n)
  | .float, .integer n => .ok (.float (.ofInt n.toInt))
  | .float, .float x => .ok (.float x)
  | .bitstring, .bits values => .ok (.bitstring (.ofValues values))
  | .bits, .bits values => .ok (.bitstring (.ofValues values))
  | .binary, .text s => .ok (.binary s)
  | .bytes, .text s => .ok (.binary s)
  | .utf8, .text s => .ok (.utf8 s)
  | .utf16, .text s => .ok (.utf16 s)
  | .utf32, .text s => .ok (.utf32 s)
  | .utf8, .integer code => (textOfCodePoint code).map .utf8
  | .utf16, .integer code => (textOfCodePoint code).map .utf16
  | .utf32, .integer code => (textOfCodePoint code).map .utf32
  | type, value => .error (.typeMismatch value.kind type)

/-- The segment of a value with its options. -/
def segmentOf (value : RawValue) (options : Options) : Except Fault Segment :=
  match options.type with
  | none => .ok ((untypedSegment value).withModifiers options.modifiers)
  | some type => (typedSegment type value).map fun s => s.withModifiers options.modifiers

end ClauseMatch.Literal
