import ClauseMatch.Numeric.Shortest
import ClauseMatch.Text.Quoted

/-!
# Segments and bitstrings

A segment describes one piece of binary data before it is encoded: a value, the size and unit
recorded for it, and the modifiers appended to it. A bitstring keeps the segments it was built
from together with the flat sequence of integers they encode to.
-/

namespace ClauseMatch

/-- An instruction attached to a segment. -/
inductive Modifier where
  | signed
  | unsigned
  | native
  | big
  | little
  | size (bits : UInt32)
  | unit (factor : UInt32)
deriving DecidableEq, Inhabited

/-- The base conversion that a segment's value selects. -/
inductive SegmentKind where
  | integer
  | float
  | bitstring
  | binary
  | utf8
  | utf16
  | utf32
deriving DecidableEq, Inhabited

mutual

/-- What a segment encodes. The text forms share a payload and differ in their conversion. -/
inductive SegmentValue where
  | integer (n : Int64)
  | float (x : Binary64)
  | bitstring (bits : Bitstring)
  | binary (text : String)
  | utf8 (text : String)
  | utf16 (text : String)
  | utf32 (text : String)

/-- One described unit of binary data. -/
structure Segment where
  value : SegmentValue
  recordedSize : Option UInt32
  recordedUnit : Option UInt32
  modifiers : List Modifier

/-- Segments in declaration order with the sequence they encode to. -/
structure Bitstring where
  segments : List Segment
  values : List Int64

end

namespace Modifier

/-- The modifier as written after a segment's type. -/
def text : Modifier → String
  | signed => "signed"
  | unsigned => "unsigned"
  | native => "native"
  | big => "big"
  | little => "little"
  | size bits => "size(" ++ toString bits.toNat ++ ")"
  | unit factor => "unit(" ++ toString factor.toNat ++ ")"

end Modifier

namespace SegmentKind

/-- The type name of the kind. -/
def text : SegmentKind → String
  | integer => "integer"
  | float => "float"
  | bitstring => "bitstring"
  | binary => "binary"
  | utf8 => "utf8"
  | utf16 => "utf16"
  | utf32 => "utf32"

end SegmentKind

/-- The kind of a segment value. -/
def SegmentValue.kind : SegmentValue → SegmentKind
  | .integer _ => .integer
  | .float _ => .float
  | .bitstring _ => .bitstring
  | .binary _ => .binary
  | .utf8 _ => .utf8
  | .utf16 _ => .utf16
  | .utf32 _ => .utf32

/-- A length as a recorded size, capped at the largest size. -/
def sizeOfLength (length : Nat) : UInt32 := UInt32.ofNat (min length (UInt32.size - 1))

namespace Segment

/-- An integer of eight one-bit units. -/
def integer (n : Int64) : Segment := ⟨.integer n, some 8, some 1, []⟩

/-- A double of sixty-four one-bit units. -/
def float (x : Binary64) : Segment := ⟨.float x, some 64, some 1, []⟩

/-- A nested bitstring, sized by its number of elements. -/
def bitstring (bits : Bitstring) : Segment :=
  ⟨.bitstring bits, some (sizeOfLength bits.values.length), some 1, []⟩

/-- A text in bytes, sized by its number of characters. -/
def binary (text : String) : Segment :=
  ⟨.binary text, some (sizeOfLength text.length), some 8, []⟩

/-- A text in UTF-8, without a recorded size. -/
def utf8 (text : String) : Segment := ⟨.utf8 text, none, none, []⟩

/-- A text in UTF-16, without a recorded size. -/
def utf16 (text : String) : Segment := ⟨.utf16 text, none, none, []⟩

/-- A text in UTF-32, without a recorded size. -/
def utf32 (text : String) : Segment := ⟨.utf32 text, none, none, []⟩

/-- Appends a modifier. Sizes and units are recorded on the segment as well. -/
def withModifier (s : Segment) (m : Modifier) : Segment :=
  match m with
  | .size bits => { s with recordedSize := some bits, modifiers := s.modifiers ++ [m] }
  | .unit factor => { s with recordedUnit := some factor, modifiers := s.modifiers ++ [m] }
  | _ => { s with modifiers := s.modifiers ++ [m] }

/-- Sets the size, which is appended as a modifier as well. -/
def size (s : Segment) (bits : UInt32) : Segment :=
  { s with recordedSize := some bits, modifiers := s.modifiers ++ [.size bits] }

/-- Sets the unit, which is appended as a modifier as well. -/
def unit (s : Segment) (factor : UInt32) : Segment :=
  { s with recordedUnit := some factor, modifiers := s.modifiers ++ [.unit factor] }

/-- Appends `signed`. -/
def signed (s : Segment) : Segment := s.withModifier .signed

/-- Appends `unsigned`. -/
def unsigned (s : Segment) : Segment := s.withModifier .unsigned

/-- Appends `native`. -/
def native (s : Segment) : Segment := s.withModifier .native

/-- Appends `big`. -/
def big (s : Segment) : Segment := s.withModifier .big

/-- Appends `little`. -/
def little (s : Segment) : Segment := s.withModifier .little

/-- The size recorded after some modifiers: the last one among them, if any. -/
def sizeAfter (ms : List Modifier) (before : Option UInt32) : Option UInt32 :=
  ms.foldl (fun size m => match m with | .size bits => some bits | _ => size) before

/-- The unit recorded after some modifiers: the last one among them, if any. -/
def unitAfter (ms : List Modifier) (before : Option UInt32) : Option UInt32 :=
  ms.foldl (fun unit m => match m with | .unit factor => some factor | _ => unit) before

/-- Appends modifiers from left to right. -/
def withModifiers (s : Segment) (ms : List Modifier) : Segment where
  value := s.value
  recordedSize := sizeAfter ms s.recordedSize
  recordedUnit := unitAfter ms s.recordedUnit
  modifiers := s.modifiers ++ ms

@[simp]
theorem withModifiers_nil (s : Segment) : s.withModifiers [] = s := by
  cases s
  simp [withModifiers, sizeAfter, unitAfter]

@[simp]
theorem withModifiers_cons (s : Segment) (m : Modifier) (ms : List Modifier) :
    s.withModifiers (m :: ms) = (s.withModifier m).withModifiers ms := by
  cases m <;> simp [withModifiers, withModifier, sizeAfter, unitAfter]

/-- Appending a list of modifiers is appending them one after the other. -/
theorem withModifiers_eq_foldl (s : Segment) (ms : List Modifier) :
    s.withModifiers ms = ms.foldl withModifier s := by
  induction ms generalizing s with
  | nil => simp
  | cons m ms ih => simp [ih]

/-- The kind of a segment. -/
def kind (s : Segment) : SegmentKind := s.value.kind

/-- Whether a modifier has been appended. -/
def hasModifier (s : Segment) (m : Modifier) : Bool := s.modifiers.contains m

end Segment

/-- Integers between double angle brackets, separated by commas. -/
def sequenceText (values : List Int64) : String :=
  "<<" ++ ", ".intercalate (values.map fun v => toString v.toInt) ++ ">>"

/-- A bitstring is shown by its encoded sequence. -/
def Bitstring.text (bits : Bitstring) : String := sequenceText bits.values

/-- The literal form of a segment value. -/
def SegmentValue.text : SegmentValue → String
  | .integer n => toString n.toInt
  | .float x => x.text
  | .bitstring bits => bits.text
  | .binary text => quoted text
  | .utf8 text => quoted text
  | .utf16 text => quoted text
  | .utf32 text => quoted text

/-- The literal form of a segment: its value, its type, and its modifiers in order. -/
def Segment.text (s : Segment) : String :=
  s.value.text ++ "::" ++ s.kind.text ++ String.join (s.modifiers.map fun m => "-" ++ m.text)

end ClauseMatch
