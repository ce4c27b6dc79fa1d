import ClauseMatch.Bitstring.Basic

/-!
# Encoding segments

A segment is encoded by the conversion that its value selects, followed by its modifiers in the
order in which they were appended. A bitstring is encoded segment by segment; the first segment
that cannot be encoded decides the error. Four ways to build a bitstring are given: by encoding
segments, empty, from bytes, and from values.
-/

namespace ClauseMatch

/-- Why a bitstring cannot be encoded, or cannot be read as bytes. -/
inductive EncodeError where
  | invalidFloatSize (size : UInt32)
  | notAByte (index : Nat) (value : Int64)
deriving DecidableEq, Inhabited

/-- The wording of an encoding error. -/
def EncodeError.message : EncodeError → String
  | invalidFloatSize size =>
    "invalid size for float: " ++ toString size.toNat ++ " (expected 32 or 64)"
  | notAByte index value =>
    "element " ++ toString index ++ " is not a byte: " ++ toString value.toInt

/-- Natural numbers as encoded elements. -/
def elements (ns : List Nat) : List Int64 := ns.map Int64.ofNat

/-- The bytes of a text in UTF-8. -/
def utf8Bytes (text : String) : List Nat :=
  text.toList.flatMap fun c => (String.utf8EncodeChar c).map UInt8.toNat

/-- The 16-bit slots of a character: the low half of its code point, and for a character above
U+FFFF its trailing surrogate as well. -/
def codeUnitSlots (c : Char) : List Nat :=
  let n := c.toNat
  if n ≤ 0xFFFF then [n] else [n % 0x10000, 0xDC00 + (n - 0x10000) % 0x400]

/-- The bytes of a text in two-byte slots, high byte first. -/
def utf16Bytes (text : String) : List Nat :=
  (text.toList.flatMap codeUnitSlots).flatMap fun slot => [slot / 256, slot % 256]

/-- The bytes of a text in four-byte slots, whose two high bytes are zero. -/
def utf32Bytes (text : String) : List Nat :=
  (text.toList.flatMap codeUnitSlots).flatMap fun slot => [0, 0, slot / 256, slot % 256]

/-- The bytes of a double in a float segment of the given size. -/
def floatBytes (x : Binary64) (size : UInt32) : Except EncodeError (List Nat) :=
  if size = 64 then .ok x.bytes
  else if size = 32 then .ok x.narrowBytes
  else .error (.invalidFloatSize size)

namespace Segment

/-- The elements of a segment before its modifiers are applied. -/
def converted (s : Segment) : Except EncodeError (List Int64) :=
  match s.value with
  | .integer n => .ok [n]
  | .float x => (floatBytes x (s.recordedSize.getD 0)).map elements
  | .bitstring bits => .ok bits.values
  | .binary text => .ok (elements (utf8Bytes text))
  | .utf8 text => .ok (elements (utf8Bytes text))
  | .utf16 text => .ok (elements (utf16Bytes text))
  | .utf32 text => .ok (elements (utf32Bytes text))

end Segment

/-- The low eight bits of an element. -/
def lowByte (n : Int64) : Int64 := Int64.ofInt (n.toInt % 256)

/-- What a modifier does to encoded elements: `little` reverses them, `signed` keeps the low byte
of each, and the others leave them alone. -/
def Modifier.apply (values : List Int64) : Modifier → List Int64
  | .little => values.reverse
  | .signed => values.map lowByte
  | _ => values

/-- The elements that a segment encodes to. -/
def Segment.encode (s : Segment) : Except EncodeError (List Int64) :=
  s.converted.map fun values => s.modifiers.foldl Modifier.apply values

/-- The elements of several segments, a list for each; the first that fails decides the error. -/
def encodeSegments (segments : List Segment) : Except EncodeError (List (List Int64)) :=
  segments.mapM Segment.encode

namespace Bitstring

/-- Encodes segments in declaration order. -/
def ofSegments (segments : List Segment) : Except EncodeError Bitstring :=
  (encodeSegments segments).map fun parts => ⟨segments, parts.flatten⟩

/-- The bitstring without segments. -/
def empty : Bitstring := ⟨[], []⟩

/-- One plain integer segment per value; encodes to exactly these values. -/
def ofValues (values : List Int64) : Bitstring := ⟨values.map Segment.integer, values⟩

/-- One plain integer segment per byte. -/
def ofBytes (bytes : List UInt8) : Bitstring := ofValues (elements (bytes.map UInt8.toNat))

/-- The number of encoded elements. -/
def length (b : Bitstring) : Nat := b.values.length

/-- Bitstrings are equal if they encode to the same elements, whatever their segments. -/
instance : BEq Bitstring := ⟨fun a b => a.values == b.values⟩

/-- Reads elements as bytes, counting positions from `index`. -/
def bytesFrom (index : Nat) : List Int64 → List UInt8 → Except EncodeError (List UInt8)
  | [], done => .ok done.reverse
  | value :: rest, done =>
    if 0 ≤ value.toInt ∧ value.toInt < 256 then
      bytesFrom (index + 1) rest (UInt8.ofNat value.toInt.toNat :: done)
    else .error (.notAByte index value)

/-- The encoded elements as bytes. The first element outside `0` to `255` decides the error. -/
def toBytes (b : Bitstring) : Except EncodeError (List UInt8) := bytesFrom 0 b.values []

end Bitstring

end ClauseMatch
