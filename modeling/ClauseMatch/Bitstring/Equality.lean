import ClauseMatch.Bitstring.Encoding

/-!
# Equality of segments

Segments are equal if they have equal values, the same recorded size and unit, and the same
modifiers in the same order. Values of different kinds are never equal; doubles are compared as
numbers, so that NaN is not equal to itself, and nested bitstrings by what they encode to.
-/

namespace ClauseMatch

/-- Equality of segment values. -/
def SegmentValue.equals : SegmentValue → SegmentValue → Bool
  | .integer m, .integer n => m == n
  | .float x, .float y => x.numericEq y
  | .bitstring a, .bitstring b => a == b
  | .binary a, .binary b => a == b
  | .utf8 a, .utf8 b => a == b
  | .utf16 a, .utf16 b => a == b
  | .utf32 a, .utf32 b => a == b
  | _, _ => false

instance : BEq SegmentValue := ⟨SegmentValue.equals⟩

/-- Equality of segments, part by part. -/
def Segment.equals (s t : Segment) : Bool :=
  s.value == t.value && s.recordedSize == t.recordedSize && s.recordedUnit == t.recordedUnit &&
    s.modifiers == t.modifiers

instance : BEq Segment := ⟨Segment.equals⟩

end ClauseMatch
