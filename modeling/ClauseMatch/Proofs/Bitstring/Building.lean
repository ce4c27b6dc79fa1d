import ClauseMatch.Bitstring.Equality

/-!
# Building segments

A segment is built by the constructor of its kind and by appending modifiers. Everything else that
it records follows from its value and its modifiers, and so two segments that were built with equal
values and the same modifiers are equal.
-/

namespace ClauseMatch

/-- The segment of a value before any modifier is appended. -/
def SegmentValue.plain : SegmentValue → Segment
  | .integer n => .integer n
  | .float x => .float x
  | .bitstring bits => .bitstring bits
  | .binary text => .binary text
  | .utf8 text => .utf8 text
  | .utf16 text => .utf16 text
  | .utf32 text => .utf32 text

@[simp]
theorem SegmentValue.value_plain (v : SegmentValue) : v.plain.value = v := by
  cases v <;> rfl

@[simp]
theorem SegmentValue.modifiers_plain (v : SegmentValue) : v.plain.modifiers = [] := by
  cases v <;> rfl

namespace Segment

/-- The segments that can be built. -/
inductive Built : Segment → Prop where
  | integer (n : Int64) : Built (.integer n)
  | float (x : Binary64) : Built (.float x)
  | bitstring (bits : Bitstring) : Built (.bitstring bits)
  | binary (text : String) : Built (.binary text)
  | utf8 (text : String) : Built (.utf8 text)
  | utf16 (text : String) : Built (.utf16 text)
  | utf32 (text : String) : Built (.utf32 text)
  | withModifier {s : Segment} (m : Modifier) : Built s → Built (s.withModifier m)

@[simp]
theorem value_withModifier (s : Segment) (m : Modifier) : (s.withModifier m).value = s.value := by
  cases m <;> rfl

@[simp]
theorem modifiers_withModifier (s : Segment) (m : Modifier) :
    (s.withModifier m).modifiers = s.modifiers ++ [m] := by
  cases m <;> rfl

theorem withModifiers_append (s : Segment) (ms : List Modifier) (m : Modifier) :
    s.withModifiers (ms ++ [m]) = (s.withModifiers ms).withModifier m := by
  rw [withModifiers_eq_foldl, withModifiers_eq_foldl, List.foldl_append]
  rfl

/-- What a segment that was built records is determined by its value and its modifiers. -/
theorem Built.eq_withModifiers {s : Segment} (h : Built s) :
    s = s.value.plain.withModifiers s.modifiers := by
  induction h with
  | withModifier m _ ih =>
    rw [value_withModifier, modifiers_withModifier, withModifiers_append, ← ih]
  | _ => exact (withModifiers_nil _).symm

/-! ## Equality -/

theorem value_beq_of_beq {s t : Segment} (h : (s == t) = true) : (s.value == t.value) = true := by
  have hparts : (s.value == t.value && s.recordedSize == t.recordedSize &&
      s.recordedUnit == t.recordedUnit && s.modifiers == t.modifiers) = true := h
  simp only [Bool.and_eq_true] at hparts
  exact hparts.1.1.1

/-- Values that are equal record the same size and the same unit. -/
theorem plain_records_eq {v w : SegmentValue} (h : (v == w) = true) :
    v.plain.recordedSize = w.plain.recordedSize ∧ v.plain.recordedUnit = w.plain.recordedUnit := by
  have hequals : v.equals w = true := h
  cases v <;> cases w <;> simp only [SegmentValue.equals, Bool.false_eq_true] at hequals
  case bitstring a b =>
    have hvalues : a.values = b.values := beq_iff_eq.mp hequals
    exact ⟨by simp only [SegmentValue.plain, bitstring, hvalues], rfl⟩
  case binary a b =>
    obtain rfl : a = b := beq_iff_eq.mp hequals
    exact ⟨rfl, rfl⟩
  all_goals exact ⟨rfl, rfl⟩

theorem withModifiers_beq {v w : SegmentValue} (h : (v == w) = true) (ms : List Modifier) :
    (v.plain.withModifiers ms == w.plain.withModifiers ms) = true := by
  obtain ⟨hsize, hunit⟩ := plain_records_eq h
  change equals _ _ = true
  simp only [equals, withModifiers, hsize, hunit, SegmentValue.value_plain,
    SegmentValue.modifiers_plain, h, beq_self_eq_true, Bool.and_self]

end Segment

end ClauseMatch
