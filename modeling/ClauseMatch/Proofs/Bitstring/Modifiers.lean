import ClauseMatch.Proofs.Bitstring.Building
import ClauseMatch.Proofs.Bitstring.Composition

/-!
# The order of modifiers

Modifiers are applied one after the other, but little depends on their order. Keeping the low byte
of every element is idempotent, reversing the elements is an involution, and the two commute, so
that it only matters whether `signed` occurs and whether `little` occurs an odd number of times. All
other modifiers leave the elements alone. Of the sizes and the units the last one is recorded, and
the recorded size matters to doubles alone.
-/

namespace ClauseMatch

/-! ## The low byte -/

theorem toInt_lowByte (v : Int64) : (lowByte v).toInt = v.toInt % 256 := by
  have hlow : 0 ≤ v.toInt % 256 := Int.emod_nonneg _ (by decide)
  have hhigh : v.toInt % 256 < 256 := Int.emod_lt_of_pos _ (by decide)
  exact Int64.toInt_ofInt_of_le (by omega) (by omega)

@[simp]
theorem lowByte_lowByte (v : Int64) : lowByte (lowByte v) = lowByte v := by
  rw [lowByte, toInt_lowByte, Int.emod_emod]
  rfl

/-! ## Modifiers applied in a row -/

/-- The low bytes of elements if `signed` is among the modifiers. -/
def masked (ms : List Modifier) (values : List Int64) : List Int64 :=
  if .signed ∈ ms then values.map lowByte else values

/-- What modifiers make of elements: low bytes if `signed` is among them, in reverse order if
`little` is among them an odd number of times. -/
def arranged (ms : List Modifier) (values : List Int64) : List Int64 :=
  if ms.count .little % 2 = 1 then (masked ms values).reverse else masked ms values

@[simp]
theorem length_masked (ms : List Modifier) (values : List Int64) :
    (masked ms values).length = values.length := by
  unfold masked
  split <;> simp

@[simp]
theorem length_arranged (ms : List Modifier) (values : List Int64) :
    (arranged ms values).length = values.length := by
  unfold arranged
  split <;> simp

theorem masked_reverse (ms : List Modifier) (values : List Int64) :
    masked ms values.reverse = (masked ms values).reverse := by
  unfold masked
  split
  · rw [List.map_reverse]
  · rfl

theorem masked_cons_of_ne {m : Modifier} (h : m ≠ .signed) (ms : List Modifier)
    (values : List Int64) : masked (m :: ms) values = masked ms values := by
  have hmem : .signed ∈ m :: ms ↔ .signed ∈ ms := by simp [h.symm]
  simp only [masked, hmem]

theorem masked_map_lowByte (ms : List Modifier) (values : List Int64) :
    masked ms (values.map lowByte) = values.map lowByte := by
  unfold masked
  split
  · simp [Function.comp_def]
  · rfl

theorem arranged_cons_little (ms : List Modifier) (values : List Int64) :
    arranged (.little :: ms) values = arranged ms values.reverse := by
  have hmasked : masked (.little :: ms) values = masked ms values :=
    masked_cons_of_ne (by simp) ms values
  simp only [arranged, List.count_cons_self, hmasked, masked_reverse]
  by_cases hodd : ms.count .little % 2 = 1
  · have heven : ¬ (ms.count .little + 1) % 2 = 1 := by omega
    rw [if_neg heven, if_pos hodd, List.reverse_reverse]
  · have hodd' : (ms.count .little + 1) % 2 = 1 := by omega
    rw [if_pos hodd', if_neg hodd]

theorem arranged_cons_signed (ms : List Modifier) (values : List Int64) :
    arranged (.signed :: ms) values = arranged ms (values.map lowByte) := by
  have hmasked : masked (.signed :: ms) values = values.map lowByte := by simp [masked]
  have hcount : (Modifier.signed :: ms).count .little = ms.count .little :=
    List.count_cons_of_ne (by simp)
  simp only [arranged, hcount, hmasked, masked_map_lowByte]

theorem arranged_cons_of_ne {m : Modifier} (hlittle : m ≠ .little) (hsigned : m ≠ .signed)
    (ms : List Modifier) (values : List Int64) :
    arranged (m :: ms) values = arranged ms values := by
  simp only [arranged, List.count_cons_of_ne hlittle, masked_cons_of_ne hsigned]

/-- Applying modifiers in a row takes no more than knowing whether `signed` occurs and how often
`little` does. -/
theorem foldl_apply_eq_arranged (ms : List Modifier) (values : List Int64) :
    ms.foldl Modifier.apply values = arranged ms values := by
  induction ms generalizing values with
  | nil => simp [arranged, masked]
  | cons m ms ih =>
    rw [List.foldl_cons, ih]
    cases m with
    | little => exact (arranged_cons_little ms values).symm
    | signed => exact (arranged_cons_signed ms values).symm
    | unsigned | native | big | size | unit =>
      exact (arranged_cons_of_ne (by simp) (by simp) ms values).symm

/-! ## Recorded sizes and units -/

/-- The size that a modifier sets. -/
def Modifier.size? : Modifier → Option UInt32
  | .size bits => some bits
  | _ => none

/-- The unit that a modifier sets. -/
def Modifier.unit? : Modifier → Option UInt32
  | .unit factor => some factor
  | _ => none

/-- The last size among modifiers. -/
def lastSize? (ms : List Modifier) : Option UInt32 := (ms.filterMap Modifier.size?).getLast?

/-- The last unit among modifiers. -/
def lastUnit? (ms : List Modifier) : Option UInt32 := (ms.filterMap Modifier.unit?).getLast?

/-- Keeping what the latest modifier sets leaves what the last of them sets. -/
theorem foldl_or_eq {α : Type} (f : Modifier → Option α) (ms : List Modifier)
    (before : Option α) :
    ms.foldl (fun kept m => (f m).or kept) before = (ms.filterMap f).getLast?.or before := by
  induction ms generalizing before with
  | nil => rfl
  | cons m ms ih =>
    rw [List.foldl_cons, ih]
    cases hm : f m with
    | none => simp [hm]
    | some value => cases hlast : (ms.filterMap f).getLast? <;> simp [hm, List.getLast?_cons, hlast]

namespace Segment

theorem sizeAfter_eq (ms : List Modifier) (before : Option UInt32) :
    sizeAfter ms before = (lastSize? ms).or before := by
  rw [lastSize?, ← foldl_or_eq]
  unfold sizeAfter
  congr
  funext size m
  cases m <;> rfl

theorem unitAfter_eq (ms : List Modifier) (before : Option UInt32) :
    unitAfter ms before = (lastUnit? ms).or before := by
  rw [lastUnit?, ← foldl_or_eq]
  unfold unitAfter
  congr
  funext unit m
  cases m <;> rfl

/-! ## Segments under construction -/

/-- A call that appends a modifier: the one that takes any modifier, or a modifier's own. -/
inductive Call where
  | withModifier (m : Modifier)
  | size (bits : UInt32)
  | unit (factor : UInt32)
  | signed
  | unsigned
  | native
  | big
  | little

/-- The modifier that a call appends. -/
def Call.modifier : Call → Modifier
  | .withModifier m => m
  | .size bits => .size bits
  | .unit factor => .unit factor
  | .signed => .signed
  | .unsigned => .unsigned
  | .native => .native
  | .big => .big
  | .little => .little

/-- The segment after a call. -/
def after (s : Segment) : Call → Segment
  | .withModifier m => s.withModifier m
  | .size bits => s.size bits
  | .unit factor => s.unit factor
  | .signed => s.signed
  | .unsigned => s.unsigned
  | .native => s.native
  | .big => s.big
  | .little => s.little

/-- The segment that a value's constructor and the calls after it make. -/
def made (v : SegmentValue) (calls : List Call) : Segment := calls.foldl after v.plain

/-- The modifiers that calls append, in order. -/
def modifiersOf (calls : List Call) : List Modifier := calls.map Call.modifier

theorem after_eq_withModifier (s : Segment) (call : Call) :
    s.after call = s.withModifier call.modifier := by
  cases call <;> rfl

theorem made_eq_withModifiers (v : SegmentValue) (calls : List Call) :
    made v calls = v.plain.withModifiers (modifiersOf calls) := by
  have hafter : after = fun s call => withModifier s call.modifier :=
    funext fun s => funext fun call => after_eq_withModifier s call
  rw [made, hafter, withModifiers_eq_foldl, modifiersOf, List.foldl_map]

@[simp]
theorem value_made (v : SegmentValue) (calls : List Call) : (made v calls).value = v := by
  rw [made_eq_withModifiers, withModifiers, SegmentValue.value_plain]

@[simp]
theorem modifiers_made (v : SegmentValue) (calls : List Call) :
    (made v calls).modifiers = modifiersOf calls := by
  rw [made_eq_withModifiers, withModifiers, SegmentValue.modifiers_plain, List.nil_append]

theorem recordedSize_made (v : SegmentValue) (calls : List Call) :
    (made v calls).recordedSize = (lastSize? (modifiersOf calls)).or v.plain.recordedSize := by
  rw [made_eq_withModifiers, withModifiers, sizeAfter_eq]

theorem recordedUnit_made (v : SegmentValue) (calls : List Call) :
    (made v calls).recordedUnit = (lastUnit? (modifiersOf calls)).or v.plain.recordedUnit := by
  rw [made_eq_withModifiers, withModifiers, unitAfter_eq]

end Segment

/-! ## Encoding -/

/-- The elements of a value at a recorded size, before any modifier. -/
def SegmentValue.conversion (v : SegmentValue) (size : Option UInt32) :
    Except EncodeError (List Int64) :=
  Segment.converted ⟨v, size, none, []⟩

theorem floatBytes_eq_error_iff {x : Binary64} {size : UInt32} {cause : EncodeError} :
    floatBytes x size = .error cause ↔
      size ≠ 32 ∧ size ≠ 64 ∧ cause = .invalidFloatSize size := by
  unfold floatBytes
  split
  · simp_all
  · split
    · simp_all
    · simp_all [eq_comm]

theorem conversion_float_eq_error_iff {x : Binary64} {size : UInt32} {cause : EncodeError} :
    (SegmentValue.float x).conversion (some size) = .error cause ↔
      size ≠ 32 ∧ size ≠ 64 ∧ cause = .invalidFloatSize size := by
  have hconversion : (SegmentValue.float x).conversion (some size) =
      (floatBytes x size).map elements := rfl
  rw [hconversion, map_eq_error_iff, floatBytes_eq_error_iff]

/-- The recorded size does not matter unless the value is a double. -/
theorem conversion_of_kind_ne_float {v : SegmentValue} (h : v.kind ≠ .float) :
    ∃ values, ∀ size, v.conversion size = .ok values := by
  cases v with
  | float x => exact absurd rfl h
  | _ => exact ⟨_, fun _ => rfl⟩

namespace Segment

/-- A segment encodes to its value's elements at the recorded size, arranged by its modifiers. -/
theorem encode_eq (s : Segment) :
    s.encode = (s.value.conversion s.recordedSize).map (arranged s.modifiers) := by
  have hconverted : s.converted = s.value.conversion s.recordedSize := rfl
  have harranged : (fun values => s.modifiers.foldl Modifier.apply values) =
      arranged s.modifiers := funext (foldl_apply_eq_arranged s.modifiers)
  rw [encode, hconverted, harranged]

theorem encode_made (v : SegmentValue) (calls : List Call) :
    (made v calls).encode =
      (v.conversion (made v calls).recordedSize).map (arranged (modifiersOf calls)) := by
  rw [encode_eq, value_made, modifiers_made]

/-- A double is encoded at a recorded size in any case. -/
theorem exists_recordedSize_made_float (x : Binary64) (calls : List Call) :
    ∃ size, (made (.float x) calls).recordedSize = some size := by
  have hdefault : (SegmentValue.float x).plain.recordedSize = some 64 := rfl
  rw [recordedSize_made, hdefault]
  exact ⟨_, Option.or_some⟩

theorem encode_made_eq_error_iff {v : SegmentValue} {calls : List Call} {cause : EncodeError} :
    (made v calls).encode = .error cause ↔
      ∃ x size, v = .float x ∧ (made v calls).recordedSize = some size ∧
        size ≠ 32 ∧ size ≠ 64 ∧ cause = .invalidFloatSize size := by
  rw [encode_made, map_eq_error_iff]
  by_cases hfloat : v.kind = .float
  · obtain ⟨x, rfl⟩ : ∃ x, v = .float x := by
      cases v <;> simp_all [SegmentValue.kind]
    obtain ⟨size, hsize⟩ := exists_recordedSize_made_float x calls
    rw [hsize, conversion_float_eq_error_iff]
    simp
  · obtain ⟨values, hvalues⟩ := conversion_of_kind_ne_float hfloat
    rw [hvalues]
    constructor
    · simp
    · rintro ⟨x, size, rfl, -⟩
      exact absurd rfl hfloat

/-- Two orders of modifiers encode alike if they agree on the last size, on `signed` and on the
parity of `little`. -/
theorem encode_made_congr {v : SegmentValue} {calls calls' : List Call}
    (hsize : lastSize? (modifiersOf calls) = lastSize? (modifiersOf calls'))
    (hsigned : .signed ∈ modifiersOf calls ↔ .signed ∈ modifiersOf calls')
    (hlittle : (modifiersOf calls).count .little % 2 = (modifiersOf calls').count .little % 2) :
    (made v calls).encode = (made v calls').encode := by
  have harranged : arranged (modifiersOf calls) = arranged (modifiersOf calls') := by
    funext values
    simp only [arranged, masked, hsigned, hlittle]
  rw [encode_made, encode_made, recordedSize_made, recordedSize_made, hsize, harranged]

/-- Only the size of a double has a say in how many elements there are. -/
theorem length_encode_made_congr {v : SegmentValue} {calls calls' : List Call}
    (hsize : v.kind = .float →
      lastSize? (modifiersOf calls) = lastSize? (modifiersOf calls')) :
    (made v calls).encode.map List.length = (made v calls').encode.map List.length := by
  have hlength (ms : List Modifier) (result : Except EncodeError (List Int64)) :
      (result.map (arranged ms)).map List.length = result.map List.length := by
    cases result <;> simp [Except.map]
  have hconversion : v.conversion (made v calls).recordedSize =
      v.conversion (made v calls').recordedSize := by
    by_cases hfloat : v.kind = .float
    · rw [recordedSize_made, recordedSize_made, hsize hfloat]
    · obtain ⟨values, hvalues⟩ := conversion_of_kind_ne_float hfloat
      rw [hvalues, hvalues]
  rw [encode_made, encode_made, hlength, hlength, hconversion]

/-- A segment under construction records the last size and the last unit that it was given, or else
those of its constructor. It encodes to its value's elements at the recorded size, low bytes if it
was ever made signed, and backwards if it was made little an odd number of times; nothing but a
double of another size than 32 and 64 fails. So its elements depend on the last size, on `signed`
and on the parity of `little` alone, and their number on the last size of a double alone. -/
theorem encoding_ignores_modifier_order (v : SegmentValue) (calls : List Call) :
    (made v calls).recordedSize = (lastSize? (modifiersOf calls)).or v.plain.recordedSize ∧
    (made v calls).recordedUnit = (lastUnit? (modifiersOf calls)).or v.plain.recordedUnit ∧
    (made v calls).encode =
      (v.conversion (made v calls).recordedSize).map (arranged (modifiersOf calls)) ∧
    (∀ e, (lowByte e).toInt = e.toInt % 256) ∧
    (∀ cause, (made v calls).encode = .error cause ↔
      ∃ x size, v = .float x ∧ (made v calls).recordedSize = some size ∧
        size ≠ 32 ∧ size ≠ 64 ∧ cause = .invalidFloatSize size) ∧
    (∀ calls', lastSize? (modifiersOf calls) = lastSize? (modifiersOf calls') →
      (.signed ∈ modifiersOf calls ↔ .signed ∈ modifiersOf calls') →
      (modifiersOf calls).count .little % 2 = (modifiersOf calls').count .little % 2 →
      (made v calls).encode = (made v calls').encode) ∧
    ∀ calls', (v.kind = .float →
        lastSize? (modifiersOf calls) = lastSize? (modifiersOf calls')) →
      (made v calls).encode.map List.length = (made v calls').encode.map List.length :=
  ⟨recordedSize_made v calls, recordedUnit_made v calls, encode_made v calls, toInt_lowByte,
    fun _ => encode_made_eq_error_iff, fun _ => encode_made_congr,
    fun _ => length_encode_made_congr⟩

/-- A double that was given two sizes that do not fit and then one that does, and was turned around
three times. -/
theorem encoding_ignores_modifier_order_resized :
    (made (.float ⟨0x3ff0000000000000⟩) [.size 7, .little, .unit 2, .withModifier (.size 0),
        .little, .size 32, .withModifier .little, .signed]).encode =
      (made (.float ⟨0x3ff0000000000000⟩) [.signed, .little, .size 32]).encode ∧
    (made (.float ⟨0x3ff0000000000000⟩) [.signed, .little, .size 32]).encode =
      .ok [0, 0, 128, 63] ∧
    (made (.integer (-2)) [.little, .signed]).encode.map List.length =
      (made (.integer (-2)) []).encode.map List.length := by
  obtain ⟨-, -, -, -, -, hsame, -⟩ := encoding_ignores_modifier_order
    (.float ⟨0x3ff0000000000000⟩) [.size 7, .little, .unit 2, .withModifier (.size 0),
      .little, .size 32, .withModifier .little, .signed]
  obtain ⟨-, -, -, -, -, -, hlength⟩ :=
    encoding_ignores_modifier_order (.integer (-2)) [.little, .signed]
  exact ⟨hsame _ (by decide) (by decide) (by decide), by with_unfolding_all rfl,
    hlength _ (by simp [SegmentValue.kind])⟩

end Segment

end ClauseMatch
