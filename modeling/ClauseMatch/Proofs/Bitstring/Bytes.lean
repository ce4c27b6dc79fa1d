import ClauseMatch.Proofs.Bitstring.Modifiers

/-!
# Bitstrings as bytes

Elements are read as bytes one after the other, up to the first one that lies outside 0 to 255. Only
integers and nested bitstrings can bring in such an element, and only while they are not signed: all
other conversions write bytes, and modifiers move elements around or keep their low bytes. The place
of an element that is not a byte is counted over all segments, that is, over everything that the
segments before its own encode to.
-/

namespace ClauseMatch

/-- An element that is a byte. -/
def IsByte (v : Int64) : Prop := 0 ≤ v.toInt ∧ v.toInt < 256

instance : DecidablePred IsByte := fun v =>
  inferInstanceAs (Decidable (0 ≤ v.toInt ∧ v.toInt < 256))

theorem isByte_ofNat {n : Nat} (h : n < 256) : IsByte (Int64.ofNat n) := by
  rw [IsByte, Int64.toInt_ofNat_of_lt (by omega)]
  omega

theorem isByte_lowByte (v : Int64) : IsByte (lowByte v) := by
  rw [IsByte, toInt_lowByte]
  omega

theorem isByte_of_mem_elements {ns : List Nat} (h : ∀ n ∈ ns, n < 256) :
    ∀ v ∈ elements ns, IsByte v := by
  intro v hv
  obtain ⟨n, hn, rfl⟩ := List.mem_map.mp hv
  exact isByte_ofNat (h n hn)

/-! ## Reading elements as bytes -/

namespace Bitstring

/-- The byte with the value of an element. -/
def byteOf (v : Int64) : UInt8 := UInt8.ofNat v.toInt.toNat

theorem byteOf_ofNat (byte : UInt8) : byteOf (Int64.ofNat byte.toNat) = byte := by
  have hlt := byte.toNat_lt
  rw [byteOf, Int64.toInt_ofNat_of_lt (by omega), Int.toNat_natCast, UInt8.ofNat_toNat]

theorem ofNat_byteOf {v : Int64} (h : IsByte v) : Int64.ofNat (byteOf v).toNat = v := by
  obtain ⟨hlow, hhigh⟩ := h
  have hbyte : (byteOf v).toNat = v.toInt.toNat := by
    rw [byteOf, UInt8.toNat_ofNat']
    omega
  apply Int64.toInt.inj
  rw [hbyte, Int64.toInt_ofNat_of_lt (by omega), Int.toNat_of_nonneg hlow]

theorem bytesFrom_cons_of_byte {v : Int64} (hv : IsByte v) (rest : List Int64) (index : Nat)
    (done : List UInt8) :
    bytesFrom index (v :: rest) done = bytesFrom (index + 1) rest (byteOf v :: done) :=
  if_pos hv

theorem bytesFrom_cons_of_not_byte {v : Int64} (hv : ¬ IsByte v) (rest : List Int64)
    (index : Nat) (done : List UInt8) :
    bytesFrom index (v :: rest) done = .error (.notAByte index v) :=
  if_neg hv

/-- Elements in front that are bytes are read, whatever follows them. -/
theorem bytesFrom_append {before : List Int64} (h : ∀ v ∈ before, IsByte v) (rest : List Int64)
    (index : Nat) (done : List UInt8) :
    bytesFrom index (before ++ rest) done =
      bytesFrom (index + before.length) rest ((before.map byteOf).reverse ++ done) := by
  induction before generalizing index done with
  | nil => rfl
  | cons v before ih =>
    obtain ⟨hv, hbefore⟩ := List.forall_mem_cons.mp h
    rw [List.cons_append, bytesFrom_cons_of_byte hv, ih hbefore]
    simp [Nat.add_assoc, Nat.add_comm 1]

theorem toBytes_of_bytes {b : Bitstring} (h : ∀ v ∈ b.values, IsByte v) :
    b.toBytes = .ok (b.values.map byteOf) := by
  have hread := bytesFrom_append h [] 0 []
  rw [List.append_nil] at hread
  simp [toBytes, hread, bytesFrom]

theorem toBytes_of_not_byte {b : Bitstring} {before after : List Int64} {v : Int64}
    (hvalues : b.values = before ++ v :: after) (hbefore : ∀ u ∈ before, IsByte u)
    (hv : ¬ IsByte v) : b.toBytes = .error (.notAByte before.length v) := by
  rw [toBytes, hvalues, bytesFrom_append hbefore, bytesFrom_cons_of_not_byte hv, Nat.zero_add]

/-- Elements are all bytes, or there is a first one that is not. -/
theorem all_bytes_or_first_not (values : List Int64) :
    (∀ v ∈ values, IsByte v) ∨
      ∃ before v after, values = before ++ v :: after ∧ (∀ u ∈ before, IsByte u) ∧ ¬ IsByte v := by
  cases hfind : values.find? fun v => !decide (IsByte v) with
  | none => exact Or.inl (by simpa using hfind)
  | some v =>
    obtain ⟨hv, before, after, hsplit, hbefore⟩ := List.find?_eq_some_iff_append.mp hfind
    exact Or.inr ⟨before, v, after, hsplit, by simpa using hbefore, by simpa using hv⟩

/-- What is read as bytes has these bytes as its elements. -/
theorem toBytes_eq_ok_iff {b : Bitstring} {bytes : List UInt8} :
    b.toBytes = .ok bytes ↔ b.values = elements (bytes.map UInt8.toNat) := by
  constructor
  · intro h
    rcases all_bytes_or_first_not b.values with hall | ⟨before, v, after, hvalues, hbefore, hv⟩
    · rw [toBytes_of_bytes hall, Except.ok.injEq] at h
      have hback : b.values.map (fun v => Int64.ofNat (byteOf v).toNat) = b.values.map id :=
        List.map_congr_left fun v hv => ofNat_byteOf (hall v hv)
      rw [← h, elements, List.map_map, List.map_map]
      exact (hback.trans (List.map_id _)).symm
    · rw [toBytes_of_not_byte hvalues hbefore hv] at h
      cases h
  · intro h
    have hall : ∀ v ∈ b.values, IsByte v := by
      rw [h]
      refine isByte_of_mem_elements fun n hn => ?_
      obtain ⟨byte, -, rfl⟩ := List.mem_map.mp hn
      exact byte.toNat_lt
    rw [toBytes_of_bytes hall, h, elements, List.map_map, List.map_map]
    simp [Function.comp_def, byteOf_ofNat]

/-- The first element that is not a byte decides the error. -/
theorem toBytes_eq_error_iff {b : Bitstring} {cause : EncodeError} :
    b.toBytes = .error cause ↔
      ∃ before v after, b.values = before ++ v :: after ∧ (∀ u ∈ before, IsByte u) ∧
        ¬ IsByte v ∧ cause = .notAByte before.length v := by
  constructor
  · intro h
    rcases all_bytes_or_first_not b.values with hall | ⟨before, v, after, hvalues, hbefore, hv⟩
    · rw [toBytes_of_bytes hall] at h
      cases h
    · rw [toBytes_of_not_byte hvalues hbefore hv, Except.error.injEq] at h
      exact ⟨before, v, after, hvalues, hbefore, hv, h.symm⟩
  · rintro ⟨before, v, after, hvalues, hbefore, hv, rfl⟩
    exact toBytes_of_not_byte hvalues hbefore hv

theorem exists_toBytes_iff {b : Bitstring} :
    (∃ bytes, b.toBytes = .ok bytes) ↔ ∀ v ∈ b.values, IsByte v := by
  constructor
  · rintro ⟨bytes, hbytes⟩
    rcases all_bytes_or_first_not b.values with hall | ⟨before, v, after, hvalues, hbefore, hv⟩
    · exact hall
    · rw [toBytes_of_not_byte hvalues hbefore hv] at hbytes
      cases hbytes
  · intro h
    exact ⟨_, toBytes_of_bytes h⟩

end Bitstring

/-! ## Conversions that write bytes -/

theorem lt_of_mem_bigEndianBytes {width n d : Nat} (h : d ∈ bigEndianBytes width n) : d < 256 := by
  induction width generalizing n with
  | zero => simp [bigEndianBytes] at h
  | succ width ih =>
    rw [bigEndianBytes, List.mem_append, List.mem_singleton] at h
    rcases h with h | rfl
    · exact ih h
    · omega

theorem lt_of_mem_utf8Bytes {text : String} {d : Nat} (h : d ∈ utf8Bytes text) : d < 256 := by
  obtain ⟨c, -, hd⟩ := List.mem_flatMap.mp h
  obtain ⟨byte, -, rfl⟩ := List.mem_map.mp hd
  exact byte.toNat_lt

theorem lt_of_mem_codeUnitSlots {c : Char} {slot : Nat} (h : slot ∈ codeUnitSlots c) :
    slot < 65536 := by
  rw [codeUnitSlots] at h
  split at h
  · obtain rfl := List.mem_singleton.mp h
    omega
  · simp only [List.mem_cons, List.not_mem_nil, or_false] at h
    omega

theorem lt_of_mem_utf16Bytes {text : String} {d : Nat} (h : d ∈ utf16Bytes text) : d < 256 := by
  obtain ⟨slot, hslot, hd⟩ := List.mem_flatMap.mp h
  obtain ⟨c, -, hc⟩ := List.mem_flatMap.mp hslot
  have hlt := lt_of_mem_codeUnitSlots hc
  simp only [List.mem_cons, List.not_mem_nil, or_false] at hd
  omega

theorem lt_of_mem_utf32Bytes {text : String} {d : Nat} (h : d ∈ utf32Bytes text) : d < 256 := by
  obtain ⟨slot, hslot, hd⟩ := List.mem_flatMap.mp h
  obtain ⟨c, -, hc⟩ := List.mem_flatMap.mp hslot
  have hlt := lt_of_mem_codeUnitSlots hc
  simp only [List.mem_cons, List.not_mem_nil, or_false] at hd
  omega

theorem lt_of_mem_floatBytes {x : Binary64} {size : UInt32} {ns : List Nat} {d : Nat}
    (h : floatBytes x size = .ok ns) (hd : d ∈ ns) : d < 256 := by
  rw [floatBytes] at h
  split at h
  · obtain rfl := Except.ok.inj h
    exact lt_of_mem_bigEndianBytes hd
  · split at h
    · obtain rfl := Except.ok.inj h
      exact lt_of_mem_bigEndianBytes hd
    · cases h

/-- Doubles and texts are converted to bytes. -/
theorem isByte_of_conversion {v : SegmentValue} {size : Option UInt32} {values : List Int64}
    (hinteger : v.kind ≠ .integer) (hbitstring : v.kind ≠ .bitstring)
    (h : v.conversion size = .ok values) : ∀ e ∈ values, IsByte e := by
  cases v with
  | integer n => exact absurd rfl hinteger
  | bitstring bits => exact absurd rfl hbitstring
  | float x =>
    obtain ⟨ns, hns, rfl⟩ := map_eq_ok_iff.mp h
    exact isByte_of_mem_elements fun n hn => lt_of_mem_floatBytes hns hn
  | binary text | utf8 text =>
    obtain rfl := Except.ok.inj h
    exact isByte_of_mem_elements fun n hn => lt_of_mem_utf8Bytes hn
  | utf16 text =>
    obtain rfl := Except.ok.inj h
    exact isByte_of_mem_elements fun n hn => lt_of_mem_utf16Bytes hn
  | utf32 text =>
    obtain rfl := Except.ok.inj h
    exact isByte_of_mem_elements fun n hn => lt_of_mem_utf32Bytes hn

/-! ## Segments that pass elements on -/

theorem isByte_of_mem_arranged {ms : List Modifier} {values : List Int64} {v : Int64}
    (hsigned : .signed ∈ ms) (h : v ∈ arranged ms values) : IsByte v := by
  have hmasked : v ∈ masked ms values := by
    rw [arranged] at h
    split at h
    · exact List.mem_reverse.mp h
    · exact h
  rw [masked, if_pos hsigned] at hmasked
  obtain ⟨u, -, rfl⟩ := List.mem_map.mp hmasked
  exact isByte_lowByte u

theorem mem_arranged_iff {ms : List Modifier} {values : List Int64} {v : Int64}
    (hsigned : .signed ∉ ms) : v ∈ arranged ms values ↔ v ∈ values := by
  have hmasked : masked ms values = values := if_neg hsigned
  rw [arranged, hmasked]
  split
  · exact List.mem_reverse
  · exact Iff.rfl

namespace Segment

variable {s : Segment} {values out : List Int64} {v : Int64}

/-- The elements that a segment passes on as they are: those of an integer or of a nested bitstring
that is not signed. -/
inductive PassesOn (s : Segment) : List Int64 → Prop where
  | integer {n : Int64} (hvalue : s.value = .integer n) (hsigned : .signed ∉ s.modifiers) :
    PassesOn s [n]
  | bitstring {bits : Bitstring} (hvalue : s.value = .bitstring bits)
    (hsigned : .signed ∉ s.modifiers) : PassesOn s bits.values

theorem PassesOn.conversion (h : s.PassesOn values) :
    s.value.conversion s.recordedSize = .ok values ∧ .signed ∉ s.modifiers := by
  cases h with
  | integer hvalue hsigned | bitstring hvalue hsigned =>
    rw [hvalue]
    exact ⟨rfl, hsigned⟩

/-- What a segment passes on is what it encodes to, in some order. -/
theorem PassesOn.mem_encode_iff (h : s.PassesOn values) (hout : s.encode = .ok out) :
    v ∈ out ↔ v ∈ values := by
  obtain ⟨hconversion, hsigned⟩ := h.conversion
  rw [encode_eq, hconversion] at hout
  obtain rfl := Except.ok.inj hout
  exact mem_arranged_iff hsigned

/-- A segment that is signed, or neither an integer nor a bitstring, encodes to bytes. -/
theorem isByte_of_mem_encode
    (h : .signed ∈ s.modifiers ∨ s.kind ≠ .integer ∧ s.kind ≠ .bitstring)
    (hout : s.encode = .ok out) : ∀ v ∈ out, IsByte v := by
  rw [encode_eq] at hout
  obtain ⟨converted, hconverted, rfl⟩ := map_eq_ok_iff.mp hout
  intro v hv
  by_cases hsigned : .signed ∈ s.modifiers
  · exact isByte_of_mem_arranged hsigned hv
  · obtain ⟨hinteger, hbitstring⟩ := h.resolve_left hsigned
    exact isByte_of_conversion hinteger hbitstring hconverted v
      ((mem_arranged_iff hsigned).mp hv)

theorem exists_passesOn_or (s : Segment) : (∃ values, s.PassesOn values) ∨
    .signed ∈ s.modifiers ∨ s.kind ≠ .integer ∧ s.kind ≠ .bitstring := by
  by_cases hsigned : .signed ∈ s.modifiers
  · exact Or.inr (Or.inl hsigned)
  · cases hvalue : s.value with
    | integer n => exact Or.inl ⟨[n], .integer hvalue hsigned⟩
    | bitstring bits => exact Or.inl ⟨bits.values, .bitstring hvalue hsigned⟩
    | _ => exact Or.inr (Or.inr (by simp [kind, hvalue, SegmentValue.kind]))

/-- An element that is not a byte has been passed on. -/
theorem exists_passesOn_of_not_isByte (hout : s.encode = .ok out) (hv : v ∈ out)
    (hbyte : ¬ IsByte v) : ∃ values, s.PassesOn values ∧ v ∈ values := by
  rcases s.exists_passesOn_or with ⟨values, hvalues⟩ | hother
  · exact ⟨values, hvalues, (hvalues.mem_encode_iff hout).mp hv⟩
  · exact absurd (isByte_of_mem_encode hother hout v hv) hbyte

end Segment

/-! ## Places of elements -/

/-- A segment gives the element at a place: before the place stand the elements of the segments
before it, and then those of its own that come before the element. -/
def GivesElement (segments : List Segment) (s : Segment) (index : Nat) (v : Int64) : Prop :=
  ∃ before after earlier out offset, segments = before ++ s :: after ∧
    encodeSegments before = .ok earlier ∧ s.encode = .ok out ∧ out[offset]? = some v ∧
    index = earlier.flatten.length + offset

/-- Every element is given by some segment. -/
theorem exists_givesElement {segments : List Segment} {parts : List (List Int64)} {index : Nat}
    {v : Int64} (h : List.Forall₂ (fun s out => s.encode = .ok out) segments parts)
    (hv : parts.flatten[index]? = some v) : ∃ s, GivesElement segments s index v := by
  induction h generalizing index with
  | nil => simp at hv
  | @cons s out segments parts hout _ ih =>
    rw [List.flatten_cons] at hv
    by_cases hindex : index < out.length
    · rw [List.getElem?_append_left hindex] at hv
      exact ⟨s, [], segments, [], out, index, rfl, encodeSegments_nil, hout, hv, by simp⟩
    · rw [List.getElem?_append_right (by omega)] at hv
      obtain ⟨s', before, after, earlier, out', offset, rfl, hearlier, hout', hoffset, hplace⟩ :=
        ih hv
      refine ⟨s', s :: before, after, out :: earlier, out', offset, rfl, ?_, hout', hoffset, ?_⟩
      · rw [encodeSegments_cons, hout, hearlier]
        rfl
      · rw [List.flatten_cons, List.length_append]
        omega

theorem GivesElement.mem_encode {segments : List Segment} {s : Segment} {index : Nat} {v : Int64}
    (h : GivesElement segments s index v) : ∃ out, s.encode = .ok out ∧ v ∈ out := by
  obtain ⟨-, -, -, out, offset, -, -, hout, hoffset, -⟩ := h
  exact ⟨out, hout, List.mem_of_getElem? hoffset⟩

/-- The elements of segments in a row are those that each of them encodes to. -/
theorem mem_flatten_iff {segments : List Segment} {parts : List (List Int64)} {v : Int64}
    (h : List.Forall₂ (fun s out => s.encode = .ok out) segments parts) :
    v ∈ parts.flatten ↔ ∃ s ∈ segments, ∃ out, s.encode = .ok out ∧ v ∈ out := by
  induction h with
  | nil => simp
  | cons hout _ ih => simp [ih, hout]

theorem exists_encode_of_mem {segments : List Segment} {parts : List (List Int64)} {s : Segment}
    (h : List.Forall₂ (fun s out => s.encode = .ok out) segments parts) (hs : s ∈ segments) :
    ∃ out, s.encode = .ok out := by
  induction h with
  | nil => simp at hs
  | cons hout _ ih =>
    rcases List.mem_cons.mp hs with rfl | hs
    · exact ⟨_, hout⟩
    · exact ih hs

/-- A bitstring is made of bytes if all that its segments pass on are bytes. -/
theorem forall_isByte_iff {segments : List Segment} {parts : List (List Int64)}
    (h : List.Forall₂ (fun s out => s.encode = .ok out) segments parts) :
    (∀ v ∈ parts.flatten, IsByte v) ↔
      ∀ s ∈ segments, ∀ values, s.PassesOn values → ∀ v ∈ values, IsByte v := by
  constructor
  · intro hall s hs values hvalues v hv
    obtain ⟨out, hout⟩ := exists_encode_of_mem h hs
    have hmem : v ∈ out := (hvalues.mem_encode_iff hout).mpr hv
    exact hall v ((mem_flatten_iff h).mpr ⟨s, hs, out, hout, hmem⟩)
  · intro hall v hv
    obtain ⟨s, hs, out, hout, hmem⟩ := (mem_flatten_iff h).mp hv
    by_contra hbyte
    obtain ⟨values, hvalues, hpassed⟩ := Segment.exists_passesOn_of_not_isByte hout hmem hbyte
    exact hbyte (hall s hs values hvalues v hpassed)

/-- Reading fails at the first element that is not a byte, which comes from a segment that passes it
on. -/
theorem exists_offender {segments : List Segment} {b : Bitstring} {cause : EncodeError}
    (h : Bitstring.ofSegments segments = .ok b) (hcause : b.toBytes = .error cause) :
    ∃ index v s, cause = .notAByte index v ∧ b.values[index]? = some v ∧ ¬ IsByte v ∧
      (∀ j u, j < index → b.values[j]? = some u → IsByte u) ∧
      GivesElement segments s index v ∧ ∃ values, s.PassesOn values ∧ v ∈ values := by
  obtain ⟨before, v, after, hvalues, hbefore, hv, rfl⟩ := Bitstring.toBytes_eq_error_iff.mp hcause
  obtain ⟨parts, hparts, rfl⟩ := map_eq_ok_iff.mp h
  have hplace : parts.flatten[before.length]? = some v := by
    have hflatten : parts.flatten = before ++ v :: after := hvalues
    simp [hflatten]
  obtain ⟨s, hs⟩ := exists_givesElement (encodeSegments_eq_ok_iff.mp hparts) hplace
  obtain ⟨out, hout, hmem⟩ := hs.mem_encode
  refine ⟨before.length, v, s, rfl, hplace, hv, ?_, hs,
    Segment.exists_passesOn_of_not_isByte hout hmem hv⟩
  intro j u hj hu
  rw [hvalues, List.getElem?_append_left hj] at hu
  exact hbefore u (List.mem_of_getElem? hu)

/-- A bitstring can be read as bytes exactly if its segments pass on nothing but bytes; segments
that are signed, doubles and texts encode to bytes in any case. What is read has the bytes as its
elements. Otherwise the error names the first element that is not a byte and its place, which is
counted from the start of the bitstring over the segments before the one that passes it on. -/
theorem reading_bytes_fails_at_first_offender {segments : List Segment} {b : Bitstring}
    (h : Bitstring.ofSegments segments = .ok b) :
    ((∃ bytes, b.toBytes = .ok bytes) ↔
      ∀ s ∈ segments, ∀ values, s.PassesOn values → ∀ v ∈ values, IsByte v) ∧
    (∀ s : Segment, .signed ∈ s.modifiers ∨ s.kind ≠ .integer ∧ s.kind ≠ .bitstring →
      ∀ out, s.encode = .ok out → ∀ v ∈ out, IsByte v) ∧
    (∀ bytes, b.toBytes = .ok bytes → b.values = elements (bytes.map UInt8.toNat)) ∧
    ∀ cause, b.toBytes = .error cause →
      ∃ index v s, cause = .notAByte index v ∧ b.values[index]? = some v ∧ ¬ IsByte v ∧
        (∀ j u, j < index → b.values[j]? = some u → IsByte u) ∧
        GivesElement segments s index v ∧ ∃ values, s.PassesOn values ∧ v ∈ values := by
  refine ⟨?_, fun s hs out hout => Segment.isByte_of_mem_encode hs hout,
    fun bytes => Bitstring.toBytes_eq_ok_iff.mp, fun cause => exists_offender h⟩
  obtain ⟨parts, hparts, rfl⟩ := map_eq_ok_iff.mp h
  rw [Bitstring.exists_toBytes_iff]
  exact forall_isByte_iff (encodeSegments_eq_ok_iff.mp hparts)

/-- A character above U+FFFF, a negative integer that is signed, and a nested bitstring that is
turned around, so that its first element comes last. -/
theorem reading_bytes_fails_at_first_offender_reversed :
    Bitstring.ofSegments [.utf16 "😀", (Segment.integer (-1)).signed,
        (Segment.bitstring (.ofValues [-5, 256, 7])).little] =
      .ok ⟨[.utf16 "😀", (Segment.integer (-1)).signed,
        (Segment.bitstring (.ofValues [-5, 256, 7])).little], [246, 0, 222, 0, 255, 7, 256, -5]⟩ ∧
    ∃ index v s, EncodeError.notAByte 6 256 = .notAByte index v ∧ ¬ IsByte v ∧
      GivesElement [.utf16 "😀", (Segment.integer (-1)).signed,
        (Segment.bitstring (.ofValues [-5, 256, 7])).little] s index v := by
  have h : Bitstring.ofSegments [.utf16 "😀", (Segment.integer (-1)).signed,
        (Segment.bitstring (.ofValues [-5, 256, 7])).little] =
      .ok ⟨[.utf16 "😀", (Segment.integer (-1)).signed,
        (Segment.bitstring (.ofValues [-5, 256, 7])).little],
        [246, 0, 222, 0, 255, 7, 256, -5]⟩ := by
    with_unfolding_all rfl
  obtain ⟨-, -, -, hfail⟩ := reading_bytes_fails_at_first_offender h
  obtain ⟨index, v, s, hcause, -, hv, -, hs, -⟩ :=
    hfail (.notAByte 6 256) (by with_unfolding_all rfl)
  exact ⟨h, index, v, s, hcause, hv, hs⟩

end ClauseMatch
