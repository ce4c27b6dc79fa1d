import ClauseMatch.Literal.Cursor

/-!
# Texts as bytes

How the bytes of a source relate to its characters. Between two characters there is a boundary, and
what is cut out of a source between two boundaries are the characters between them. A class of
bytes that has no byte from 128 on stands for a class of ASCII characters: a run of such bytes is
a run of characters, because no byte of another character is below 128.
-/

namespace ClauseMatch.Literal

variable {text before after : List Char}

/-! ## Lengths -/

theorem utf8ByteSize_ofList (text : List Char) :
    (String.ofList text).utf8ByteSize = byteLength text := by
  have hfold : ∀ (text : List Char) (n : Nat),
      text.foldl (fun n c => n + c.utf8Size) n = n + (String.ofList text).utf8ByteSize := by
    intro text
    induction text with
    | nil => simp
    | cons c text ih =>
      intro n
      rw [List.foldl_cons, ih, String.ofList_cons, String.utf8ByteSize_append,
        String.utf8ByteSize_singleton, Nat.add_assoc]
  rw [byteLength, hfold, Nat.zero_add]

@[simp]
theorem byteLength_nil : byteLength [] = 0 := rfl

@[simp]
theorem byteLength_append (text text' : List Char) :
    byteLength (text ++ text') = byteLength text + byteLength text' := by
  simp only [← utf8ByteSize_ofList, String.ofList_append, String.utf8ByteSize_append]

@[simp]
theorem byteLength_cons (c : Char) (text : List Char) :
    byteLength (c :: text) = c.utf8Size + byteLength text := by
  rw [← List.singleton_append, byteLength_append]
  simp [byteLength]

theorem byteLength_toList (source : String) : byteLength source.toList = source.utf8ByteSize := by
  rw [← utf8ByteSize_ofList, String.ofList_toList]

/-- A character takes at least one byte. -/
theorem length_le_byteLength (text : List Char) : text.length ≤ byteLength text := by
  induction text with
  | nil => simp
  | cons c text ih =>
    have := c.utf8Size_pos
    simp only [List.length_cons, byteLength_cons]
    omega

theorem one_le_byteLength (h : text ≠ []) : 1 ≤ byteLength text :=
  Nat.le_trans (List.length_pos_iff.mpr h) (length_le_byteLength text)

/-! ## Boundaries and slices -/

theorem isValid_byteLength {source : String} (h : source.toList = before ++ after) :
    String.Pos.Raw.IsValid source ⟨byteLength before⟩ := by
  rw [String.Pos.Raw.isValid_iff_exists_append]
  refine ⟨String.ofList before, String.ofList after, ?_, ?_⟩
  · rw [← String.ofList_append, ← h, String.ofList_toList]
  · rw [← utf8ByteSize_ofList, String.rawEndPos]

/-- Between two boundaries stand the characters between them. -/
theorem slice?_eq {source : String} (h : source.toList = before ++ (text ++ after)) :
    slice? source (byteLength before) (byteLength before + byteLength text) =
      some (String.ofList text) := by
  have hstart := isValid_byteLength h
  have hstop := isValid_byteLength (h.trans (List.append_assoc ..).symm)
  rw [byteLength_append] at hstop
  rw [slice?, dif_pos ⟨Nat.le_add_right .., hstart, hstop⟩, Option.some_inj]
  have hbytes : source.toByteArray = (before ++ (text ++ after)).utf8Encode := by
    rw [← h, ← String.toByteArray_ofList, String.ofList_toList]
  have hsize : ∀ text : List Char, text.utf8Encode.size = byteLength text := by
    intro text
    rw [← String.toByteArray_ofList, ← utf8ByteSize_ofList, String.size_toByteArray]
  apply String.toByteArray_inj.mp
  rw [String.toByteArray_extract, String.toByteArray_ofList, hbytes, List.utf8Encode_append,
    List.utf8Encode_append]
  show ByteArray.extract _ (byteLength before) (byteLength before + byteLength text) = _
  rw [← hsize, ← hsize]
  calc (before.utf8Encode ++ (text.utf8Encode ++ after.utf8Encode)).extract
        before.utf8Encode.size (before.utf8Encode.size + text.utf8Encode.size)
      = (text.utf8Encode ++ after.utf8Encode).extract 0 text.utf8Encode.size := by
        simpa using ByteArray.extract_append_size_add (a := before.utf8Encode)
          (b := text.utf8Encode ++ after.utf8Encode) (i := 0) (j := text.utf8Encode.size)
    _ = text.utf8Encode := ByteArray.extract_append_eq_left rfl

/-! ## Classes of bytes -/

theorem bytes_ofList (text : List Char) :
    bytes (String.ofList text) = text.flatMap String.utf8EncodeChar := by
  simp [bytes, List.utf8Encode]

theorem length_flatMap_utf8EncodeChar (text : List Char) :
    (text.flatMap String.utf8EncodeChar).length = byteLength text := by
  induction text with
  | nil => rfl
  | cons c text ih => simp [ih]

theorem exists_utf8EncodeChar_eq_cons (c : Char) :
    ∃ b more, String.utf8EncodeChar c = b :: more := by
  apply List.exists_cons_of_ne_nil
  exact List.ne_nil_of_length_pos (by simp [c.utf8Size_pos])

/-- The bytes of a character that is not ASCII are not below 128. -/
theorem le_of_mem_utf8EncodeChar {c : Char} {b : UInt8} (hc : 128 ≤ c.toNat)
    (hb : b ∈ String.utf8EncodeChar c) : 128 ≤ b.toNat := by
  have hv : c.val.toNat = c.toNat := rfl
  have hbyte {n : Nat} (hn : 128 ≤ n ∧ n < 256) : 128 ≤ (UInt8.ofNat n).toNat := by
    rw [UInt8.toNat_ofNat', Nat.mod_eq_of_lt hn.2]
    exact hn.1
  revert hb
  fun_cases String.utf8EncodeChar c <;>
    simp only [List.mem_cons, List.not_mem_nil, or_false]
  · omega
  · rintro (rfl | rfl) <;> exact hbyte (by omega)
  · rintro (rfl | rfl | rfl) <;> exact hbyte (by omega)
  · rintro (rfl | rfl | rfl | rfl) <;> exact hbyte (by omega)

/-- An ASCII character is a single byte, its code. -/
theorem utf8EncodeChar_of_lt {c : Char} (hc : c.toNat < 128) :
    String.utf8EncodeChar c = [UInt8.ofNat c.toNat] := by
  have hv : c.val.toNat ≤ 0x7f := Nat.le_of_lt_succ hc
  rw [String.utf8EncodeChar, if_pos hv]
  rfl

/-- The bytes of a character are in the class of bytes just when the character is in the class of
characters. -/
def SameClass (accept : UInt8 → Bool) (p : Char → Bool) : Prop :=
  ∀ c, ∀ b ∈ String.utf8EncodeChar c, accept b = p c

theorem sameClass_of_ascii {accept : UInt8 → Bool} {p : Char → Bool}
    (hascii : ∀ n < 128, accept (UInt8.ofNat n) = p (Char.ofNat n))
    (hbyte : ∀ b, accept b = true → b.toNat < 128)
    (hchar : ∀ c, p c = true → c.toNat < 128) : SameClass accept p := by
  intro c b hb
  by_cases hc : c.toNat < 128
  · rw [utf8EncodeChar_of_lt hc, List.mem_singleton] at hb
    rw [hb, hascii _ hc, Char.ofNat_toNat]
  · have hle : 128 ≤ b.toNat := le_of_mem_utf8EncodeChar (Nat.le_of_not_lt hc) hb
    have hb' : ¬ accept b = true := fun h => absurd (hbyte b h) (Nat.not_lt.mpr hle)
    have hc' : ¬ p c = true := fun h => hc (hchar c h)
    rw [Bool.eq_false_iff.mpr hb', Bool.eq_false_iff.mpr hc']

/-- The byte of an ASCII character stands for that character alone. -/
theorem sameClass_eq {d : Char} (hd : d.toNat < 128) :
    SameClass (· == d.toUInt8) (· == d) := by
  have hbyte : d.toUInt8.toNat = d.toNat := Nat.mod_eq_of_lt (Nat.lt_trans hd (by decide))
  apply sameClass_of_ascii
  · intro n hn
    have hchar : (Char.ofNat n).toNat = n := by
      rw [Char.ofNat, dif_pos (Or.inl (Nat.lt_trans hn (by decide)))]
      rfl
    have hofNat : (UInt8.ofNat n).toNat = n := by
      rw [UInt8.toNat_ofNat', Nat.mod_eq_of_lt (Nat.lt_trans hn (by decide))]
    rw [Bool.eq_iff_iff, beq_iff_eq, beq_iff_eq, ← UInt8.toNat_inj, hbyte, hofNat, ← Char.toNat_inj,
      hchar]
  · intro b hb
    rw [beq_iff_eq] at hb
    rw [hb, hbyte]
    exact hd
  · intro c hc
    rw [beq_iff_eq] at hc
    rwa [hc]

/-- At the end of the source there is no byte. -/
theorem getElem?_bytes_nil {source : String} (h : source.toList = before) :
    (bytes source)[byteLength before]? = none := by
  rw [← String.ofList_toList (s := source), h, bytes_ofList]
  exact List.getElem?_eq_none (Nat.le_of_eq (length_flatMap_utf8EncodeChar before))

/-- At a boundary stands the first byte of the next character. -/
theorem getElem?_bytes_cons {source : String} {c : Char} {b : UInt8} {more : List UInt8}
    (h : source.toList = before ++ c :: after) (hbytes : String.utf8EncodeChar c = b :: more) :
    (bytes source)[byteLength before]? = some b := by
  rw [← String.ofList_toList (s := source), h, bytes_ofList, List.flatMap_append,
    List.getElem?_append_right (Nat.le_of_eq (length_flatMap_utf8EncodeChar before)),
    length_flatMap_utf8EncodeChar, Nat.sub_self, List.flatMap_cons, hbytes]
  rfl

/-- A run of bytes of a class is the run of characters of the class. -/
theorem length_takeWhile_bytes {accept : UInt8 → Bool} {p : Char → Bool}
    (h : SameClass accept p) (text : List Char) :
    ((bytes (String.ofList text)).takeWhile accept).length = byteLength (text.takeWhile p) := by
  rw [bytes_ofList]
  induction text with
  | nil => rfl
  | cons c text ih =>
    rw [List.flatMap_cons]
    by_cases hc : p c = true
    · rw [List.takeWhile_append_of_pos fun b hb => (h c b hb).trans hc, List.length_append, ih,
        List.takeWhile_cons_of_pos hc, byteLength_cons, String.length_utf8EncodeChar]
    · obtain ⟨b, more, hbytes⟩ := exists_utf8EncodeChar_eq_cons c
      have hb : ¬ accept b = true := by rwa [h c b (by simp [hbytes])]
      rw [hbytes, List.cons_append, List.takeWhile_cons_of_neg hb, List.takeWhile_cons_of_neg hc]
      rfl

theorem isNameChar_iff {c : Char} :
    isNameChar c = true ↔
      (((65 ≤ c.val ∧ c.val ≤ 90) ∨ (97 ≤ c.val ∧ c.val ≤ 122)) ∨ c.isDigit = true) ∨
        (c == '_') = true := by
  have hletter : c.isAlpha =
      (decide (65 ≤ c.val ∧ c.val ≤ 90) || decide (97 ≤ c.val) && decide (c.val ≤ 122)) := rfl
  simp only [isNameChar, Char.isAlphanum, hletter, Bool.or_eq_true, Bool.and_eq_true,
    decide_eq_true_eq]

theorem isNameChar_of_isHexDigitOrGap {c : Char} (h : isHexDigitOrGap c = true) :
    isNameChar c = true := by
  simp only [isHexDigitOrGap, isHexDigit, Char.le_def, Bool.or_eq_true, Bool.and_eq_true,
    decide_eq_true_eq] at h
  rw [isNameChar_iff]
  rcases h with ((hdigit | ⟨ha, hf⟩) | ⟨hA, hF⟩) | hgap
  · exact Or.inl (Or.inr hdigit)
  · exact Or.inl (Or.inl (Or.inr ⟨ha, UInt32.le_trans hf (by decide)⟩))
  · exact Or.inl (Or.inl (Or.inl ⟨hA, UInt32.le_trans hF (by decide)⟩))
  · exact Or.inr hgap

theorem toNat_lt_of_isNameChar {c : Char} (h : isNameChar c = true) : c.toNat < 128 := by
  simp only [isNameChar_iff, Char.isDigit, UInt32.le_iff_toNat_le, ge_iff_le, Bool.and_eq_true,
    decide_eq_true_eq, beq_iff_eq] at h
  rcases h with ((⟨-, hle⟩ | ⟨-, hle⟩) | ⟨-, hle⟩) | rfl
  · exact Nat.lt_of_le_of_lt hle (by decide)
  · exact Nat.lt_of_le_of_lt hle (by decide)
  · exact Nat.lt_of_le_of_lt hle (by decide)
  · decide

theorem isNameByte_of_isHexDigitOrGapByte {b : UInt8} (h : isHexDigitOrGapByte b = true) :
    isNameByte b = true := by
  simp only [isHexDigitOrGapByte, isNameByte, isLetterByte, Bool.or_eq_true, Bool.and_eq_true,
    decide_eq_true_eq] at h ⊢
  rcases h with (hdigit | ⟨hA, hF⟩ | ⟨ha, hf⟩) | hgap
  · exact Or.inl (Or.inl hdigit)
  · exact Or.inl (Or.inr (Or.inl ⟨hA, UInt8.le_trans hF (by decide)⟩))
  · exact Or.inl (Or.inr (Or.inr ⟨ha, UInt8.le_trans hf (by decide)⟩))
  · exact Or.inr hgap

theorem toNat_lt_of_isNameByte {b : UInt8} (h : isNameByte b = true) : b.toNat < 128 := by
  simp only [isNameByte, isDigitByte, isLetterByte, UInt8.le_iff_toNat_le, Bool.or_eq_true,
    Bool.and_eq_true, decide_eq_true_eq, beq_iff_eq] at h
  rcases h with (⟨-, hle⟩ | ⟨-, hle⟩ | ⟨-, hle⟩) | rfl
  · exact Nat.lt_of_le_of_lt hle (by decide)
  · exact Nat.lt_of_le_of_lt hle (by decide)
  · exact Nat.lt_of_le_of_lt hle (by decide)
  · decide

theorem sameClass_isNameChar : SameClass isNameByte isNameChar :=
  sameClass_of_ascii (by decide) (fun _ => toNat_lt_of_isNameByte)
    (fun _ => toNat_lt_of_isNameChar)

theorem sameClass_isHexDigitOrGap : SameClass isHexDigitOrGapByte isHexDigitOrGap := by
  apply sameClass_of_ascii (by decide)
  · intro b hb
    exact toNat_lt_of_isNameByte (isNameByte_of_isHexDigitOrGapByte hb)
  · intro c hc
    exact toNat_lt_of_isNameChar (isNameChar_of_isHexDigitOrGap hc)

theorem sameClass_isDigitOrGap : SameClass isDigitOrGapByte isDigitOrGap := by
  apply sameClass_of_ascii (by decide)
  · intro b hb
    apply toNat_lt_of_isNameByte
    rw [isDigitOrGapByte, Bool.or_eq_true] at hb
    rcases hb with hb | hb <;> simp [isNameByte, hb]
  · intro c hc
    apply toNat_lt_of_isNameChar
    rw [isDigitOrGap, Bool.or_eq_true] at hc
    rcases hc with hc | hc <;> simp [isNameChar, Char.isAlphanum, hc]

theorem sameClass_isDigit : SameClass isDigitByte Char.isDigit := by
  apply sameClass_of_ascii (by decide)
  · intro b hb
    exact toNat_lt_of_isNameByte (by simp [isNameByte, hb])
  · intro c hc
    exact toNat_lt_of_isNameChar (by simp [isNameChar, Char.isAlphanum, hc])

end ClauseMatch.Literal
