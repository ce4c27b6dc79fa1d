import ClauseMatch.Proofs.Literal.Grammar

/-!
# Quoted text as source

What is written between quotes for a text is always read to the closing quote, but not always as
the same text: a code point in hexadecimal is no escape of the grammar, which takes the letter
after the backslash for itself and the rest of the escape for text. Hence a text is read back
unchanged exactly when none of its characters is shown by its code point.
-/

namespace ClauseMatch

/-- Whether a character is written as its code point in hexadecimal. -/
def ShownByCodePoint (c : Char) : Prop := quotedChar c = codePointEscape c

instance : DecidablePred ShownByCodePoint := fun c =>
  inferInstanceAs (Decidable (quotedChar c = codePointEscape c))

namespace Literal

/-! ## Single characters -/

/-- The characters that short escapes have after their backslash. -/
def shortEscapes : List Char := ['t', 'r', 'n', '0', '"', '\\']

/-- The three ways in which a character is written between quotes. -/
inductive WrittenAs (c : Char) : List Char → Prop where
  | itself : c ≠ '"' → c ≠ '\\' → WrittenAs c [c]
  | escape {d : Char} : d ∈ shortEscapes → Escape d c → WrittenAs c ['\\', d]
  | codePoint : WrittenAs c (codePointEscape c)

theorem writtenAs_quotedChar (c : Char) : WrittenAs c (quotedChar c) := by
  unfold quotedChar
  split
  · exact .escape (by decide) .tab
  · exact .escape (by decide) .carriageReturn
  · exact .escape (by decide) .lineFeed
  · exact .escape (by decide) .null
  · exact .escape (by decide) (.itself (by decide))
  · exact .escape (by decide) (.itself (by decide))
  · rename_i hquote hslash
    split
    · exact .codePoint
    · exact .itself hquote hslash

theorem four_le_length_codePointEscape (c : Char) : 4 ≤ (codePointEscape c).length := by
  simp [codePointEscape]

theorem not_shownByCodePoint_of_length_lt {c : Char} (h : (quotedChar c).length < 4) :
    ¬ ShownByCodePoint c := by
  intro hshown
  have hlength := four_le_length_codePointEscape c
  rw [← show quotedChar c = codePointEscape c from hshown] at hlength
  omega

/-- All other characters stand for themselves or have a short escape. -/
theorem not_shownByCodePoint_iff {c : Char} :
    ¬ ShownByCodePoint c ↔
      quotedChar c = [c] ∨ ∃ d ∈ shortEscapes, quotedChar c = ['\\', d] := by
  constructor
  · intro hshown
    have hwritten := writtenAs_quotedChar c
    generalize hq : quotedChar c = written at hwritten
    cases hwritten with
    | itself => exact Or.inl rfl
    | @escape d hd _ => exact Or.inr ⟨d, hd, rfl⟩
    | codePoint => exact absurd hq hshown
  · rintro (hself | ⟨d, -, hescape⟩)
    · exact not_shownByCodePoint_of_length_lt (by simp [hself])
    · exact not_shownByCodePoint_of_length_lt (by simp [hescape])

/-- What a character is read back as: itself, or its code point escape without the backslash. -/
def charReadBack (c : Char) : List Char :=
  if ShownByCodePoint c then (codePointEscape c).tail else [c]


/-! ## Texts -/

theorem TextAt.append_plain {run source text rest : List Char}
    (hrun : ∀ c ∈ run, c ≠ '"' ∧ c ≠ '\\') (h : TextAt source text rest) :
    TextAt (run ++ source) (run ++ text) rest := by
  induction run with
  | nil => exact h
  | cons c run ih =>
    obtain ⟨hquote, hslash⟩ := hrun c List.mem_cons_self
    exact .plain hquote hslash (ih fun d hd => hrun d (List.mem_cons_of_mem c hd))

theorem exists_digitChar_of_mem_toDigits {base n : Nat} {c : Char} (hbase : 1 < base)
    (h : c ∈ Nat.toDigits base n) : ∃ d, c = Nat.digitChar d := by
  induction n using Nat.strongRecOn with
  | ind n ih =>
    by_cases hn : n < base
    · rw [Nat.toDigits_of_lt_base hn] at h
      exact ⟨n, List.mem_singleton.mp h⟩
    · rw [Nat.toDigits_of_base_le hbase (by omega)] at h
      rcases List.mem_append.mp h with hinit | hlast
      · exact ih (n / base) (Nat.div_lt_self (by omega) hbase) hinit
      · exact ⟨n % base, List.mem_singleton.mp hlast⟩

/-- After its backslash a code point escape holds neither quotes nor backslashes. -/
theorem plain_of_mem_tail_codePointEscape {c d : Char} (h : d ∈ (codePointEscape c).tail) :
    d ≠ '"' ∧ d ≠ '\\' := by
  simp only [codePointEscape, List.tail_cons, List.mem_cons, List.mem_append, List.not_mem_nil,
    or_false] at h
  rcases h with rfl | rfl | hdigit | rfl
  · decide
  · decide
  · obtain ⟨n, rfl⟩ := exists_digitChar_of_mem_toDigits (by decide) hdigit
    exact ⟨Nat.digitChar_ne '"' (by decide), Nat.digitChar_ne '\\' (by decide)⟩
  · decide

theorem textAt_codePointEscape (c : Char) {source text rest : List Char}
    (h : TextAt source text rest) :
    TextAt (codePointEscape c ++ source) ((codePointEscape c).tail ++ text) rest := by
  have hplain : ∀ d ∈ (codePointEscape c).tail.tail, d ≠ '"' ∧ d ≠ '\\' := fun d hd =>
    plain_of_mem_tail_codePointEscape (List.mem_of_mem_tail hd)
  exact .escape (.itself (by decide)) (h.append_plain hplain)

/-- The way a character is written begins a quoted text with what it is read back as. -/
theorem textAt_quotedChar (c : Char) {source text rest : List Char} (h : TextAt source text rest) :
    TextAt (quotedChar c ++ source) (charReadBack c ++ text) rest := by
  have hwritten := writtenAs_quotedChar c
  generalize hq : quotedChar c = written at hwritten
  cases hwritten with
  | itself hquote hslash =>
    rw [charReadBack, if_neg (not_shownByCodePoint_of_length_lt (by simp [hq]))]
    exact .plain hquote hslash h
  | escape _ hescape =>
    rw [charReadBack, if_neg (not_shownByCodePoint_of_length_lt (by simp [hq]))]
    exact .escape hescape h
  | codePoint =>
    have hshown : ShownByCodePoint c := hq
    rw [charReadBack, if_pos hshown]
    exact textAt_codePointEscape c h

/-- What a text is read back as. -/
def textReadBack (text : String) : String := String.ofList (text.toList.flatMap charReadBack)

theorem textAt_quoted (text : String) (rest : List Char) :
    ∃ source, (quoted text).toList ++ rest = '"' :: source ∧
      TextAt source (text.toList.flatMap charReadBack) rest := by
  refine ⟨text.toList.flatMap quotedChar ++ '"' :: rest, by simp [quoted], ?_⟩
  induction text.toList with
  | nil => exact .close
  | cons c cs ih =>
    rw [List.flatMap_cons, List.flatMap_cons, List.append_assoc]
    exact textAt_quotedChar c ih

/-! ## Texts that are read back unchanged -/

theorem length_le_length_flatMap_charReadBack (cs : List Char) :
    cs.length ≤ (cs.flatMap charReadBack).length := by
  induction cs with
  | nil => simp
  | cons c cs ih =>
    have hpos : 1 ≤ (charReadBack c).length := by
      unfold charReadBack
      split
      · have hlength := four_le_length_codePointEscape c
        rw [List.length_tail]
        omega
      · exact Nat.le_refl 1
    rw [List.flatMap_cons, List.length_append, List.length_cons]
    omega

theorem flatMap_charReadBack_eq_iff {cs : List Char} :
    cs.flatMap charReadBack = cs ↔ ∀ c ∈ cs, ¬ ShownByCodePoint c := by
  induction cs with
  | nil => simp
  | cons c cs ih =>
    rw [List.flatMap_cons, List.forall_mem_cons]
    by_cases hc : ShownByCodePoint c
    · -- The escape of one character is longer than the character, and nothing gets shorter.
      have hne : charReadBack c ++ cs.flatMap charReadBack ≠ c :: cs := by
        intro heq
        have hlength := congrArg List.length heq
        have hescape := four_le_length_codePointEscape c
        have hrest := length_le_length_flatMap_charReadBack cs
        rw [charReadBack, if_pos hc, List.length_append, List.length_tail, List.length_cons]
          at hlength
        omega
      exact iff_of_false hne fun h => h.1 hc
    · rw [charReadBack, if_neg hc, List.singleton_append, List.cons.injEq, ih]
      simp [hc]

theorem textReadBack_eq_iff {text : String} :
    textReadBack text = text ↔ ∀ c ∈ text.toList, ¬ ShownByCodePoint c := by
  rw [← flatMap_charReadBack_eq_iff, textReadBack, ← String.toList_inj, String.toList_ofList]

end Literal

end ClauseMatch
