import ClauseMatch.Proofs.Literal.Reading

/-!
# Decimal text as source

The decimal text of an integer is a phrase of the grammar that denotes this integer, whatever comes
after it, unless that begins with a digit or an underscore. Phrases of segments in a row, with
commas between them, make up a literal; so the text of a sequence of integers is a literal that
denotes one plain integer segment for each of them.
-/

namespace ClauseMatch.Literal

variable {rest : List Char}

/-! ## Digits -/

theorem digitValue_of_isDigit {c : Char} (h : c.isDigit = true) :
    digitValue c = c.toNat - '0'.toNat := by
  have hrange : '0' ≤ c ∧ c ≤ '9' := by
    simpa [Char.isDigit, Char.le_def] using h
  rw [digitValue, if_pos hrange]

/-- Decimal digits denote the same number here as in the standard library. -/
theorem natOfDigits_eq_ofDigitChars {digits : List Char}
    (h : ∀ c ∈ digits, c.isDigit = true) :
    natOfDigits 10 digits = Nat.ofDigitChars 10 digits 0 := by
  have hfold : ∀ n, digits.foldl (fun n c => n * 10 + digitValue c) n =
      Nat.ofDigitChars 10 digits n := by
    induction digits with
    | nil => simp
    | cons c digits ih =>
      intro n
      rw [List.foldl_cons, Nat.ofDigitChars_cons, ih fun d hd => h d (by simp [hd]),
        digitValue_of_isDigit (h c (by simp)), Nat.mul_comm]
  exact hfold 0

theorem isDigit_of_mem_toDigits {n : Nat} {c : Char} (h : c ∈ Nat.toDigits 10 n) :
    c.isDigit = true :=
  Nat.isDigit_of_mem_toDigits (by decide) (by decide) h

theorem natOfDigits_toDigits (n : Nat) : natOfDigits 10 (Nat.toDigits 10 n) = n := by
  rw [natOfDigits_eq_ofDigitChars fun _ => isDigit_of_mem_toDigits]
  exact Nat.ofDigitChars_ten_toDigits

/-- Digits have no gaps to be left out. -/
theorem withoutGaps_of_isDigit {digits : List Char} (h : ∀ c ∈ digits, c.isDigit = true) :
    withoutGaps digits = digits := by
  refine List.filter_eq_self.mpr fun c hc => ?_
  have hne : c ≠ '_' := by
    rintro rfl
    simpa using h _ hc
  simpa using hne

/-! ## Integers -/

/-- The decimal text of an integer is its sign and the digits of its magnitude. -/
theorem toList_toString_int (n : Int) :
    (toString n).toList = signChars (decide (n < 0)) ++ Nat.toDigits 10 n.natAbs := by
  rw [Int.toString_eq_repr, Int.repr_eq_if]
  split
  · rename_i hnonneg
    have hsign : decide (n < 0) = false := decide_eq_false (by omega)
    rw [Nat.toList_repr, hsign, show n.natAbs = n.toNat by omega]
    rfl
  · rename_i hneg
    have hsign : decide (n < 0) = true := decide_eq_true (by omega)
    rw [String.toList_append, Nat.toList_repr, hsign, show n.natAbs = (-n).toNat by omega]
    rfl

theorem signedInt_natAbs (n : Int) : signedInt (decide (n < 0)) n.natAbs = n := by
  unfold signedInt
  split <;> rename_i hsign <;> simp only [decide_eq_true_eq] at hsign <;> omega

theorem beginsNumber_of_isDigit {digits : List Char} (hne : digits ≠ [])
    (h : ∀ c ∈ digits, c.isDigit = true) (negative : Bool) (rest : List Char) :
    BeginsNumber negative (digits ++ rest) := by
  obtain ⟨c, more, rfl⟩ := List.exists_cons_of_ne_nil hne
  exact Or.inr ⟨c, rfl, h c List.mem_cons_self⟩

/-- The decimal text of an integer denotes it. -/
theorem integerAt_toString (n : Int64) (hrest : ∀ c ∈ rest.head?, isDigitOrGap c = false) :
    IntegerAt ((toString n.toInt).toList ++ rest) n rest := by
  have hdigits : ∀ c ∈ Nat.toDigits 10 n.toInt.natAbs, c.isDigit = true :=
    fun _ => isDigit_of_mem_toDigits
  have hne : Nat.toDigits 10 n.toInt.natAbs ≠ [] := Nat.toDigits_ne_nil
  rw [toList_toString_int, List.append_assoc]
  refine .decimal (beginsNumber_of_isDigit hne hdigits _ rest) ⟨rfl, ?_, hrest⟩ ?_ ?_
  · exact fun c hc => isDigitOrGap_of_isDigit (hdigits c hc)
  · rwa [withoutGaps_of_isDigit hdigits]
  · rw [withoutGaps_of_isDigit hdigits, natOfDigits_toDigits, signedInt_natAbs]

theorem segmentAt_toString (n : Int64) (hrest : ∀ c ∈ rest.head?, isDigitOrGap c = false) :
    SegmentAt ((toString n.toInt).toList ++ rest) (.integer n) rest :=
  .intro (.integer (integerAt_toString n hrest)) .absent rfl (.untypedInteger n)

/-! ## Segments in a row -/

theorem blanks_space (source : List Char) : Blanks (' ' :: source) source :=
  ⟨[' '], List.all_eq_true.mp (by decide), rfl⟩

/-- Phrases of segments with commas between them are a phrase of all these segments. -/
theorem segmentsAt_intercalate {α : Type} {text : α → List Char} {meaning : α → Segment}
    {item : α} {items : List α}
    (h : ∀ a ∈ item :: items, ∀ rest, EndsSegment rest → SegmentAt (text a ++ rest) (meaning a) rest)
    (hrest : EndsSegment rest) :
    SegmentsAt ([',', ' '].intercalate ((item :: items).map text) ++ rest)
      ((item :: items).map meaning) rest := by
  induction items generalizing item with
  | nil =>
    rw [List.map_singleton, List.intercalate_singleton]
    exact .last (h item List.mem_cons_self rest hrest)
  | cons next items ih =>
    have hcomma : EndsSegment
        (',' :: ' ' :: ([',', ' '].intercalate ((next :: items).map text) ++ rest)) :=
      ⟨',', rfl, Or.inl rfl⟩
    have hsplit : [',', ' '].intercalate ((item :: next :: items).map text) ++ rest =
        text item ++ ',' :: ' ' :: ([',', ' '].intercalate ((next :: items).map text) ++ rest) := by
      simp [List.intercalate_cons_cons]
    have htail := ih fun a ha => h a (List.mem_cons_of_mem item ha)
    rw [hsplit]
    exact .cons (h item List.mem_cons_self _ hcomma) (.refl _) (blanks_space _) htail

/-- Between double angle brackets they are a literal. -/
theorem literalAt_intercalate {α : Type} {text : α → List Char} {meaning : α → Segment}
    {items : List α}
    (h : ∀ a ∈ items, ∀ rest, EndsSegment rest → SegmentAt (text a ++ rest) (meaning a) rest)
    (rest : List Char) :
    LiteralAt ('<' :: '<' :: ([',', ' '].intercalate (items.map text) ++ '>' :: '>' :: rest))
      (items.map meaning) rest := by
  cases items with
  | nil => exact .empty (.refl _)
  | cons item items =>
    have hclose : EndsSegment ('>' :: '>' :: rest) := ⟨'>', rfl, Or.inr rfl⟩
    exact .segments (.refl _) (segmentsAt_intercalate h hclose) (.refl _)

/-- A text that is a literal up to its end is read as what the literal denotes. -/
theorem LiteralAt.parse_eq {source : String} {segments : List Segment}
    (h : LiteralAt source.toList segments []) : parse source = .ok segments :=
  parse_eq_ok.mpr (readSource_eq_ok_iff.mpr (.intro (.refl _) h (.refl _)))

/-! ## Sequences -/

/-- The text of a sequence between its brackets. -/
def sequenceBody (values : List Int64) : List Char :=
  [',', ' '].intercalate (values.map fun v => (toString v.toInt).toList)

theorem toList_sequenceText (values : List Int64) :
    (sequenceText values).toList = '<' :: '<' :: (sequenceBody values ++ ['>', '>']) := by
  simp only [sequenceText, sequenceBody, String.toList_append, String.toList_intercalate,
    List.map_map]
  rfl

/-- The text of a sequence is a literal of plain integers. -/
theorem literalAt_sequenceText (values : List Int64) (rest : List Char) :
    LiteralAt ((sequenceText values).toList ++ rest) (values.map Segment.integer) rest := by
  have hitem : ∀ v ∈ values, ∀ rest, EndsSegment rest →
      SegmentAt ((toString v.toInt).toList ++ rest) (.integer v) rest := by
    intro v _ rest hrest
    exact segmentAt_toString v (hrest.not_head (by decide))
  have hliteral := literalAt_intercalate hitem rest
  rw [toList_sequenceText]
  simpa only [sequenceBody, List.cons_append, List.append_assoc, List.nil_append] using hliteral

theorem parse_sequenceText (values : List Int64) :
    parse (sequenceText values) = .ok (values.map Segment.integer) := by
  have hliteral := literalAt_sequenceText values []
  rw [List.append_nil] at hliteral
  exact hliteral.parse_eq

end ClauseMatch.Literal
