import ClauseMatch.Proofs.Literal.Diagnosis

/-!
# Integers in two notations

Every integer can be spelled in decimal and in hexadecimal notation, in both with a minus sign, with
leading zeros and with underscores among the digits. `Spells` says what a run of digits means by its
last digit, without the scanner that finds the run. A literal with one such spelling and nothing
else is read as the integer when 64 bits hold it and is rejected otherwise. The one integer that the
notations treat differently is the least one, whose magnitude is out of range before the sign is
applied to it.
-/

namespace ClauseMatch.Literal

variable {base m : Nat} {negative : Bool} {run spelling source rest : List Char} {place : Nat}

/-! ## Digits -/

/-- A run of digits of either case, with underscores among them, and the number that it means. -/
inductive Spells (base : Nat) : List Char → Nat → Prop where
  | nil : Spells base [] 0
  | digit {run : List Char} {m d : Nat} {c : Char} :
      Spells base run m → d < base → c = Nat.digitChar d ∨ c = (Nat.digitChar d).toUpper →
      Spells base (run ++ [c]) (m * base + d)
  | gap {run : List Char} {m : Nat} : Spells base run m → Spells base (run ++ ['_']) m

theorem digitValue_digitChar {d : Nat} {c : Char} (hd : d < 16)
    (hc : c = Nat.digitChar d ∨ c = (Nat.digitChar d).toUpper) :
    digitValue c = d ∧ c ≠ '_' ∧ isHexDigit c = true := by
  have hlower : ∀ d < 16, digitValue (Nat.digitChar d) = d ∧ Nat.digitChar d ≠ '_' ∧
      isHexDigit (Nat.digitChar d) = true := by decide
  have hupper : ∀ d < 16, digitValue (Nat.digitChar d).toUpper = d ∧
      (Nat.digitChar d).toUpper ≠ '_' ∧ isHexDigit (Nat.digitChar d).toUpper = true := by decide
  rcases hc with rfl | rfl
  · exact hlower d hd
  · exact hupper d hd

theorem isDigit_digitChar {d : Nat} {c : Char} (hd : d < 10)
    (hc : c = Nat.digitChar d ∨ c = (Nat.digitChar d).toUpper) : c.isDigit = true := by
  have hdigit : ∀ d < 10, (Nat.digitChar d).isDigit = true ∧
      (Nat.digitChar d).toUpper.isDigit = true := by decide
  rcases hc with rfl | rfl
  · exact (hdigit d hd).1
  · exact (hdigit d hd).2

theorem natOfDigits_append_singleton (base : Nat) (digits : List Char) (c : Char) :
    natOfDigits base (digits ++ [c]) = natOfDigits base digits * base + digitValue c := by
  rw [natOfDigits, List.foldl_append]
  rfl

theorem Spells.natOfDigits_eq (h : Spells base run m) (hbase : base ≤ 16) :
    natOfDigits base (withoutGaps run) = m := by
  induction h with
  | nil => rfl
  | @digit run m d c _ hd hc ih =>
    obtain ⟨hvalue, hgap, -⟩ := digitValue_digitChar (Nat.lt_of_lt_of_le hd hbase) hc
    have hkept : withoutGaps (run ++ [c]) = withoutGaps run ++ [c] := by
      simp [withoutGaps, hgap]
    rw [hkept, natOfDigits_append_singleton, ih, hvalue]
  | @gap run m _ ih =>
    have hkept : withoutGaps (run ++ ['_']) = withoutGaps run := by simp [withoutGaps]
    rw [hkept, ih]

/-- Every hexadecimal digit is the one of its value, in lower or in upper case. -/
theorem eq_digitChar {c : Char} (h : isHexDigit c = true) :
    c = Nat.digitChar (digitValue c) ∨ c = (Nat.digitChar (digitValue c)).toUpper := by
  have hascii : ∀ n < 128, isHexDigit (Char.ofNat n) = true →
      Char.ofNat n = Nat.digitChar (digitValue (Char.ofNat n)) ∨
        Char.ofNat n = (Nat.digitChar (digitValue (Char.ofNat n))).toUpper := by decide
  have hname : isNameChar c = true :=
    isNameChar_of_isHexDigitOrGap (by rw [isHexDigitOrGap, h, Bool.true_or])
  have hc := hascii c.toNat (toNat_lt_of_isNameChar hname)
  rw [Char.ofNat_toNat] at hc
  exact hc h

/-- A run goes on with any digits of the base. -/
theorem Spells.append {front : List Char} (h : Spells base front m)
    (hrun : ∀ c ∈ run, c ≠ '_' → isHexDigit c = true ∧ digitValue c < base) :
    Spells base (front ++ run)
      ((withoutGaps run).foldl (fun n c => n * base + digitValue c) m) := by
  induction run generalizing front m with
  | nil => rwa [List.append_nil]
  | cons c run ih =>
    have hmore : ∀ c ∈ run, c ≠ '_' → isHexDigit c = true ∧ digitValue c < base :=
      fun d hd => hrun d (List.mem_cons_of_mem c hd)
    rw [List.append_cons]
    by_cases hgap : c = '_'
    · have hskip : withoutGaps (c :: run) = withoutGaps run := by simp [withoutGaps, hgap]
      rw [hskip, hgap]
      exact ih h.gap hmore
    · have hkept : withoutGaps (c :: run) = c :: withoutGaps run := by simp [withoutGaps, hgap]
      obtain ⟨hdigit, hvalue⟩ := hrun c List.mem_cons_self hgap
      rw [hkept, List.foldl_cons]
      exact ih (h.digit hvalue (eq_digitChar hdigit)) hmore

/-- Every run of digits of a base spells a number. -/
theorem spells_natOfDigits
    (hrun : ∀ c ∈ run, c ≠ '_' → isHexDigit c = true ∧ digitValue c < base) :
    Spells base run (natOfDigits base (withoutGaps run)) :=
  Spells.nil.append hrun

/-- Every character of the run is a digit, of which a class of characters is made, or a gap. -/
theorem Spells.within {p : Char → Bool} (h : Spells base run m) (hgap : p '_' = true)
    (hdigit : ∀ {d : Nat} {c : Char}, d < base →
      c = Nat.digitChar d ∨ c = (Nat.digitChar d).toUpper → p c = true) :
    ∀ c ∈ run, p c = true := by
  induction h with
  | nil => simp
  | digit _ hd hc ih =>
    intro c' hc'
    rcases List.mem_append.mp hc' with hrun | hlast
    · exact ih c' hrun
    · obtain rfl := List.mem_singleton.mp hlast
      exact hdigit hd hc
  | gap _ ih =>
    intro c' hc'
    rcases List.mem_append.mp hc' with hrun | hlast
    · exact ih c' hrun
    · obtain rfl := List.mem_singleton.mp hlast
      exact hgap

theorem Spells.isDigitOrGap (h : Spells 10 run m) : ∀ c ∈ run, isDigitOrGap c = true :=
  h.within (by decide) fun hd hc => isDigitOrGap_of_isDigit (isDigit_digitChar hd hc)

theorem Spells.isHexDigitOrGap (h : Spells 16 run m) : ∀ c ∈ run, isHexDigitOrGap c = true :=
  h.within (by decide) fun hd hc => by
    rw [Literal.isHexDigitOrGap, (digitValue_digitChar hd hc).2.2, Bool.true_or]

/-! ## Spellings -/

/-- The spellings of an integer in decimal notation; an underscore does not come first. -/
inductive DecimalSpelling : Int → List Char → Prop where
  | intro {negative : Bool} {run : List Char} {m : Nat} :
      Spells 10 run m → (∃ c ∈ run.head?, c ≠ '_') →
      DecimalSpelling (signedInt negative m) (signChars negative ++ run)

/-- The spellings of an integer in hexadecimal notation, with at least one digit. -/
inductive HexadecimalSpelling : Int → List Char → Prop where
  | intro {negative : Bool} {run : List Char} {m : Nat} :
      Spells 16 run m → (∃ c ∈ run, c ≠ '_') →
      HexadecimalSpelling (signedInt negative m) (signChars negative ++ '0' :: 'x' :: run)

theorem withoutGaps_ne_nil (h : ∃ c ∈ run, c ≠ '_') : withoutGaps run ≠ [] := by
  obtain ⟨c, hc, hne⟩ := h
  exact List.ne_nil_of_mem (List.mem_filter.mpr ⟨hc, by simpa using hne⟩)

theorem NumberSpelling.chars_eq (n : NumberSpelling) :
    n.chars = signChars n.negative ++ n.body.chars := by
  unfold NumberSpelling.chars
  cases n.negative <;> rfl

/-- A number that is scanned as a whole wherever nothing follows that could continue it. -/
structure NumberSpelling.ScansWhole (n : NumberSpelling) : Prop where
  begins : BeginsNumber n.negative n.body.chars
  scan : ∀ rest, Ends rest → scanBody (n.body.chars ++ rest) = (n.body, rest)

theorem BeginsNumber.append (h : BeginsNumber negative source) (rest : List Char) :
    BeginsNumber negative (source ++ rest) := by
  rcases h with h | ⟨c, hc, hdigit⟩
  · exact Or.inl h
  · exact Or.inr ⟨c, List.mem_head?_append_of_mem_head? hc, hdigit⟩

theorem NumberSpelling.ScansWhole.scanNumber_eq {n : NumberSpelling} (h : n.ScansWhole)
    (hrest : Ends rest) : scanNumber (n.chars ++ rest) = (n, rest) := by
  rw [n.chars_eq, List.append_assoc, scanNumber_signChars (h.begins.append rest), h.scan rest hrest]

theorem Ends.not_head {p : Char → Bool} (h : Ends rest)
    (hp : ∀ c, p c = true → isNameChar c = true) : ∀ c ∈ rest.head?, p c = false := by
  refine fun c hc => Bool.eq_false_iff.mpr fun hpc => ?_
  have hname := (h c hc).1
  rw [hp c hpc] at hname
  exact Bool.noConfusion hname

/-- A run of characters of a number is the longest one where the number ends. -/
theorem Ends.longestRun {p : Char → Bool} (h : Ends rest)
    (hp : ∀ c, p c = true → isNameChar c = true) (hrun : ∀ c ∈ run, p c = true) :
    LongestRun p (run ++ rest) run rest :=
  ⟨rfl, hrun, h.not_head hp⟩

theorem DecimalSpelling.exists_number {n : Int} (h : DecimalSpelling n spelling) :
    ∃ (number : NumberSpelling) (m : Nat), number.ScansWhole ∧ number.chars = spelling ∧
      n = signedInt number.negative m ∧
      number.denotation? = (int64OfMagnitude? number.negative m).map .integer := by
  obtain @⟨negative, run, m, hrun, c, hc, hne⟩ := h
  have hmem := List.mem_of_mem_head? hc
  have hdigit : c.isDigit = true := by
    have hwithin := hrun.isDigitOrGap c hmem
    rw [isDigitOrGap, Bool.or_eq_true, beq_iff_eq] at hwithin
    exact hwithin.resolve_right hne
  have hchars : (NumberBody.decimal run none none).chars = run := by simp [NumberBody.chars]
  refine ⟨⟨negative, .decimal run none none⟩, m, ⟨?_, fun rest hrest => ?_⟩, ?_, rfl, ?_⟩
  · exact Or.inr ⟨c, by rwa [hchars], hdigit⟩
  · have hlongest : LongestRun isDigitOrGap (run ++ rest) run rest :=
      hrest.longestRun (fun _ => isNameChar_of_isDigitOrGap) hrun.isDigitOrGap
    obtain ⟨spelling, hscan, hspelling⟩ :=
      exists_scanBody_eq hlongest .absent .absent hrest fun _ _ h => by simp at h
    obtain rfl := Option.map_eq_none_iff.mp hspelling
    rwa [hchars]
  · rw [NumberSpelling.chars_eq, hchars]
  · have hempty := List.isEmpty_eq_false_iff.mpr (withoutGaps_ne_nil ⟨c, hmem, hne⟩)
    simp only [NumberSpelling.denotation?, hempty, Bool.false_eq_true, if_false,
      hrun.natOfDigits_eq (by decide)]

theorem HexadecimalSpelling.exists_number {n : Int} (h : HexadecimalSpelling n spelling) :
    ∃ (number : NumberSpelling) (m : Nat), number.ScansWhole ∧ number.chars = spelling ∧
      n = signedInt number.negative m ∧
      number.denotation? =
        if 1 <<< 63 ≤ m then none else (int64OfMagnitude? number.negative m).map .integer := by
  obtain @⟨negative, run, m, hrun, hdigits⟩ := h
  refine ⟨⟨negative, .hexadecimal run⟩, m, ⟨Or.inr ⟨'0', rfl, rfl⟩, fun rest hrest => ?_⟩, ?_, rfl, ?_⟩
  · have hlongest : LongestRun isHexDigitOrGap (run ++ rest) run rest :=
      hrest.longestRun (fun _ => isNameChar_of_isHexDigitOrGap) hrun.isHexDigitOrGap
    show scanBody ('0' :: 'x' :: (run ++ rest)) = _
    simp only [scanBody, hlongest.takeWhile_eq, hlongest.dropWhile_eq]
  · rw [NumberSpelling.chars_eq]
    rfl
  · have hempty := List.isEmpty_eq_false_iff.mpr (withoutGaps_ne_nil hdigits)
    simp only [NumberSpelling.denotation?, hempty, Bool.false_eq_true, false_or,
      hrun.natOfDigits_eq (by decide)]

/-! ## A literal with a number alone -/

/-- A source whose only segment is spelled as given, with nothing but blanks beside it, and the
place where the spelling begins. -/
inductive OnlySegment (spelling : List Char) : List Char → Nat → Prop where
  | intro {before inside stop finish : List Char} :
      Blanks (before ++ (spelling ++ stop)) ('<' :: '<' :: inside) →
      Blanks inside (spelling ++ stop) →
      Blanks stop ('>' :: '>' :: finish) →
      Blanks finish [] →
      OnlySegment spelling (before ++ (spelling ++ stop)) (byteLength before)

theorem NumberSpelling.ScansWhole.head {n : NumberSpelling} (h : n.ScansWhole)
    (rest : List Char) : ∃ c ∈ (n.chars ++ rest).head?, c = '-' ∨ c.isDigit = true := by
  rw [n.chars_eq, List.append_assoc]
  exact (h.begins.append rest).head

/-- When the number denotes an integer, this is the only segment. -/
theorem OnlySegment.parse_eq_ok {source : String} {n : NumberSpelling} {k : Int64}
    (h : OnlySegment n.chars source.toList place) (hscan : n.ScansWhole)
    (hk : n.denotation? = some (.integer k)) : parse source = .ok [.integer k] := by
  generalize hsource : source.toList = text at h
  obtain ⟨hopen, hinside, hstop, hfinish⟩ := h
  rename_i inside stop finish
  have hends : Ends stop := (hstop.follows (by simp)).ends
  have hread : readNumber (n.chars ++ stop) = .ok (.integer k, stop) := by
    simp only [readNumber, hscan.scanNumber_eq hends, hk]
  have hinteger : IntegerAt (n.chars ++ stop) k stop :=
    readNumber_sound (hscan.head stop) hread
  have hsegment : SegmentAt (n.chars ++ stop) (.integer k) stop :=
    .intro (.integer hinteger) .absent rfl (.untypedInteger k)
  rw [Literal.parse_eq_ok, readSource_eq_ok_iff, hsource]
  exact .intro hopen (.segments hinside (.last hsegment) hstop) hfinish

theorem ne_opening_of_number (h : ∃ c ∈ source.head?, c = '-' ∨ c.isDigit = true) :
    '<' ∉ source.head? := by
  obtain ⟨c, hc, hbegins⟩ := h
  intro hopening
  obtain rfl := Option.mem_unique hopening hc
  simp at hbegins

theorem run_scalar_error {failure : Failure} (h : readScalar source = .error failure)
    (hopening : '<' ∉ source.head?) (current : OpenLiteral) (outer : List OpenLiteral) :
    (Reader.mk .value current outer source).run = .error failure := by
  rw [Reader.run_eq]
  simp only [Reader.step]
  split
  · exact absurd rfl hopening
  · exact absurd rfl hopening
  · rw [h]
    rfl

/-- A scalar that is not read is reported where it begins, if it is the first value. -/
theorem parse_eq_error_of_scalar {source : String} {before inside start : List Char} {fault : Fault}
    (htext : source.toList = before ++ start) (hopen : Blanks source.toList ('<' :: '<' :: inside))
    (hinside : Blanks inside start) (hbegins : BeginsValue start) (hopening : '<' ∉ start.head?)
    (hscalar : readScalar start = .error ⟨fault, start⟩) :
    parse source = .error ⟨fault, byteLength before⟩ := by
  have hliteral : readLiteral source.toList = .error ⟨fault, start⟩ := by
    simp only [readLiteral, hopen.skipBlank_eq (not_head_cons (by decide) _), openLiteral,
      hinside.skipBlank_eq hbegins.not_blank]
    obtain ⟨c, hc, -, hne⟩ := hbegins
    split
    · obtain rfl : '>' = c := by simpa using hc
      exact absurd rfl hne
    · exact run_scalar_error hscalar hopening _ _
  simp only [parse, readSource, hliteral]
  rw [Failure.toParseError, htext, byteLength_append, Nat.add_sub_cancel]

/-- When the number denotes nothing, it is reported where it begins. -/
theorem OnlySegment.parse_eq_error {source : String} {n : NumberSpelling}
    (h : OnlySegment n.chars source.toList place) (hscan : n.ScansWhole)
    (hnone : n.denotation? = none) :
    parse source = .error ⟨.invalidNumber (String.ofList n.chars), place⟩ := by
  generalize hsource : source.toList = text at h
  obtain ⟨hopen, hinside, hstop, -⟩ := h
  rename_i before inside stop finish
  have hscalar : readScalar (n.chars ++ stop) =
      .error ⟨.invalidNumber (String.ofList n.chars), n.chars ++ stop⟩ := by
    have hends : Ends stop := (hstop.follows (by simp)).ends
    rw [readScalar_of_begins (hscan.head stop)]
    simp only [readNumber, hscan.scanNumber_eq hends, hnone]
    rfl
  exact parse_eq_error_of_scalar hsource (hsource ▸ hopen) hinside
    (beginsValue_of_number (hscan.head stop)) (ne_opening_of_number (hscan.head stop)) hscalar

/-! ## Both notations -/

/-- A source is read as an integer, if 64 bits hold it, and is otherwise rejected for its spelling
at the given place. -/
structure ReadsAs (source : String) (n : Int) (spelling : List Char) (place : Nat) : Prop where
  inside : ∀ k : Int64, k.toInt = n → parse source = .ok [.integer k]
  outside : (∀ k : Int64, k.toInt ≠ n) →
    parse source = .error ⟨.invalidNumber (String.ofList spelling), place⟩

theorem int64OfMagnitude?_eq_none (h : ∀ k : Int64, k.toInt ≠ signedInt negative m) :
    int64OfMagnitude? negative m = none :=
  Option.eq_none_iff_forall_ne_some.mpr fun k hk => h k (int64OfMagnitude?_eq_some_iff.mp hk)

theorem DecimalSpelling.readsAs {source : String} {n : Int} (h : DecimalSpelling n spelling)
    (honly : OnlySegment spelling source.toList place) : ReadsAs source n spelling place := by
  obtain ⟨number, m, hscan, rfl, rfl, hdenotes⟩ := h.exists_number
  refine ⟨fun k hk => ?_, fun hrange => ?_⟩
  · refine honly.parse_eq_ok hscan ?_
    rw [hdenotes, int64OfMagnitude?_eq_some_iff.mpr hk, Option.map_some]
  · refine honly.parse_eq_error hscan ?_
    rw [hdenotes, int64OfMagnitude?_eq_none hrange, Option.map_none]

/-- A magnitude with 64 bits belongs to the least integer or to one that is out of range. -/
theorem eq_minValue_of_le {k : Int64} (hm : 1 <<< 63 ≤ m) (hk : k.toInt = signedInt negative m) :
    k = Int64.minValue := by
  have hlow := k.le_toInt
  have hhigh := k.toInt_lt
  rw [← Int64.toInt_inj, show Int64.minValue.toInt = -9223372036854775808 from by decide]
  cases negative <;> simp only [signedInt, Bool.false_eq_true, if_false, if_true] at hk <;> omega

theorem HexadecimalSpelling.readsAs {source : String} {n : Int}
    (h : HexadecimalSpelling n spelling) (hn : n ≠ Int64.minValue.toInt)
    (honly : OnlySegment spelling source.toList place) : ReadsAs source n spelling place := by
  obtain ⟨number, m, hscan, rfl, rfl, hdenotes⟩ := h.exists_number
  refine ⟨fun k hk => ?_, fun hrange => ?_⟩
  · refine honly.parse_eq_ok hscan ?_
    have hm : ¬ 1 <<< 63 ≤ m := fun hm => hn (eq_minValue_of_le hm hk ▸ hk.symm)
    rw [hdenotes, if_neg hm, int64OfMagnitude?_eq_some_iff.mpr hk, Option.map_some]
  · refine honly.parse_eq_error hscan ?_
    rw [hdenotes, int64OfMagnitude?_eq_none hrange, Option.map_none, ite_self]

theorem HexadecimalSpelling.parse_minValue {source : String}
    (h : HexadecimalSpelling Int64.minValue.toInt spelling)
    (honly : OnlySegment spelling source.toList place) :
    parse source = .error ⟨.invalidNumber (String.ofList spelling), place⟩ := by
  obtain ⟨number, m, hscan, rfl, hm, hdenotes⟩ := h.exists_number
  have hle : 1 <<< 63 ≤ m := by
    rw [show Int64.minValue.toInt = -9223372036854775808 from by decide] at hm
    cases hnegative : number.negative <;>
      simp only [hnegative, signedInt, Bool.false_eq_true, if_false, if_true] at hm <;> omega
  refine honly.parse_eq_error hscan ?_
  rw [hdenotes, if_pos hle]

/-- With a literal's only segment, decimal notation spells every integer of 64 bits and hexadecimal
notation every one but the least; what is out of range is rejected in both, and so is the least
integer in hexadecimal notation. No spelling is read as another integer. -/
theorem notations_differ_at_the_least_integer_only {source : String}
    (honly : OnlySegment spelling source.toList place) (n : Int) :
    (DecimalSpelling n spelling → ReadsAs source n spelling place) ∧
      (HexadecimalSpelling n spelling → n ≠ Int64.minValue.toInt →
        ReadsAs source n spelling place) ∧
      (HexadecimalSpelling n spelling → n = Int64.minValue.toInt →
        parse source = .error ⟨.invalidNumber (String.ofList spelling), place⟩) := by
  refine ⟨fun h => h.readsAs honly, fun h hn => h.readsAs hn honly, ?_⟩
  rintro h rfl
  exact h.parse_minValue honly

theorem notations_differ_at_the_least_integer_only_mixed_case :
    HexadecimalSpelling (-255) "-0x00_fF".toList ∧
      OnlySegment "-0x00_fF".toList "<< -0x00_fF >>".toList 3 ∧
      parse "<< -0x00_fF >>" = .ok [.integer (-255)] := by
  have hrun : ∀ c ∈ "00_fF".toList, c ≠ '_' → isHexDigit c = true ∧ digitValue c < 16 := by
    simp [isHexDigit, digitValue]
  have hspelling : HexadecimalSpelling (-255) "-0x00_fF".toList :=
    @HexadecimalSpelling.intro true _ _ (spells_natOfDigits hrun) ⟨'0', by decide, by decide⟩
  have honly : OnlySegment "-0x00_fF".toList "<< -0x00_fF >>".toList 3 :=
    @OnlySegment.intro _ "<< ".toList " -0x00_fF >>".toList " >>".toList [] (.refl _)
      (blanks_space _) (blanks_space _) (.refl _)
  have hread := (notations_differ_at_the_least_integer_only honly (-255)).2.1 hspelling (by decide)
  exact ⟨hspelling, honly, hread.inside (-255) (by decide)⟩

/-- The least integer is read in decimal notation, and rejected in hexadecimal notation. -/
theorem not_readsAs_least_integer :
    HexadecimalSpelling Int64.minValue.toInt "-0x8000000000000000".toList ∧
      OnlySegment "-0x8000000000000000".toList "<<-0x8000000000000000>>".toList 2 ∧
      parse "<<-9223372036854775808>>" = .ok [.integer Int64.minValue] ∧
      ¬ ReadsAs "<<-0x8000000000000000>>" Int64.minValue.toInt "-0x8000000000000000".toList 2 := by
  have hrun : ∀ c ∈ "8000000000000000".toList, c ≠ '_' →
      isHexDigit c = true ∧ digitValue c < 16 := by
    simp [isHexDigit, digitValue]
  refine ⟨?_, ?_, ?_, fun h => ?_⟩
  · exact @HexadecimalSpelling.intro true _ _ (spells_natOfDigits hrun) ⟨'0', by decide, by decide⟩
  · exact @OnlySegment.intro _ "<<".toList "-0x8000000000000000>>".toList ">>".toList [] (.refl _)
      (.refl _) (.refl _) (.refl _)
  · with_unfolding_all rfl
  · have herror : parse "<<-0x8000000000000000>>" =
        .error ⟨.invalidNumber "-0x8000000000000000", 2⟩ := by
      with_unfolding_all rfl
    rw [h.inside Int64.minValue rfl] at herror
    simp at herror

end ClauseMatch.Literal
