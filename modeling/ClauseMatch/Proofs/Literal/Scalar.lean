import ClauseMatch.Proofs.Literal.Lexeme

/-!
# Reading numbers and texts

Scanning a number splits it into parts, and each part is a phrase of the grammar: the longest run
of digits, the fraction, the exponent. In the other direction a phrase is scanned as a whole when
no character follows that could continue it, which is what `Ends` asks for.
-/

namespace ClauseMatch.Literal

variable {source rest stop : List Char}

/-! ## Signs and magnitudes -/

theorem int64OfMagnitude?_eq_some_iff {negative : Bool} {magnitude : Nat} {n : Int64} :
    int64OfMagnitude? negative magnitude = some n ↔ n.toInt = signedInt negative magnitude := by
  have hlow := n.le_toInt
  have hhigh := n.toInt_lt
  cases negative
  all_goals
    simp only [int64OfMagnitude?, signedInt, Bool.false_eq_true, if_false, if_true]
    constructor
    · intro h
      split at h
      · rw [Option.some.injEq] at h
        rw [← h, Int64.toInt_ofInt_of_le (by omega) (by omega)]
      · simp at h
    · intro h
      rw [if_pos (by omega), ← h, Int64.ofInt_toInt]

/-- No character follows that a number could go on with. -/
def Ends (rest : List Char) : Prop := ∀ c ∈ rest.head?, isNameChar c = false ∧ c ≠ '.'

/-! ## Parts of a number -/

theorem scanFraction_sound (source : List Char) :
    FractionAt source (scanFraction source).1 (scanFraction source).2 := by
  unfold scanFraction
  split
  · rename_i c rest
    split
    · rename_i hdigit
      exact .present hdigit (longestRun_takeWhile isDigitOrGap (c :: rest))
    · exact .absent
  · exact .absent

theorem FractionAt.scanFraction_eq {fraction : Option (List Char)}
    (h : FractionAt source fraction rest) (hpoint : fraction = none → '.' ∉ source.head?) :
    scanFraction source = (fraction, rest) := by
  cases h with
  | absent =>
    unfold scanFraction
    split
    · simp at hpoint
    · rfl
  | present hdigit hrun =>
    simp only [scanFraction, hdigit, if_true, hrun.takeWhile_eq, hrun.dropWhile_eq]

theorem scanSign_sound (source : List Char) :
    ExponentSignAt source ((scanSign source).1 == some '-') (scanSign source).2 := by
  unfold scanSign
  split
  · exact .plus
  · exact .minus
  · exact .absent

theorem scanExponent_sound (source : List Char) :
    ExponentAt source ((scanExponent source).1.map fun e => (e.sign == some '-', e.digits))
      (scanExponent source).2 := by
  unfold scanExponent
  split
  · exact .absent
  · rename_i c rest
    split
    · rename_i hmarker
      exact .present hmarker (scanSign_sound rest) (longestRun_takeWhile Char.isDigit _)
    · exact .absent

/-- Before a digit a sign is scanned exactly when there is one. -/
theorem ExponentSignAt.scanSign_eq {negative : Bool} (h : ExponentSignAt source negative rest)
    (hdigit : ∃ c ∈ rest.head?, c.isDigit = true) :
    ((scanSign source).1 == some '-') = negative ∧ (scanSign source).2 = rest := by
  cases h with
  | absent =>
    obtain ⟨c, hc, hdigit⟩ := hdigit
    unfold scanSign
    split
    · obtain rfl : '+' = c := by simpa using hc
      simp at hdigit
    · obtain rfl : '-' = c := by simpa using hc
      simp at hdigit
    · exact ⟨rfl, rfl⟩
  | plus => exact ⟨rfl, rfl⟩
  | minus => exact ⟨rfl, rfl⟩

/-- An exponent with digits is scanned as a whole. -/
theorem ExponentAt.scanExponent_eq {exponent : Option (Bool × List Char)}
    (h : ExponentAt source exponent rest) (hends : Ends rest)
    (hdigits : ∀ negative digits, exponent = some (negative, digits) → digits ≠ []) :
    (scanExponent source).1.map (fun e => (e.sign == some '-', e.digits)) = exponent ∧
      (scanExponent source).2 = rest := by
  cases h with
  | absent =>
    unfold scanExponent
    split
    · exact ⟨rfl, rfl⟩
    · rename_i c rest
      have hname := (hends c rfl).1
      split
      · rename_i hmarker
        rcases hmarker with rfl | rfl <;> simp [isNameChar] at hname
      · exact ⟨rfl, rfl⟩
  | @present marker negative source digits run rest hmarker hsign hrun =>
    obtain ⟨d, run', rfl⟩ := List.exists_cons_of_ne_nil (hdigits negative run rfl)
    have hdigit : ∃ c ∈ digits.head?, c.isDigit = true :=
      ⟨d, by rw [hrun.split]; rfl, hrun.within d (by simp)⟩
    obtain ⟨hnegative, hdigits⟩ := hsign.scanSign_eq hdigit
    simp only [scanExponent, hmarker, if_true, Option.map_some, hnegative, hdigits,
      hrun.takeWhile_eq, hrun.dropWhile_eq, and_self]

/-! ## Numbers -/

theorem exists_scanNumber_eq (h : ∃ c ∈ source.head?, c = '-' ∨ c.isDigit = true) :
    ∃ negative inner, BeginsNumber negative inner ∧ source = signChars negative ++ inner ∧
      scanNumber source = (⟨negative, (scanBody inner).1⟩, (scanBody inner).2) := by
  obtain ⟨c, hc, hbegins⟩ := h
  unfold scanNumber
  split
  · rename_i rest
    exact ⟨true, rest, Or.inl rfl, rfl, rfl⟩
  · rename_i hminus
    refine ⟨false, source, Or.inr ⟨c, hc, ?_⟩, rfl, rfl⟩
    rcases hbegins with rfl | hdigit
    · obtain ⟨tail, rfl⟩ := List.head?_eq_some_iff.mp hc
      exact absurd rfl (hminus tail)
    · exact hdigit

theorem scanNumber_signChars {negative : Bool} (h : BeginsNumber negative source) :
    scanNumber (signChars negative ++ source) =
      (⟨negative, (scanBody source).1⟩, (scanBody source).2) := by
  cases negative with
  | true => rfl
  | false =>
    rcases h with h | ⟨c, hc, hdigit⟩
    · simp at h
    · unfold scanNumber
      split
      · rename_i heq
        obtain rfl : '-' = c := by simpa [signChars, show source = _ from heq] using hc
        simp at hdigit
      · rfl

theorem scanBody_of_ne (h : ∀ digits, source ≠ '0' :: 'x' :: digits) :
    scanBody source =
      (.decimal (source.takeWhile isDigitOrGap) (scanFraction (source.dropWhile isDigitOrGap)).1
        (scanExponent (scanFraction (source.dropWhile isDigitOrGap)).2).1,
       (scanExponent (scanFraction (source.dropWhile isDigitOrGap)).2).2) := by
  unfold scanBody
  split
  · exact absurd rfl (h _)
  · rfl

/-- What a number denotes at the head of a source. -/
def NumberAt (source : List Char) : Number → List Char → Prop
  | .integer n, rest => IntegerAt source n rest
  | .float x, rest => FloatAt source x rest

theorem hexadecimal_sound {negative : Bool} {number : Number}
    (h : NumberSpelling.denotation? ⟨negative, .hexadecimal (source.takeWhile isHexDigitOrGap)⟩ =
      some number) :
    NumberAt (signChars negative ++ '0' :: 'x' :: source) number
      (source.dropWhile isHexDigitOrGap) := by
  simp only [NumberSpelling.denotation?] at h
  split at h
  · simp at h
  · rename_i hcond
    rw [not_or, List.isEmpty_iff, Nat.not_le] at hcond
    obtain ⟨n, hn, rfl⟩ := Option.map_eq_some_iff.mp h
    exact .hexadecimal (longestRun_takeWhile _ _) hcond.1 (by omega)
      (int64OfMagnitude?_eq_some_iff.mp hn)

theorem decimal_sound {negative : Bool} {number : Number} {whole point power : List Char}
    {fraction : Option (List Char)} {exponent : Option ExponentSpelling}
    (hbegins : BeginsNumber negative source)
    (hwhole : LongestRun isDigitOrGap source whole point)
    (hpoint : FractionAt point fraction power)
    (hpower : ExponentAt power (exponent.map fun e => (e.sign == some '-', e.digits)) rest)
    (h : NumberSpelling.denotation? ⟨negative, .decimal whole fraction exponent⟩ = some number) :
    NumberAt (signChars negative ++ source) number rest := by
  have hfloat : fraction.isSome = true ∨ exponent.isSome = true →
      Option.map Number.float (DecimalNumeral.toBinary64?
        ⟨negative, withoutGaps whole, withoutGaps (fraction.getD []),
          exponent.map fun e => (e.sign == some '-', e.digits)⟩) = some number →
      NumberAt (signChars negative ++ source) number rest := by
    intro hparts h
    obtain ⟨x, hx, rfl⟩ := Option.map_eq_some_iff.mp h
    exact .intro hbegins hwhole hpoint hpower (by simpa using hparts) hx
  cases fraction with
  | some fraction => exact hfloat (Or.inl rfl) (by simpa only [NumberSpelling.denotation?] using h)
  | none =>
    cases exponent with
    | some exponent =>
      exact hfloat (Or.inr rfl) (by simpa only [NumberSpelling.denotation?] using h)
    | none =>
      cases hpoint
      cases hpower
      simp only [NumberSpelling.denotation?] at h
      split at h
      · simp at h
      · rename_i hempty
        obtain ⟨n, hn, rfl⟩ := Option.map_eq_some_iff.mp h
        exact .decimal hbegins hwhole (by simpa using hempty)
          (int64OfMagnitude?_eq_some_iff.mp hn)

/-- What is read as a number is one. -/
theorem readNumber_sound {number : Number}
    (hbegins : ∃ c ∈ source.head?, c = '-' ∨ c.isDigit = true)
    (h : readNumber source = .ok (number, rest)) : NumberAt source number rest := by
  obtain ⟨negative, inner, hinner, rfl, hscan⟩ := exists_scanNumber_eq hbegins
  simp only [readNumber, hscan] at h
  split at h
  · rename_i number' hdenotes
    rw [Except.ok.injEq, Prod.mk.injEq] at h
    obtain ⟨rfl, rfl⟩ := h
    by_cases hhex : ∃ digits, inner = '0' :: 'x' :: digits
    · obtain ⟨digits, rfl⟩ := hhex
      exact hexadecimal_sound hdenotes
    · rw [not_exists] at hhex
      rw [scanBody_of_ne hhex] at hdenotes ⊢
      exact decimal_sound hinner (longestRun_takeWhile _ _) (scanFraction_sound _)
        (scanExponent_sound _) hdenotes
  · simp at h

/-- A run of digits that ends a number is no beginning of hexadecimal notation. -/
theorem LongestRun.ne_hexadecimal {run point : List Char}
    (h : LongestRun isDigitOrGap source run point) (hpoint : 'x' ∉ point.head?) :
    ∀ digits, source ≠ '0' :: 'x' :: digits := by
  rintro digits rfl
  have hdrop := h.dropWhile_eq
  simp only [List.dropWhile, isDigitOrGap] at hdrop
  subst hdrop
  simp at hpoint

/-- The digits before a point or an exponent end there. -/
theorem ne_of_mem_head?_point {fraction : Option (List Char)} {exponent : Option (Bool × List Char)}
    {point power : List Char} {c : Char} (hpoint : FractionAt point fraction power)
    (hpower : ExponentAt power exponent rest) (hends : Ends rest) (hc : c ∈ point.head?) :
    c ≠ 'x' ∧ (fraction = none → c ≠ '.') := by
  cases hpoint with
  | absent =>
    cases hpower with
    | absent =>
      refine ⟨?_, fun _ => (hends c hc).2⟩
      rintro rfl
      simpa [isNameChar] using (hends _ hc).1
    | @present marker _ _ _ _ _ hmarker =>
      obtain rfl : marker = c := by simpa using hc
      rcases hmarker with rfl | rfl <;> decide
  | present =>
    obtain rfl : '.' = c := by simpa using hc
    exact ⟨by decide, fun h => by simp at h⟩

/-- A body in decimal notation is scanned as a whole. -/
theorem exists_scanBody_eq {fraction : Option (List Char)} {exponent : Option (Bool × List Char)}
    {whole point power : List Char} (hwhole : LongestRun isDigitOrGap source whole point)
    (hpoint : FractionAt point fraction power) (hpower : ExponentAt power exponent rest)
    (hends : Ends rest)
    (hdigits : ∀ negative digits, exponent = some (negative, digits) → digits ≠ []) :
    ∃ spelling : Option ExponentSpelling,
      scanBody source = (.decimal whole fraction spelling, rest) ∧
        spelling.map (fun e => (e.sign == some '-', e.digits)) = exponent := by
  have hhead {c : Char} (hc : c ∈ point.head?) := ne_of_mem_head?_point hpoint hpower hends hc
  have hne := hwhole.ne_hexadecimal fun hx => (hhead hx).1 rfl
  have hfraction := hpoint.scanFraction_eq fun hnone hdot => (hhead hdot).2 hnone rfl
  obtain ⟨hspelling, hrest⟩ := hpower.scanExponent_eq hends hdigits
  refine ⟨(scanExponent power).1, ?_, hspelling⟩
  rw [scanBody_of_ne hne, hwhole.takeWhile_eq, hwhole.dropWhile_eq, hfraction, hrest]

theorem readNumber_signChars {negative : Bool} {number : Number} {body : NumberBody}
    (hbegins : BeginsNumber negative source) (hscan : scanBody source = (body, rest))
    (hdenotes : NumberSpelling.denotation? ⟨negative, body⟩ = some number) :
    readNumber (signChars negative ++ source) = .ok (number, rest) := by
  simp only [readNumber, scanNumber_signChars hbegins, hscan, hdenotes]

/-- An integer is read as a whole where nothing follows that could continue it. -/
theorem IntegerAt.readNumber_eq {n : Int64} (h : IntegerAt source n rest) (hends : Ends rest) :
    readNumber source = .ok (.integer n, rest) := by
  cases h with
  | decimal hbegins hrun hne hn =>
    obtain ⟨spelling, hscan, hspelling⟩ :=
      exists_scanBody_eq hrun .absent .absent hends fun _ _ h => by simp at h
    obtain rfl := Option.map_eq_none_iff.mp hspelling
    have hempty := List.isEmpty_eq_false_iff.mpr hne
    refine readNumber_signChars hbegins hscan ?_
    simp only [NumberSpelling.denotation?, hempty, Bool.false_eq_true, if_false,
      int64OfMagnitude?_eq_some_iff.mpr hn, Option.map_some]
  | @hexadecimal negative source run _ _ hrun hne hbound hn =>
    have hbegins : BeginsNumber negative ('0' :: 'x' :: source) := Or.inr ⟨'0', rfl, rfl⟩
    have hcond : ¬((withoutGaps run).isEmpty = true ∨
        1 <<< 63 ≤ natOfDigits 16 (withoutGaps run)) := by
      rw [not_or, List.isEmpty_iff]
      exact ⟨hne, by omega⟩
    have hscan : scanBody ('0' :: 'x' :: source) = (.hexadecimal run, rest) := by
      simp only [scanBody, hrun.takeWhile_eq, hrun.dropWhile_eq]
    refine readNumber_signChars hbegins hscan ?_
    simp only [NumberSpelling.denotation?]
    rw [if_neg hcond, int64OfMagnitude?_eq_some_iff.mpr hn]
    rfl

theorem exponent_ne_nil_of_isComplete {numeral : DecimalNumeral} (h : numeral.isComplete = true)
    (negative : Bool) (digits : List Char) (hexponent : numeral.exponent = some (negative, digits)) :
    digits ≠ [] := by
  rintro rfl
  simp [DecimalNumeral.isComplete, hexponent] at h

/-- A double is read as a whole where nothing follows that could continue it. -/
theorem FloatAt.readNumber_eq {x : Binary64} (h : FloatAt source x rest) (hends : Ends rest) :
    readNumber source = .ok (.float x, rest) := by
  obtain ⟨hbegins, hwhole, hpoint, hpower, hparts, hx⟩ := h
  rename_i negative source whole point power fraction exponent
  have hcomplete : DecimalNumeral.isComplete
      ⟨negative, withoutGaps whole, withoutGaps (fraction.getD []), exponent⟩ = true := by
    by_cases hcomplete : DecimalNumeral.isComplete
        ⟨negative, withoutGaps whole, withoutGaps (fraction.getD []), exponent⟩ = true
    · exact hcomplete
    · simp [DecimalNumeral.toBinary64?, hcomplete] at hx
  obtain ⟨spelling, hscan, rfl⟩ :=
    exists_scanBody_eq hwhole hpoint hpower hends (exponent_ne_nil_of_isComplete hcomplete)
  refine readNumber_signChars hbegins hscan ?_
  cases fraction with
  | some fraction => simp only [NumberSpelling.denotation?, hx, Option.map_some]
  | none =>
    cases spelling with
    | some spelling =>
      rw [Option.map_some] at hx
      simp only [NumberSpelling.denotation?, Option.map_some, hx]
    | none => simp at hparts

theorem BeginsNumber.head {negative : Bool} (h : BeginsNumber negative source) :
    ∃ c ∈ (signChars negative ++ source).head?, c = '-' ∨ c.isDigit = true := by
  cases negative with
  | true => exact ⟨'-', rfl, Or.inl rfl⟩
  | false =>
    obtain h | ⟨c, hc, hdigit⟩ := h
    · simp at h
    · exact ⟨c, hc, Or.inr hdigit⟩

theorem NumberAt.begins {number : Number} (h : NumberAt source number rest) :
    ∃ c ∈ source.head?, c = '-' ∨ c.isDigit = true := by
  cases number with
  | integer n =>
    cases h with
    | decimal hbegins => exact hbegins.head
    | hexadecimal => exact BeginsNumber.head (Or.inr ⟨'0', rfl, rfl⟩)
  | float x =>
    cases h with
    | intro hbegins => exact hbegins.head

theorem NumberAt.readNumber_eq {number : Number} (h : NumberAt source number rest)
    (hends : Ends rest) : readNumber source = .ok (number, rest) := by
  cases number with
  | integer n => exact IntegerAt.readNumber_eq h hends
  | float x => exact FloatAt.readNumber_eq h hends

/-! ## Texts -/

theorem escape_iff {c d : Char} : Escape c d ↔ d = unescape c := by
  constructor
  · intro h
    cases h with
    | itself h =>
      simp only [List.mem_cons, List.not_mem_nil, or_false, not_or] at h
      unfold unescape
      split <;> simp_all
    | _ => rfl
  · rintro rfl
    unfold unescape
    split
    · exact .lineFeed
    · exact .tab
    · exact .carriageReturn
    · exact .null
    · rename_i h₁ h₂ h₃ h₄
      exact .itself (by simpa [not_or] using ⟨h₁, h₂, h₃, h₄⟩)

/-- Reading a text adds what the text denotes to what has been read. -/
theorem readText_eq_some_iff {done text : List Char} :
    readText source done = some (text, rest) ↔
      ∃ own, text = done.reverse ++ own ∧ TextAt source own rest := by
  constructor
  · intro h
    fun_induction readText source done with
    | case1 => simp at h
    | case2 done tail =>
      rw [Option.some.injEq, Prod.mk.injEq] at h
      obtain ⟨rfl, rfl⟩ := h
      exact ⟨[], by simp, .close⟩
    | case3 => simp at h
    | case4 c tail done ih =>
      obtain ⟨own, rfl, htext⟩ := ih h
      exact ⟨unescape c :: own, by simp, .escape (escape_iff.mpr rfl) htext⟩
    | case5 c tail done hquote hend hescape ih =>
      obtain ⟨own, rfl, htext⟩ := ih h
      have hslash : c ≠ '\\' := by
        rintro rfl
        cases tail with
        | nil => exact hend rfl rfl
        | cons d tail => exact hescape d tail rfl rfl
      exact ⟨c :: own, by simp, .plain hquote hslash htext⟩
  · rintro ⟨own, rfl, htext⟩
    induction htext generalizing done with
    | close => simp [readText]
    | @escape c d source text rest hescape _ ih =>
      obtain rfl := escape_iff.mp hescape
      rw [readText, ih]
      simp
    | @plain c source text rest hquote hslash _ ih =>
      rw [readText, ih]
      · simp
      · exact hquote
      · exact fun h => absurd h hslash
      · exact fun _ _ h => absurd h hslash

theorem readText_nil_eq_some_iff {text : List Char} :
    readText source [] = some (text, rest) ↔ TextAt source text rest := by
  simp [readText_eq_some_iff]

/-! ## Values without brackets -/

/-- A segment value that is not a literal. -/
inductive ScalarAt : List Char → RawValue → List Char → Prop where
  | number {number : Number} {source rest : List Char} :
      NumberAt source number rest → ScalarAt source (.ofNumber number) rest
  | text {text source rest : List Char} :
      TextAt source text rest → ScalarAt ('"' :: source) (.text (String.ofList text)) rest

theorem ScalarAt.valueAt {value : RawValue} (h : ScalarAt source value rest) :
    ValueAt source value rest := by
  cases h with
  | @number number _ _ h =>
    cases number with
    | integer n => exact .integer h
    | float x => exact .float h
  | text h => exact .text h

theorem readScalar_sound {value : RawValue} (h : readScalar source = .ok (value, rest)) :
    ScalarAt source value rest := by
  unfold readScalar at h
  split at h
  · split at h
    · rename_i htext
      rw [Except.ok.injEq, Prod.mk.injEq] at h
      obtain ⟨rfl, rfl⟩ := h
      exact .text (readText_nil_eq_some_iff.mp htext)
    · simp at h
  · rename_i c tail _
    split at h
    · rename_i hbegins
      split at h
      · rename_i hnumber
        rw [Except.ok.injEq, Prod.mk.injEq] at h
        obtain ⟨rfl, rfl⟩ := h
        exact .number (readNumber_sound ⟨c, rfl, hbegins⟩ hnumber)
      · simp at h
    · simp at h
  · simp at h

/-- A scalar that begins like a number is read as one. -/
theorem readScalar_of_begins (h : ∃ c ∈ source.head?, c = '-' ∨ c.isDigit = true) :
    readScalar source = (readNumber source).map fun read => (.ofNumber read.1, read.2) := by
  obtain ⟨c, hc, hbegins⟩ := h
  obtain ⟨tail, rfl⟩ := List.head?_eq_some_iff.mp hc
  unfold readScalar
  split
  · rename_i heq
    obtain ⟨rfl, -⟩ := List.cons.inj heq
    simp at hbegins
  · rename_i heq
    obtain ⟨rfl, -⟩ := List.cons.inj heq
    rw [if_pos hbegins]
    cases readNumber (c :: tail) <;> rfl
  · simp at *

theorem ScalarAt.readScalar_eq {value : RawValue} (h : ScalarAt source value rest)
    (hends : Ends rest) : readScalar source = .ok (value, rest) := by
  cases h with
  | number hnumber =>
    rw [readScalar_of_begins hnumber.begins, hnumber.readNumber_eq hends]
    rfl
  | text htext =>
    simp only [readScalar, readText_nil_eq_some_iff.mpr htext]

end ClauseMatch.Literal
