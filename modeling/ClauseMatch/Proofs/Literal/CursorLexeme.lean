import ClauseMatch.Proofs.Literal.CursorSteps
import ClauseMatch.Proofs.Literal.NumberText
import ClauseMatch.Proofs.Literal.Option

/-!
# Texts, numbers and options under the cursor

The readers that call no other literal. Each reads the source as the reader over lists of
characters does, with the same errors at the same places, and takes at least one byte when it
succeeds.
-/

namespace ClauseMatch.Literal.Cursor

variable {source : String} {opened : List Nat} {k : Nat} {rest rest' : List Char}

/-! ## Quoted texts -/

/-- Where the text ends, the offset counts the bytes before the closing quote. -/
theorem scanQuoted_of_readText {text out quoted : List Char}
    (h : readText text out = some (quoted, rest)) (offset : Nat) :
    ∃ passed, text = passed ++ '"' :: rest ∧
      scanQuoted text offset out = some (quoted, offset + byteLength passed) := by
  fun_induction readText text out generalizing offset with
  | case1 => simp at h
  | case2 text out =>
    obtain ⟨rfl, rfl⟩ : out.reverse = quoted ∧ text = rest := by simpa using h
    exact ⟨[], rfl, rfl⟩
  | case3 => simp at h
  | case4 c text out ih =>
    obtain ⟨passed, rfl, hscan⟩ := ih h (offset + 1 + c.utf8Size)
    have hescape : ('\\' : Char).utf8Size = 1 := rfl
    refine ⟨'\\' :: c :: passed, rfl, ?_⟩
    rw [scanQuoted, hscan, byteLength_cons, byteLength_cons, hescape]
    simp only [Nat.add_assoc]
  | case5 c text out hquote hend hescape ih =>
    obtain ⟨passed, rfl, hscan⟩ := ih h (offset + c.utf8Size)
    refine ⟨c :: passed, rfl, ?_⟩
    rw [scanQuoted, hscan, byteLength_cons, Nat.add_assoc]
    · exact hquote
    · exact hend
    · exact hescape

theorem scanQuoted_of_not_readText {text out : List Char} (h : readText text out = none)
    (offset : Nat) : scanQuoted text offset out = none := by
  fun_induction readText text out generalizing offset with
  | case1 => rfl
  | case2 => simp at h
  | case3 => rfl
  | case4 c text out ih => exact ih h _
  | case5 c text out hquote hend hescape ih =>
    rw [scanQuoted]
    · exact ih h _
    · exact hquote
    · exact hend
    · exact hescape

/-- Reading a quoted text, whose opening quote stands at the cursor. -/
theorem reads_string :
    Reads source opened 1 (string source) ('"' :: rest)
      (match readText rest [] with
        | some (text, rest') => .ok (String.ofList text, rest')
        | none => .error ⟨.unterminatedText, '"' :: rest⟩) := by
  apply reads_position.andThen
  apply (reads_advance (show '"' :: rest = ['"'] ++ rest from rfl) rfl).bind (k := 0)
  apply reads_rest.andThen
  rw [String.toList_ofList]
  cases htext : readText rest [] with
  | none =>
    rw [scanQuoted_of_not_readText htext]
    exact Reads.fail .unterminatedText _
  | some answer =>
    obtain ⟨text, rest'⟩ := answer
    obtain ⟨passed, hpassed, hscan⟩ := scanQuoted_of_readText htext 0
    rw [hscan]
    have hquote : rest = (passed ++ ['"']) ++ rest' := by
      rw [hpassed, List.append_assoc]
      rfl
    apply (reads_advance hquote ?_).andThen
    · exact Reads.pure _
    · rw [byteLength_append, Nat.zero_add]
      rfl

/-! ## Numbers -/

theorem reads_invalidNumber {α : Type} {text : List Char}
    (h : text ++ rest <:+ source.toList) :
    Reads source opened k (invalidNumber source (offset source (text ++ rest)) : CursorM α) rest
      (.error ⟨.invalidNumber (String.ofList text), text ++ rest⟩) := by
  apply reads_position.andThen
  apply (reads_slice h).andThen
  exact Reads.fail (.invalidNumber (String.ofList text)) _

/-- A magnitude that has been read is not negative. -/
theorem toInt_of_hexMagnitude? {digits : List Char} {magnitude : Int64}
    (h : hexMagnitude? digits = some magnitude) :
    magnitude.toInt = natOfDigits 16 digits := by
  rw [hexMagnitude?] at h
  split at h
  · simp at h
  · rename_i hdigits
    have hlt : natOfDigits 16 digits < 9223372036854775808 := by
      have hbound : (1 <<< 63 : Nat) = 9223372036854775808 := rfl
      omega
    rw [← Option.some_inj.mp h]
    exact Int64.toInt_ofInt_of_le (by omega) (by omega)

/-- Negating a magnitude that has been read does not overflow. -/
theorem negate?_of_hexMagnitude? {digits : List Char} {magnitude : Int64}
    (h : hexMagnitude? digits = some magnitude) : negate? magnitude = some (-magnitude) := by
  apply if_neg
  rintro rfl
  have hmin := toInt_of_hexMagnitude? h
  rw [Int64.toInt_minValue] at hmin
  omega

theorem denotation?_of_hexMagnitude?_eq_none {digits : List Char} {negative : Bool}
    (h : hexMagnitude? (withoutGaps digits) = none) :
    NumberSpelling.denotation? ⟨negative, .hexadecimal digits⟩ = none := by
  rw [hexMagnitude?] at h
  split at h
  · rename_i hdigits
    exact if_pos hdigits
  · simp at h

theorem denotation?_of_hexMagnitude? {digits : List Char} {negative : Bool} {magnitude : Int64}
    (h : hexMagnitude? (withoutGaps digits) = some magnitude) :
    NumberSpelling.denotation? ⟨negative, .hexadecimal digits⟩ =
      some (.integer (if negative then -magnitude else magnitude)) := by
  have hint := toInt_of_hexMagnitude? h
  rw [hexMagnitude?] at h
  split at h
  · simp at h
  · rename_i hdigits
    have hlt : natOfDigits 16 (withoutGaps digits) < 1 <<< 63 :=
      Nat.not_le.mp fun hle => hdigits (Or.inr hle)
    obtain rfl := Option.some_inj.mp h
    rw [NumberSpelling.denotation?]
    simp only [hdigits, if_false]
    cases negative with
    | false => simp only [int64OfMagnitude?, hlt, Bool.false_eq_true, if_true, if_false, Option.map]
    | true =>
      simp only [int64OfMagnitude?, Nat.le_of_lt hlt, if_true, Option.map, Int64.ofInt_neg]

/-- Reading the digits of a hexadecimal number, which began at `place`. -/
theorem reads_hexadecimal {place : List Char} {negative : Bool}
    (hplace : place <:+ source.toList)
    (hscan : scanNumber place =
      (⟨negative, .hexadecimal (rest.takeWhile isHexDigitOrGap)⟩,
        rest.dropWhile isHexDigitOrGap)) :
    Reads source opened 0 (hexadecimal source (offset source place) negative) rest
      (readNumber place) := by
  have hchars := (scanNumber_scansBack place).1
  rw [hscan] at hchars
  apply (reads_takeWhile sameClass_isHexDigitOrGap).andThen
  rw [String.toList_ofList]
  simp only [readNumber, hscan]
  cases hmagnitude : hexMagnitude? (withoutGaps (rest.takeWhile isHexDigitOrGap)) with
  | none =>
    rw [denotation?_of_hexMagnitude?_eq_none hmagnitude]
    rw [hchars] at hplace ⊢
    exact reads_invalidNumber hplace
  | some magnitude =>
    rw [denotation?_of_hexMagnitude? hmagnitude]
    cases negative with
    | false => exact Reads.pure _
    | true =>
      simp only [if_true, negate?_of_hexMagnitude? hmagnitude]
      apply (Reads.pure _).andThen
      exact Reads.pure _

/-- Behind the point of a fraction the source can be cut. -/
theorem slice?_point (text : List Char) :
    slice? (String.ofList ('.' :: text)) 1 (String.ofList ('.' :: text)).utf8ByteSize =
      some (String.ofList text) := by
  have hsplit : (String.ofList ('.' :: text)).toList = ['.'] ++ (text ++ []) := by
    rw [String.toList_ofList, List.append_nil]
    rfl
  rw [utf8ByteSize_ofList, byteLength_cons]
  exact slice?_eq hsplit

theorem reads_fraction :
    Reads source opened 0 (fraction source) rest (.ok ((), (scanFraction rest).2)) := by
  apply reads_rest.andThen
  rw [String.toList_ofList]
  by_cases hpoint : rest.head? = some '.'
  · obtain ⟨text, rfl⟩ := List.head?_eq_some_iff.mp hpoint
    rw [if_pos hpoint, slice?_point]
    apply (Reads.pure _).andThen
    rw [String.toList_ofList]
    cases text with
    | nil => exact Reads.pure _
    | cons c text =>
      by_cases hdigit : c.isDigit = true
      · rw [if_pos (by simpa using hdigit), scanFraction, if_pos hdigit]
        apply (reads_advance (show '.' :: c :: text = ['.'] ++ (c :: text) from rfl) rfl).andThen
        apply (reads_takeWhile sameClass_isDigitOrGap).andThen
        exact Reads.pure _
      · rw [if_neg (by simpa using hdigit), scanFraction, if_neg hdigit]
        exact Reads.pure _
  · rw [if_neg hpoint]
    have hscan : scanFraction rest = (none, rest) := by
      unfold scanFraction
      split
      · exact (hpoint rfl).elim
      · rfl
    rw [hscan]
    exact Reads.pure _

theorem reads_sign :
    Reads source opened 0 (sign source) rest (.ok ((), (scanSign rest).2)) := by
  apply reads_rest.andThen
  rw [String.toList_ofList]
  fun_cases scanSign rest with
  | case1 rest =>
    exact (reads_advance (show '+' :: rest = ['+'] ++ rest from rfl) rfl).weaken (Nat.zero_le _)
  | case2 rest =>
    exact (reads_advance (show '-' :: rest = ['-'] ++ rest from rfl) rfl).weaken (Nat.zero_le _)
  | case3 rest hplus hminus =>
    rw [if_neg]
    · exact Reads.pure _
    · cases rest with
      | nil => simp
      | cons c rest =>
        simp only [List.head?_cons, Option.any_some, decide_eq_true_eq]
        rintro (rfl | rfl)
        · exact hplus rest rfl
        · exact hminus rest rfl

theorem reads_exponent :
    Reads source opened 0 (exponent source) rest (.ok ((), (scanExponent rest).2)) := by
  apply reads_rest.andThen
  rw [String.toList_ofList]
  fun_cases scanExponent rest with
  | case1 => exact Reads.pure _
  | case2 c rest hmarker sign digits hsign =>
    rw [if_pos (by simpa using hmarker)]
    have hsize : byteLength [c] = 1 := by rcases hmarker with rfl | rfl <;> rfl
    apply (reads_advance (show c :: rest = [c] ++ rest from rfl) hsize.symm).andThen
    have hsign' : Reads source opened 0 (Cursor.sign source) rest
        (.ok ((), (scanSign rest).2)) := reads_sign
    rw [hsign] at hsign'
    apply hsign'.andThen
    apply (reads_takeWhile sameClass_isDigit).andThen
    exact Reads.pure _
  | case3 c rest hmarker =>
    rw [if_neg (by simpa using hmarker)]
    exact Reads.pure _

/-- What a number denotes is read from its text alone. -/
theorem reads_spelled {place : List Char} {spelling : NumberSpelling}
    (hplace : place <:+ source.toList) (hscan : scanNumber place = (spelling, rest)) :
    Reads source opened 0 (spelled source (offset source place)) rest (readNumber place) := by
  obtain ⟨hchars, hback⟩ := scanNumber_scansBack place
  have hrescan := hback [] List.nil_prefix
  rw [hscan] at hchars hrescan
  rw [List.append_nil] at hrescan
  simp only [readNumber, hscan]
  rw [hchars] at hplace ⊢
  apply reads_position.andThen
  apply (reads_slice hplace).andThen
  rw [String.toList_ofList, hrescan]
  cases spelling.denotation? with
  | none => exact reads_invalidNumber hplace
  | some number => exact Reads.pure _

/-- Passing over a minus sign, which a number may begin with. -/
theorem reads_minus {negative : Bool} (h : BeginsNumber negative rest) :
    Reads source opened (byteLength (signChars negative)) (eat source "-")
      (signChars negative ++ rest) (.ok (negative, rest)) := by
  cases negative with
  | true => exact reads_eat_of_eq rfl
  | false =>
    apply reads_eat_of_not
    rintro more rfl
    rcases h with h | ⟨c, hc, hdigit⟩
    · simp at h
    · obtain rfl : '-' = c := by simpa using hc
      simp at hdigit

theorem reads_number (h : ∃ c ∈ rest.head?, c = '-' ∨ c.isDigit = true) :
    Reads source opened 1 (number source) rest (readNumber rest) := by
  obtain ⟨negative, inner, hbegins, rfl, hscan⟩ := exists_scanNumber_eq h
  apply Reads.of_suffix
  intro hplace
  apply reads_position.andThen
  by_cases hhex : ∃ digits, inner = '0' :: 'x' :: digits
  · obtain ⟨digits, rfl⟩ := hhex
    refine Reads.weaken (j := 2) ?_ (by decide)
    apply (reads_minus hbegins).andThen
    apply (reads_eat_of_eq (show '0' :: 'x' :: digits = "0x".toList ++ digits from rfl)).bind
      (k := 0)
    exact reads_hexadecimal hplace hscan
  · have hne : ∀ digits, inner ≠ '0' :: 'x' :: digits := not_exists.mp hhex
    have hleast : 1 ≤
        byteLength (signChars negative) + byteLength (inner.takeWhile isDigitOrGap) := by
      rcases hbegins with rfl | ⟨c, hc, hdigit⟩
      · exact Nat.le_add_right ..
      · obtain ⟨digits, rfl⟩ := List.head?_eq_some_iff.mp hc
        have hrun : (c :: digits).takeWhile isDigitOrGap ≠ [] := by
          simp [isDigitOrGap, hdigit]
        exact Nat.le_add_left_of_le (one_le_byteLength hrun)
    refine Reads.weaken ?_ hleast
    apply (reads_minus hbegins).bind
    apply (reads_eat_of_not hne).andThen
    apply (reads_takeWhile sameClass_isDigitOrGap).bind (k := 0)
    apply reads_fraction.andThen
    apply reads_exponent.andThen
    rw [scanBody_of_ne hne] at hscan
    exact reads_spelled hplace hscan

/-! ## Options -/

theorem reads_count_of_ok {digits place : List Char} {n : UInt32}
    (h : readCount digits place = .ok n) :
    Reads source opened 0 (count (String.ofList digits) (offset source place)) rest
      (.ok (n, rest)) := by
  rw [readCount] at h
  split at h
  · simp at h
  · rename_i hdigits
    rw [count, String.toList_ofList, readCount, if_neg hdigits, h]
    exact Reads.pure n

theorem reads_count_of_error {digits place : List Char} {failure : Failure}
    (h : readCount digits place = .error failure) :
    Reads source opened 0 (count (String.ofList digits) (offset source place)) rest
      (.error failure) := by
  rw [readCount] at h
  split at h
  · rename_i hdigits
    rw [count, String.toList_ofList, readCount, if_pos hdigits, ← Except.error.inj h]
    exact Reads.fail _ place
  · simp at h

theorem reads_argument :
    Reads source opened 0 (argument source) rest (readArgument rest) := by
  apply reads_skipWhitespace.andThen
  apply reads_position.andThen
  apply (reads_takeWhile sameClass_isDigit).andThen
  rw [readArgument]
  cases hcount : readCount ((skipBlank rest).takeWhile Char.isDigit) (skipBlank rest) with
  | error failure => exact (reads_count_of_error hcount).bind_error
  | ok n =>
    apply (reads_count_of_ok hcount).andThen
    apply reads_skipWhitespace.andThen
    simp only
    split
    · rename_i more hclose
      apply (reads_expect_of_eq hclose).andThen
      exact Reads.pure n
    · rename_i hclose
      exact (reads_expect_of_not hclose).bind_error

/-- Reading an option that is not a bare number, from after its name. -/
theorem reads_namedOption {name place : List Char} :
    Reads source opened 0 (namedOption source (String.ofList name) (offset source place)) rest
      (match rest with
        | '(' :: argument =>
          match readArgument argument with
          | .error failure => .error failure
          | .ok (n, rest) =>
            match argumentOption? (String.ofList name) n with
            | some option => .ok (option, rest)
            | none =>
              .error ⟨.unknownOption (String.ofList name ++ "(" ++ toString n.toNat ++ ")"), place⟩
        | _ =>
          match plainOption? (String.ofList name) with
          | some option => .ok (option, rest)
          | none => .error ⟨.unknownOption (String.ofList name), place⟩) := by
  split
  · rename_i text
    apply (reads_eat_of_eq (show '(' :: text = "(".toList ++ text from rfl)).andThen
    have hargument : Reads source opened 0 (argument source) text (readArgument text) :=
      reads_argument
    rw [if_pos rfl]
    cases hread : readArgument text with
    | error failure =>
      rw [hread] at hargument
      exact hargument.bind_error
    | ok answer =>
      obtain ⟨n, more⟩ := answer
      rw [hread] at hargument
      apply hargument.andThen
      simp only
      cases argumentOption? (String.ofList name) n with
      | some o => exact Reads.pure o
      | none => exact Reads.fail _ place
  · rename_i hopen
    apply (reads_eat_of_not hopen).andThen
    rw [if_neg Bool.false_ne_true]
    cases plainOption? (String.ofList name) with
    | some o => exact Reads.pure o
    | none => exact Reads.fail _ place

theorem reads_option : Reads source opened 1 (option source) rest (readOption rest) := by
  have hempty (name : List Char) : (String.ofList name).isEmpty = name.isEmpty := by
    rw [Bool.eq_iff_iff, String.isEmpty_iff, List.isEmpty_iff]
    exact String.ofList_eq_empty_iff
  refine Reads.call ?_ (Nat.le_refl _)
  rw [readOption]
  by_cases hname : (rest.takeWhile isNameChar).isEmpty = true
  · rw [if_pos hname]
    apply (reads_takeWhile sameClass_isNameChar).andThen
    rw [if_pos (by rwa [hempty])]
    exact Reads.fail (.expected .segmentOption) rest
  · have hne : rest.takeWhile isNameChar ≠ [] := fun hnil => hname (List.isEmpty_iff.mpr hnil)
    refine Reads.weaken ?_ (one_le_byteLength hne)
    apply (reads_takeWhile sameClass_isNameChar).bind (k := 0)
    rw [if_neg hname, if_neg (by rwa [hempty]), String.toList_ofList]
    by_cases hdigits : (rest.takeWhile isNameChar).all Char.isDigit = true
    · rw [if_pos hdigits, if_pos hdigits]
      cases hcount : readCount (rest.takeWhile isNameChar) rest with
      | error failure => exact (reads_count_of_error hcount).bind_error
      | ok n =>
        apply (reads_count_of_ok hcount).andThen
        exact Reads.pure _
    · rw [if_neg hdigits, if_neg hdigits]
      exact reads_namedOption

/-- Going on after an option: a dash announces another one. -/
theorem reads_moreOptions {place : List Char} {limit : Nat} {options : Options}
    (hloop : ∀ more, more.length < rest.length →
      Reads source opened 0 (optionLoop source (offset source place) limit options) more
        (readOptions place more options.type options.modifiers)) :
    Reads source opened 0
      (do
        skipWhitespace source
        if ← eat source "-" then optionLoop source (offset source place) limit options
        else return { options with modifiers := options.modifiers.reverse }) rest
      (match skipBlank rest with
        | '-' :: more => readOptions place more options.type options.modifiers
        | rest => .ok (⟨options.type, options.modifiers.reverse⟩, rest)) := by
  have hlength := length_skipBlank_le rest
  apply reads_skipWhitespace.andThen
  split
  · rename_i more hdash
    apply (reads_eat_of_eq hdash).andThen
    apply hloop
    rw [hdash, List.length_cons] at hlength
    exact hlength
  · rename_i hdash
    apply (reads_eat_of_not hdash).andThen
    exact Reads.pure _

theorem readOptions_of_error {place : List Char} {type : Option TypeName}
    {modifiers : List Modifier} {failure : Failure}
    (hread : readOption (skipBlank rest) = .error failure) :
    readOptions place rest type modifiers = .error failure := by
  rw [readOptions]
  split <;> rename_i hread' <;> rw [hread] at hread'
  · rw [Except.error.inj hread']
  · simp at hread'
  · simp at hread'

theorem readOptions_of_duplicate {place text : List Char} {name declared : TypeName}
    {modifiers : List Modifier} (hread : readOption (skipBlank rest) = .ok (.type name, text)) :
    readOptions place rest (some declared) modifiers = .error ⟨.duplicateType, place⟩ := by
  rw [readOptions]
  split <;> rename_i hread' <;> rw [hread] at hread'
  · simp at hread'
  · rfl
  · simp at hread'

theorem addOption_eq {start : Nat} {o : SegmentOption} {type : Option TypeName}
    {modifiers : List Modifier} (htype : ∀ t, o = .type t → type = none) :
    addOption start ⟨type, modifiers⟩ o =
      pure ⟨o.type?.or type, o.modifier?.toList ++ modifiers⟩ := by
  cases o with
  | type name =>
    obtain rfl := htype name rfl
    rfl
  | modifier m => rfl

/-- Reading options up to the first that no dash follows. -/
theorem reads_optionLoop {place : List Char} {limit : Nat} {type : Option TypeName}
    {modifiers : List Modifier} (hlimit : rest.length < limit) :
    Reads source opened 0 (optionLoop source (offset source place) limit ⟨type, modifiers⟩) rest
      (readOptions place rest type modifiers) := by
  induction limit generalizing rest type modifiers with
  | zero => exact absurd hlimit (Nat.not_lt_zero _)
  | succ limit ih =>
    have hlength := length_skipBlank_le rest
    have hoption : Reads source opened 1 (option source) (skipBlank rest)
        (readOption (skipBlank rest)) := reads_option
    apply reads_skipWhitespace.andThen
    cases hread : readOption (skipBlank rest) with
    | error failure =>
      rw [hread] at hoption
      rw [readOptions_of_error hread]
      exact (hoption.weaken (Nat.zero_le _)).bind_error
    | ok answer =>
      obtain ⟨o, text⟩ := answer
      have hshorter := readOption_length_lt hread
      rw [hread] at hoption
      apply hoption.andThen
      by_cases htype : ∀ t, o = .type t → type = none
      · rw [addOption_eq htype, readOptions_of_readOption hread htype]
        apply (Reads.pure _).andThen
        apply reads_moreOptions
        intro more hmore
        exact ih (by omega)
      · obtain ⟨name, hname⟩ := Classical.not_forall.mp htype
        obtain ⟨rfl, hdeclared⟩ := Classical.not_imp.mp hname
        obtain ⟨declared, rfl⟩ := Option.ne_none_iff_exists'.mp hdeclared
        rw [readOptions_of_duplicate hread]
        exact (Reads.fail .duplicateType place).bind_error

end ClauseMatch.Literal.Cursor
