import ClauseMatch.Proofs.Literal.Scalar

/-!
# The text of a number

Scanning splits a number off a source. The characters that it keeps are those it has passed over,
and scanning them again, without what followed them in the source, gives the same number: no scanner
decides by what it leaves behind. This holds of the scanners for the parts of a number, with any
part of what is left still in place, and so of the scanners composed from them.
-/

namespace ClauseMatch.Literal

variable {α : Type} {source rest mid : List Char}

/-- What the scanner splits off has the given characters, and is split off again when any part of
what followed is cut off. -/
def ScansBack (scan : List Char → α × List Char) (chars : α → List Char) : Prop :=
  ∀ source, source = chars (scan source).1 ++ (scan source).2 ∧
    ∀ mid, mid <+: (scan source).2 → scan (chars (scan source).1 ++ mid) = ((scan source).1, mid)

theorem mem_head?_of_cut {c : Char} (h : mid <+: rest) (hc : c ∈ mid.head?) : c ∈ rest.head? := by
  obtain ⟨tail, rfl⟩ := h
  cases mid with
  | nil => simp at hc
  | cons d mid => exact hc

/-- A run is followed by what ends it, however much of that is cut off. -/
theorem LongestRun.cut {p : Char → Bool} {run : List Char} (h : LongestRun p source run rest)
    (hmid : mid <+: rest) : LongestRun p (run ++ mid) run mid :=
  ⟨rfl, h.within, fun c hc => h.ends c (mem_head?_of_cut hmid hc)⟩

/-- The characters of a fraction that may be absent. -/
def fractionChars (fraction : Option (List Char)) : List Char :=
  fraction.elim [] ('.' :: ·)

/-- The characters of an exponent that may be absent. -/
def exponentChars (exponent : Option ExponentSpelling) : List Char :=
  exponent.elim [] (·.chars)

theorem scanFraction_scansBack : ScansBack scanFraction fractionChars := by
  intro source
  fun_cases scanFraction source with
  | case1 c rest hdigit =>
    have hhead : (c :: rest).takeWhile isDigitOrGap = c :: rest.takeWhile isDigitOrGap :=
      List.takeWhile_cons_of_pos (by simp [isDigitOrGap, hdigit])
    have hrun := longestRun_takeWhile isDigitOrGap (c :: rest)
    refine ⟨congrArg ('.' :: ·) hrun.split, fun mid hmid => ?_⟩
    have hcut := hrun.cut hmid
    rw [hhead] at hcut
    show scanFraction ('.' :: ((c :: rest).takeWhile isDigitOrGap ++ mid)) = _
    rw [hhead, List.cons_append, scanFraction, if_pos hdigit, ← List.cons_append,
      hcut.takeWhile_eq, hcut.dropWhile_eq]
  | case2 c rest hdigit =>
    refine ⟨rfl, fun mid hmid => ?_⟩
    obtain ⟨tail, htail⟩ := hmid
    rcases mid with _ | ⟨d, _ | ⟨e, mid⟩⟩
    · rfl
    · obtain ⟨rfl, -⟩ : d = '.' ∧ tail = c :: rest := by simpa using htail
      rfl
    · obtain ⟨rfl, rfl, -⟩ : d = '.' ∧ e = c ∧ mid ++ tail = rest := by simpa using htail
      exact if_neg hdigit
  | case3 rest hne =>
    refine ⟨rfl, fun mid hmid => ?_⟩
    obtain ⟨tail, rfl⟩ := hmid
    show scanFraction mid = (none, mid)
    unfold scanFraction
    split
    · exact (hne _ _ rfl).elim
    · rfl

theorem scanSign_scansBack : ScansBack scanSign Option.toList := by
  intro source
  fun_cases scanSign source with
  | case1 rest => exact ⟨rfl, fun mid _ => rfl⟩
  | case2 rest => exact ⟨rfl, fun mid _ => rfl⟩
  | case3 rest hplus hminus =>
    refine ⟨rfl, fun mid hmid => ?_⟩
    obtain ⟨tail, rfl⟩ := hmid
    show scanSign mid = (none, mid)
    unfold scanSign
    split
    · exact (hplus _ rfl).elim
    · exact (hminus _ rfl).elim
    · rfl

theorem scanExponent_scansBack : ScansBack scanExponent exponentChars := by
  intro source
  fun_cases scanExponent source with
  | case1 =>
    refine ⟨rfl, fun mid hmid => ?_⟩
    rw [List.prefix_nil.mp hmid]
    rfl
  | case2 c rest hmarker sign digits hsign =>
    have hrun := longestRun_takeWhile Char.isDigit digits
    have hscan := scanSign_scansBack rest
    rw [hsign] at hscan
    obtain ⟨hrest, hback⟩ := hscan
    constructor
    · show c :: rest = c :: (sign.toList ++ digits.takeWhile Char.isDigit) ++ _
      rw [List.cons_append, List.append_assoc, ← hrun.split]
      exact congrArg (c :: ·) hrest
    · intro mid hmid
      have hcut := hrun.cut hmid
      have hkept : digits.takeWhile Char.isDigit ++ mid <+: digits := by
        conv => rhs; rw [hrun.split]
        exact (List.prefix_append_right_inj _).mpr hmid
      have hsign' := hback _ hkept
      show scanExponent (c :: (sign.toList ++ digits.takeWhile Char.isDigit ++ mid)) = _
      rw [scanExponent, if_pos hmarker, List.append_assoc, hsign']
      simp only [hcut.takeWhile_eq, hcut.dropWhile_eq]
  | case3 c rest hmarker =>
    refine ⟨rfl, fun mid hmid => ?_⟩
    obtain ⟨tail, htail⟩ := hmid
    cases mid with
    | nil => rfl
    | cons d mid =>
      obtain ⟨rfl, -⟩ : d = c ∧ mid ++ tail = rest := by simpa using htail
      exact if_neg hmarker

/-- A number that is not hexadecimal is not so either when it is cut short. -/
theorem ne_hexadecimal_of_cut (hne : ∀ digits, source ≠ '0' :: 'x' :: digits)
    (hmid : mid <+: source) : ∀ digits, mid ≠ '0' :: 'x' :: digits := by
  rintro digits rfl
  obtain ⟨tail, htail⟩ := hmid
  exact hne (digits ++ tail) htail.symm

theorem scanBody_scansBack : ScansBack scanBody NumberBody.chars := by
  intro source
  by_cases hhex : ∃ digits, source = '0' :: 'x' :: digits
  · obtain ⟨digits, rfl⟩ := hhex
    have hrun := longestRun_takeWhile isHexDigitOrGap digits
    refine ⟨congrArg (fun digits => '0' :: 'x' :: digits) hrun.split, fun mid hmid => ?_⟩
    have hcut := hrun.cut hmid
    show scanBody ('0' :: 'x' :: (digits.takeWhile isHexDigitOrGap ++ mid)) = _
    rw [scanBody, hcut.takeWhile_eq, hcut.dropWhile_eq]
    rfl
  · have hne : ∀ digits, source ≠ '0' :: 'x' :: digits := not_exists.mp hhex
    have hrun := longestRun_takeWhile isDigitOrGap source
    obtain ⟨hfraction, hfractionBack⟩ := scanFraction_scansBack (source.dropWhile isDigitOrGap)
    obtain ⟨hexponent, hexponentBack⟩ :=
      scanExponent_scansBack (scanFraction (source.dropWhile isDigitOrGap)).2
    rw [scanBody_of_ne hne]
    generalize source.takeWhile isDigitOrGap = whole at *
    generalize source.dropWhile isDigitOrGap = afterWhole at *
    generalize scanFraction afterWhole = fraction at *
    generalize scanExponent fraction.2 = exponent at *
    have hassoc (tail : List Char) :
        (NumberBody.decimal whole fraction.1 exponent.1).chars ++ tail =
          whole ++ (fractionChars fraction.1 ++ (exponentChars exponent.1 ++ tail)) := by
      simp only [NumberBody.chars, fractionChars, exponentChars, List.append_assoc]
    constructor
    · show source = _ ++ exponent.2
      rw [hassoc, ← hexponent, ← hfraction]
      exact hrun.split
    · intro mid hmid
      have hexponentKept : exponentChars exponent.1 ++ mid <+: fraction.2 := by
        rw [hexponent]
        exact (List.prefix_append_right_inj _).mpr hmid
      have hfractionKept :
          fractionChars fraction.1 ++ (exponentChars exponent.1 ++ mid) <+: afterWhole := by
        rw [hfraction]
        exact (List.prefix_append_right_inj _).mpr hexponentKept
      have hcut := hrun.cut hfractionKept
      have hkept : whole ++ (fractionChars fraction.1 ++ (exponentChars exponent.1 ++ mid)) <+:
          source := by
        rw [hrun.split]
        exact (List.prefix_append_right_inj _).mpr hfractionKept
      show scanBody (_ ++ mid) = _
      rw [hassoc, scanBody_of_ne (ne_hexadecimal_of_cut hne hkept), hcut.takeWhile_eq,
        hcut.dropWhile_eq, hfractionBack _ hexponentKept, hexponentBack mid hmid]

/-- Scanning the characters of a number that has been split off gives the same number again, and
leaves what is left of its source. -/
theorem scanNumber_scansBack : ScansBack scanNumber NumberSpelling.chars := by
  intro source
  fun_cases scanNumber source with
  | case1 rest body rest' hbody =>
    have hscan := scanBody_scansBack rest
    rw [hbody] at hscan
    obtain ⟨hrest, hback⟩ := hscan
    refine ⟨congrArg ('-' :: ·) hrest, fun mid hmid => ?_⟩
    show scanNumber ('-' :: (body.chars ++ mid)) = _
    rw [scanNumber, hback mid hmid]
  | case2 source hne body rest' hbody =>
    have hscan := scanBody_scansBack source
    rw [hbody] at hscan
    obtain ⟨hrest, hback⟩ := hscan
    refine ⟨hrest, fun mid hmid => ?_⟩
    have hback' := hback mid hmid
    obtain ⟨tail, rfl⟩ := hmid
    show scanNumber (body.chars ++ mid) = _
    unfold scanNumber
    split
    · rename_i rest heq
      refine (hne (rest ++ tail) ?_).elim
      rw [hrest, ← List.append_assoc, heq]
      rfl
    · rw [hback']

end ClauseMatch.Literal
