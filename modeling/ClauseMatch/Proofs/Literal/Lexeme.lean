import ClauseMatch.Proofs.Literal.Grammar

/-!
# Blanks, runs and names

The scanners of a literal pass over blanks and take longest runs. Here their results are related
to `Blanks` and `LongestRun`, in both directions. For blanks the two directions differ: a phrase
of the grammar may be preceded by any run of them, while a scanner passes over all there are, and
the two agree as soon as what comes next is no blank. `Follows` says what may come next.
-/

namespace ClauseMatch.Literal

variable {source run rest stop : List Char} {p : Char → Bool} {c : Char}

/-! ## Blanks -/

theorem Blanks.refl (source : List Char) : Blanks source source :=
  ⟨[], by simp, rfl⟩

theorem blanks_skipBlank (source : List Char) : Blanks source (skipBlank source) := by
  refine ⟨source.takeWhile isBlank, ?_, ?_⟩
  · exact fun c hc => List.all_eq_true.mp List.all_takeWhile c hc
  · exact List.takeWhile_append_dropWhile.symm

theorem Blanks.trans (h : Blanks source stop) (h' : Blanks stop rest) : Blanks source rest := by
  obtain ⟨run, hrun, rfl⟩ := h
  obtain ⟨run', hrun', rfl⟩ := h'
  refine ⟨run ++ run', ?_, by simp⟩
  intro c hc
  rcases List.mem_append.mp hc with hc | hc
  · exact hrun c hc
  · exact hrun' c hc

theorem skipBlank_eq_self (h : ∀ c ∈ source.head?, isBlank c = false) :
    skipBlank source = source := by
  cases source with
  | nil => rfl
  | cons c tail => simp [skipBlank, h c rfl]

/-- Passing over blanks ends exactly at what is preceded by blanks only and begins with none. -/
theorem Blanks.skipBlank_eq (h : Blanks source rest) (hrest : ∀ c ∈ rest.head?, isBlank c = false) :
    skipBlank source = rest := by
  obtain ⟨run, hrun, rfl⟩ := h
  have hself : rest.dropWhile isBlank = rest := skipBlank_eq_self hrest
  rw [skipBlank, List.dropWhile_append_of_pos hrun, hself]

/-- The blanks before a text with one of the given first characters. -/
def Follows (stops : List Char) (source : List Char) : Prop :=
  ∃ c tail, Blanks source (c :: tail) ∧ c ∈ stops

/-- What follows begins with a blank or with one of the given characters. -/
theorem Follows.head {stops : List Char} (h : Follows stops source) (hc : c ∈ source.head?) :
    isBlank c = true ∨ c ∈ stops := by
  obtain ⟨d, tail, ⟨run, hrun, rfl⟩, hd⟩ := h
  cases run with
  | nil =>
    obtain rfl : d = c := by simpa using hc
    exact Or.inr hd
  | cons b run =>
    obtain rfl : b = c := by simpa using hc
    exact Or.inl (hrun b (by simp))

theorem Follows.ne_head {stops : List Char} (h : Follows stops source) (hblank : isBlank c = false)
    (hc : c ∉ stops) : c ∉ source.head? := by
  intro hmem
  rcases h.head hmem with hblank' | hstop
  · simp [hblank] at hblank'
  · exact hc hstop

theorem Blanks.follows {stops : List Char} (h : Blanks source (c :: rest)) (hc : c ∈ stops) :
    Follows stops source :=
  ⟨c, rest, h, hc⟩

/-- A comma or a closing bracket comes next. -/
def EndsSegment (rest : List Char) : Prop := ∃ c ∈ rest.head?, c = ',' ∨ c = '>'

theorem EndsSegment.not_head (h : EndsSegment rest) (hp : p ',' = false ∧ p '>' = false) :
    ∀ c ∈ rest.head?, p c = false := by
  obtain ⟨c, hc, h⟩ := h
  intro d hd
  obtain rfl := Option.mem_unique hc hd
  rcases h with rfl | rfl
  · exact hp.1
  · exact hp.2

theorem EndsSegment.not_blank (h : EndsSegment rest) : ∀ c ∈ rest.head?, isBlank c = false :=
  h.not_head (by decide)

/-! ## Longest runs -/

/-- A run ends before a character that is not of its class. -/
theorem not_head_cons (hc : p c = false) (source : List Char) :
    ∀ d ∈ (c :: source).head?, p d = false := by
  intro d hd
  obtain rfl : c = d := by simpa using hd
  exact hc

theorem longestRun_takeWhile (p : Char → Bool) (source : List Char) :
    LongestRun p source (source.takeWhile p) (source.dropWhile p) where
  split := List.takeWhile_append_dropWhile.symm
  within := fun c hc => List.all_eq_true.mp List.all_takeWhile c hc
  ends := by
    intro c hc
    have h := List.head?_dropWhile_not p source
    rw [Option.mem_def.mp hc] at h
    simpa using h

theorem LongestRun.takeWhile_eq (h : LongestRun p source run rest) :
    source.takeWhile p = run := by
  obtain ⟨rfl, hwithin, hends⟩ := h
  rw [List.takeWhile_append_of_pos hwithin]
  cases rest with
  | nil => simp
  | cons c tail => simp [hends c rfl]

theorem LongestRun.dropWhile_eq (h : LongestRun p source run rest) :
    source.dropWhile p = rest := by
  obtain ⟨rfl, hwithin, hends⟩ := h
  rw [List.dropWhile_append_of_pos hwithin]
  cases rest with
  | nil => rfl
  | cons c tail => simp [hends c rfl]

/-! ## Classes of characters -/

theorem isNameChar_of_isBlank (h : isBlank c = true) : isNameChar c = false := by
  have hne : c ≠ '_' := by
    rintro rfl
    simp [isBlank] at h
  have hletter : c.isAlpha =
      (decide (65 ≤ c.val ∧ c.val ≤ 90) || decide (97 ≤ c.val) && decide (c.val ≤ 122)) := rfl
  simp only [isBlank, Bool.or_eq_true, Bool.and_eq_true, decide_eq_true_eq, beq_iff_eq] at h
  simp [isNameChar, Char.isAlphanum, hletter, Char.isDigit, UInt32.le_iff_toNat_le, hne]
  omega

theorem isBlank_of_isNameChar (h : isNameChar c = true) : isBlank c = false := by
  cases hblank : isBlank c with
  | false => rfl
  | true => simp [isNameChar_of_isBlank hblank] at h

theorem isNameChar_of_isDigit (h : c.isDigit = true) : isNameChar c = true := by
  simp [isNameChar, Char.isAlphanum, h]

theorem isDigitOrGap_of_isDigit (h : c.isDigit = true) : isDigitOrGap c = true := by
  rw [isDigitOrGap, h, Bool.true_or]

theorem not_isNameChar_of_follows {stops : List Char} (h : Follows stops source)
    (hstops : stops.any isNameChar = false) (hc : c ∈ source.head?) :
    isNameChar c = false := by
  rcases h.head hc with hblank | hstop
  · exact isNameChar_of_isBlank hblank
  · exact Bool.eq_false_iff.mpr (List.any_eq_false.mp hstops c hstop)

/-! ## Counts -/

theorem readCount_eq_ok_iff {digits : List Char} {n : UInt32}
    (hdigits : ∀ c ∈ digits, c.isDigit = true) :
    readCount digits source = .ok n ↔ Counts digits n := by
  constructor
  · intro h
    simp only [readCount] at h
    split at h
    · simp at h
    · rename_i hcond
      rw [not_or, List.isEmpty_iff, Nat.not_le] at hcond
      rw [Except.ok.injEq] at h
      refine ⟨hcond.1, hdigits, ?_⟩
      rw [← h, UInt32.toNat_ofNat_of_lt' hcond.2]
  · rintro ⟨hne, -, hvalue⟩
    have hcond : ¬(digits.isEmpty = true ∨ UInt32.size ≤ natOfDigits 10 digits) := by
      rw [not_or, List.isEmpty_iff, ← hvalue]
      exact ⟨hne, Nat.not_le.mpr n.toNat_lt_size⟩
    simp only [readCount]
    rw [if_neg hcond, ← hvalue, UInt32.ofNat_toNat]

theorem readArgument_sound {n : UInt32} (h : readArgument source = .ok (n, rest)) :
    ArgumentAt source n rest := by
  have hrun := longestRun_takeWhile Char.isDigit (skipBlank source)
  simp only [readArgument] at h
  split at h
  · simp at h
  · rename_i n' hcount
    split at h
    · rename_i rest' hclose
      rw [Except.ok.injEq, Prod.mk.injEq] at h
      obtain ⟨rfl, rfl⟩ := h
      exact .intro (blanks_skipBlank source) hrun ((readCount_eq_ok_iff hrun.within).mp hcount)
        (hclose ▸ blanks_skipBlank _)
    · simp at h

theorem ArgumentAt.readArgument_eq {n : UInt32} (h : ArgumentAt source n rest) :
    readArgument source = .ok (n, rest) := by
  obtain ⟨hstart, hrun, hcount, hstop⟩ := h
  rename_i start digits stop
  have hblank : ∀ c ∈ start.head?, isBlank c = false := by
    intro c hc
    obtain ⟨d, digits, rfl⟩ := List.exists_cons_of_ne_nil hcount.nonempty
    rw [hrun.split] at hc
    obtain rfl : d = c := by simpa using hc
    exact isBlank_of_isNameChar (isNameChar_of_isDigit (hrun.within d (by simp)))
  have hclose : skipBlank stop = ')' :: rest := hstop.skipBlank_eq (by simp [isBlank])
  simp only [readArgument]
  rw [hstart.skipBlank_eq hblank, hrun.takeWhile_eq, hrun.dropWhile_eq,
    (readCount_eq_ok_iff hcount.isDigit).mpr hcount]
  simp only [hclose]

end ClauseMatch.Literal
