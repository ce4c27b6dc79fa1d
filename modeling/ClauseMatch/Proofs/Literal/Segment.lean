import ClauseMatch.Proofs.Bitstring.Composition
import ClauseMatch.Proofs.Literal.Option
import ClauseMatch.Proofs.Literal.Scalar

/-!
# Reading segments

What stands after a value, from its options to the comma or bracket that ends the segment, is read
as a whole, and the options then declare the type and the modifiers that the grammar says. The
types of segments are a table; the only entries with a condition are those of code points.
-/

namespace ClauseMatch.Literal

variable {source rest stop : List Char}

/-! ## Types and modifiers -/

theorem charOfCodePoint?_eq_some_iff {code : Int64} {c : Char} :
    charOfCodePoint? code = some c ↔ code.toInt = c.toNat := by
  simp only [charOfCodePoint?]
  constructor
  · intro h
    split at h
    · rename_i hvalid
      obtain ⟨hnonneg, hvalid⟩ := hvalid
      have hnat : (Char.ofNat code.toInt.toNat).toNat = code.toInt.toNat := by
        rw [Char.ofNat, dif_pos hvalid]
        rfl
      rw [Option.some.injEq] at h
      rw [← h, hnat, Int.toNat_of_nonneg hnonneg]
    · simp at h
  · intro h
    have hnat : code.toInt.toNat = c.toNat := by omega
    rw [hnat, if_pos ⟨by omega, c.valid⟩, Char.ofNat_toNat]

theorem textOfCodePoint_eq_ok_iff {code : Int64} {s : String} :
    textOfCodePoint code = .ok s ↔ ∃ c : Char, code.toInt = c.toNat ∧ s = String.singleton c := by
  simp only [textOfCodePoint]
  constructor
  · intro h
    split at h
    · rename_i c hc
      rw [Except.ok.injEq] at h
      exact ⟨c, charOfCodePoint?_eq_some_iff.mp hc, h.symm⟩
    · simp at h
  · rintro ⟨c, hc, rfl⟩
    rw [charOfCodePoint?_eq_some_iff.mpr hc]

theorem untypedSegment_eq_iff {value : RawValue} {s : Segment} :
    untypedSegment value = s ↔ Typed none value s := by
  constructor
  · rintro rfl
    cases value <;> constructor
  · intro h
    cases h <;> rfl

theorem typedSegment_sound {type : TypeName} {value : RawValue} {s : Segment}
    (h : typedSegment type value = .ok s) : Typed (some type) value s := by
  unfold typedSegment at h
  split at h
  case h_11 | h_12 | h_13 =>
    obtain ⟨text, htext, rfl⟩ := map_eq_ok_iff.mp h
    obtain ⟨c, hc, rfl⟩ := textOfCodePoint_eq_ok_iff.mp htext
    constructor
    exact hc
  case h_14 => simp at h
  all_goals
    rw [Except.ok.injEq] at h
    subst h
    constructor

theorem typedSegment_eq_ok_iff {type : TypeName} {value : RawValue} {s : Segment} :
    typedSegment type value = .ok s ↔ Typed (some type) value s := by
  refine ⟨typedSegment_sound, ?_⟩
  intro h
  have htext {c : Char} {n : Int64} (hc : n.toInt = c.toNat) :
      textOfCodePoint n = .ok (String.singleton c) :=
    textOfCodePoint_eq_ok_iff.mpr ⟨c, hc, rfl⟩
  cases h with
  | utf8OfCode hc => simp only [typedSegment, htext hc, Except.map]
  | utf16OfCode hc => simp only [typedSegment, htext hc, Except.map]
  | utf32OfCode hc => simp only [typedSegment, htext hc, Except.map]
  | _ => rfl

theorem segmentOf_eq_ok_iff {value : RawValue} {options : Options} {s : Segment} :
    segmentOf value options = .ok s ↔
      ∃ base, Typed options.type value base ∧
        options.modifiers.foldl Segment.withModifier base = s := by
  obtain ⟨type, modifiers⟩ := options
  cases type with
  | none =>
    simp only [segmentOf, ← untypedSegment_eq_iff, Segment.withModifiers_eq_foldl,
      Except.ok.injEq, exists_eq_left']
  | some type =>
    simp only [segmentOf, Segment.withModifiers_eq_foldl, map_eq_ok_iff, typedSegment_eq_ok_iff]

/-! ## The part of a segment after its value -/

/-- A value whose segment goes on at `source` makes up the segment `s`, which ends at `rest`. -/
inductive CompletedAt (value : RawValue) : List Char → Segment → List Char → Prop where
  | intro {options : List SegmentOption} {type : Option TypeName} {s : Segment}
      {source rest : List Char} :
      TailAt source options rest →
      options.filterMap SegmentOption.type? = type.toList →
      Typed type value s →
      CompletedAt value source
        ((options.filterMap SegmentOption.modifier?).foldl Segment.withModifier s) rest

theorem segmentAt_iff {s : Segment} :
    SegmentAt source s rest ↔
      ∃ value stop, ValueAt source value stop ∧ CompletedAt value stop s rest := by
  constructor
  · rintro ⟨hvalue, htail, htype, htyped⟩
    exact ⟨_, _, hvalue, .intro htail htype htyped⟩
  · rintro ⟨value, stop, hvalue, htail, htype, htyped⟩
    exact .intro hvalue htail htype htyped

theorem readOptions?_sound {segment : List Char} {declared : Options}
    (h : readOptions? segment source = .ok (declared, rest)) :
    ∃ options stop, TailAt source options stop ∧ Blanks stop rest ∧
      Declares none [] options declared := by
  have hblanks := blanks_skipBlank source
  unfold readOptions? at h
  split at h
  · rename_i more hcolons
    obtain ⟨options, next, stop, hnext, hoptions, hrest, hdeclares⟩ := readOptions_sound h
    exact ⟨options, stop, .present (hcolons ▸ hblanks) hnext hoptions, hrest, hdeclares⟩
  · rw [Except.ok.injEq, Prod.mk.injEq] at h
    obtain ⟨rfl, rfl⟩ := h
    exact ⟨[], source, .absent, hblanks, rfl, rfl⟩

theorem TailAt.readOptions?_eq {segment : List Char} {options : List SegmentOption}
    {declared : Options} (h : TailAt source options stop) (hrest : Blanks stop rest)
    (hend : EndsSegment rest) (hdeclares : Declares none [] options declared) :
    readOptions? segment source = .ok (declared, rest) := by
  cases h with
  | absent =>
    rw [readOptions?, hrest.skipBlank_eq hend.not_blank, hdeclares.eq_of_nil]
    obtain ⟨c, hc, hend⟩ := hend
    obtain ⟨tail, rfl⟩ := List.head?_eq_some_iff.mp hc
    rcases hend with rfl | rfl <;> rfl
  | present hcolons hnext hoptions =>
    rw [readOptions?, hcolons.skipBlank_eq (by simp [isBlank])]
    exact hoptions.readOptions_eq hrest hend hnext hdeclares

theorem readSegment_sound {value : RawValue} {segment : List Char} {s : Segment}
    (h : readSegment value segment source = .ok (s, rest)) :
    ∃ stop, CompletedAt value source s stop ∧ Blanks stop rest := by
  simp only [readSegment] at h
  split at h
  · simp at h
  · rename_i declared rest' hoptions
    split at h
    · simp at h
    · rename_i s' hs
      rw [Except.ok.injEq, Prod.mk.injEq] at h
      obtain ⟨rfl, rfl⟩ := h
      obtain ⟨options, stop, htail, hstop, htype, hmodifiers⟩ := readOptions?_sound hoptions
      obtain ⟨base, htyped, rfl⟩ := segmentOf_eq_ok_iff.mp hs
      simp only [Option.toList_none, List.nil_append, List.reverse_nil] at htype hmodifiers
      rw [← hmodifiers]
      exact ⟨stop, .intro htail htype htyped, hstop.trans (blanks_skipBlank rest')⟩

theorem CompletedAt.readSegment_eq {value : RawValue} {segment : List Char} {s : Segment}
    (h : CompletedAt value source s stop) (hrest : Blanks stop rest) (hend : EndsSegment rest) :
    readSegment value segment source = .ok (s, rest) := by
  obtain ⟨htail, htype, htyped⟩ := h
  rename_i options type base
  have hdeclares : Declares none [] options
      ⟨type, options.filterMap SegmentOption.modifier?⟩ := ⟨by simpa using htype, rfl⟩
  have hs : segmentOf value ⟨type, options.filterMap SegmentOption.modifier?⟩ =
      .ok ((options.filterMap SegmentOption.modifier?).foldl Segment.withModifier base) :=
    segmentOf_eq_ok_iff.mpr ⟨base, htyped, rfl⟩
  simp only [readSegment, htail.readOptions?_eq hrest hend hdeclares, hs]
  rw [skipBlank_eq_self hend.not_blank]

/-! ## Values -/

/-- After a value comes, past blanks, what a value may be followed by. -/
theorem CompletedAt.follows {value : RawValue} {s : Segment} (h : CompletedAt value source s stop)
    (hrest : Blanks stop rest) (hend : EndsSegment rest) : Follows [':', ',', '>'] source := by
  obtain ⟨htail, -, -⟩ := h
  cases htail with
  | absent =>
    obtain ⟨c, hc, hend⟩ := hend
    obtain ⟨tail, rfl⟩ := List.head?_eq_some_iff.mp hc
    refine hrest.follows ?_
    rcases hend with rfl | rfl <;> simp
  | present hcolons => exact hcolons.follows (by simp)

theorem Follows.ends (h : Follows [':', ',', '>'] rest) : Ends rest := by
  intro c hc
  refine ⟨not_isNameChar_of_follows h (by decide) hc, ?_⟩
  rintro rfl
  exact h.ne_head (by decide) (by simp) hc

end ClauseMatch.Literal
