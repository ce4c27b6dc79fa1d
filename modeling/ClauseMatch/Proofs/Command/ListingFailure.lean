import ClauseMatch.Proofs.Command.Listing

/-!
# What a listing reports

A source that is not printed is not listed either, but what is reported can differ. Without a
listing all segments are encoded before any element is looked at, and elements are counted through
all of them. With a listing the segments are encoded and printed in turn: an element that is not a
byte is met before the floats of later segments, and counted from the start of its own segment. What
is reported is the same exactly if no such element comes late, behind elements of earlier segments
or before a float that cannot be encoded.
-/

namespace ClauseMatch.Command

variable {format : OutputFormat} {source out : String} {segments before after : List Segment}
  {s : Segment} {cause : EncodeError} {place : Nat} {v : Int64}

/-! ## Failing without a listing -/

/-- Segments that are not printed together have a misfit among them, or elements that are not
bytes. -/
theorem encodeSegments_unlisted_eq_error_iff :
    encodeSegments ⟨format, false⟩ segments = .error cause ↔
      (∃ r, FirstMisfit segments r ∧ cause = r.misfitError) ∨
        ∃ bits, Bitstring.ofSegments segments = .ok bits ∧ format = .hex ∧
          ∃ index v, FirstOffender bits.values index v ∧ cause = .notAByte index v := by
  rw [encodeSegments_unlisted, bind_eq_error_iff, Bitstring.ofSegments_eq_error_iff]
  simp only [render_eq_error_iff]

theorem firstMisfit_singleton_iff {r : Segment} : FirstMisfit [s] r ↔ s.Misfit ∧ r = s := by
  have hnone : ¬ FirstMisfit [] r := by
    rintro ⟨front, back, hsplit, -⟩
    exact List.append_ne_nil_of_right_ne_nil front (List.cons_ne_nil r back) hsplit.symm
  simp [firstMisfit_cons_iff, hnone]

theorem exists_firstMisfit (h : ∃ r ∈ segments, r.Misfit) : ∃ r, FirstMisfit segments r := by
  induction segments with
  | nil => simp at h
  | cons s segments ih =>
    by_cases hs : s.Misfit
    · exact ⟨s, firstMisfit_cons_iff.mpr (Or.inl ⟨hs, rfl⟩)⟩
    · obtain ⟨r, hr⟩ := ih (by simpa [hs] using h)
      exact ⟨r, firstMisfit_cons_iff.mpr (Or.inr ⟨hs, hr⟩)⟩

theorem firstMisfit_append {r : Segment} (hbefore : ∀ q ∈ before, ¬ q.Misfit)
    (h : FirstMisfit after r) : FirstMisfit (before ++ after) r := by
  obtain ⟨front, back, rfl, hfront, hr⟩ := h
  exact ⟨before ++ front, back, (List.append_assoc before front (r :: back)).symm,
    List.forall_mem_append.mpr ⟨hbefore, hfront⟩, hr⟩

theorem FirstOffender.within {values front back : List Int64} (h : FirstOffender values place v)
    (hfront : ∀ u ∈ front, IsByte u) :
    FirstOffender (front ++ (values ++ back)) (front.length + place) v := by
  obtain ⟨own, rest, rfl, hown, hv, rfl⟩ := h
  exact ⟨front ++ own, rest ++ back, by simp, List.forall_mem_append.mpr ⟨hfront, hown⟩, hv,
    List.length_append.symm⟩

/-! ## Failing with a listing -/

/-- A listing fails at the first segment that is not printed by itself. -/
theorem listSegments_eq_error_iff :
    listSegments format place segments out = .error cause ↔
      ∃ before s after, segments = before ++ s :: after ∧
        (∃ entries, Listed format before entries) ∧
        encodeSegments ⟨format, false⟩ [s] = .error cause := by
  induction segments generalizing place out with
  | nil => simp [listSegments]
  | cons s segments ih =>
    rw [listSegments]
    constructor
    · intro h
      cases hline : segmentLine format place s with
      | error cause' =>
        rw [hline] at h
        obtain rfl := Except.error.inj h
        rw [segmentLine_eq, map_eq_error_iff] at hline
        exact ⟨[], s, segments, rfl, ⟨[], .nil⟩, hline⟩
      | ok line =>
        rw [hline] at h
        obtain ⟨e, rfl, he⟩ := exists_printed_of_segmentLine hline
        obtain ⟨before, r, after, rfl, ⟨entries, hentries⟩, hr⟩ := ih.mp h
        exact ⟨e.segment :: before, r, after, rfl,
          ⟨e :: entries, listed_cons_iff.mpr ⟨e, entries, rfl, rfl, he, hentries⟩⟩, hr⟩
    · rintro ⟨before, r, after, hsplit, ⟨entries, hentries⟩, hr⟩
      cases before with
      | nil =>
        obtain ⟨rfl, -⟩ := List.cons.inj hsplit
        rw [segmentLine_eq, hr]
        rfl
      | cons q before =>
        obtain ⟨rfl, rfl⟩ := List.cons.inj hsplit
        obtain ⟨e, rest, -, rfl, he, hrest⟩ := listed_cons_iff.mp hentries
        rw [he.segmentLine_eq place]
        exact ih.mpr ⟨before, r, after, rfl, ⟨rest, hrest⟩, hr⟩

theorem encodeSegments_listed_eq_error_iff :
    encodeSegments ⟨format, true⟩ segments = .error cause ↔
      ∃ before s after, segments = before ++ s :: after ∧
        (∃ entries, Listed format before entries) ∧
        encodeSegments ⟨format, false⟩ [s] = .error cause := by
  rw [encodeSegments_listed, bind_eq_error_iff, listSegments_eq_error_iff]
  refine or_iff_left ?_
  -- After the listing the segments are printed together.
  rintro ⟨listing, hlisting, hplain⟩
  obtain ⟨entries, hlisted, -⟩ := listSegments_eq_ok_iff.mp hlisting
  obtain ⟨plain, hprinted⟩ := hlisted.exists_printed
  rw [hprinted] at hplain
  cases hplain

/-! ## Both ways -/

/-- In hexadecimal, segments that are printed by themselves encode to the elements `front`, and the
segment after them is not: its first element that is not a byte is `v` at `place`. -/
inductive OffenderBehind : List Segment → List Int64 → Nat → Int64 → List Segment → Prop where
  | intro {before after : List Segment} {s : Segment} {front own : Bitstring} {place : Nat}
      {v : Int64} : Bitstring.ofSegments before = .ok front → (∀ u ∈ front.values, IsByte u) →
      Bitstring.ofSegments [s] = .ok own → FirstOffender own.values place v →
      OffenderBehind (before ++ s :: after) front.values place v after

theorem OffenderBehind.encodeSegments_listed {front : List Int64}
    (h : OffenderBehind segments front place v after) :
    encodeSegments ⟨.hex, true⟩ segments = .error (.notAByte place v) := by
  cases h with
  | @intro before after s front own place v hfront hbytes hown hfirst =>
    obtain ⟨plain, hplain⟩ : ∃ plain, encodeSegments ⟨.hex, false⟩ before = .ok plain := by
      obtain ⟨plain, hplain⟩ := exists_render_iff.mpr fun _ => hbytes
      exact ⟨plain, encodeSegments_unlisted_eq_ok_iff.mpr ⟨front, hfront, hplain⟩⟩
    exact encodeSegments_listed_eq_error_iff.mpr ⟨before, s, after, rfl,
      exists_listed_of_printed hplain, encodeSegments_unlisted_eq_error_iff.mpr
        (Or.inr ⟨own, hown, rfl, place, v, hfirst, rfl⟩)⟩

/-- A misfit in a later segment is found first. -/
theorem OffenderBehind.encodeSegments_of_misfit {front : List Int64} {r : Segment}
    (h : OffenderBehind segments front place v after) (hr : FirstMisfit after r) :
    encodeSegments ⟨format, false⟩ segments = .error r.misfitError := by
  cases h with
  | @intro before after s front own place v hfront _ hown _ =>
    have hbefore : ∀ q ∈ before ++ [s], ¬ q.Misfit := List.forall_mem_append.mpr
      ⟨Literal.not_misfit_of_ofSegments hfront, Literal.not_misfit_of_ofSegments hown⟩
    have hmisfit := firstMisfit_append hbefore hr
    rw [List.append_assoc, List.singleton_append] at hmisfit
    exact encodeSegments_unlisted_eq_error_iff.mpr (Or.inl ⟨r, hmisfit, rfl⟩)

/-- Without misfits the same element is found, and counted through all segments. -/
theorem OffenderBehind.encodeSegments_of_no_misfit {front : List Int64}
    (h : OffenderBehind segments front place v after) (hafter : ∀ r ∈ after, ¬ r.Misfit) :
    encodeSegments ⟨.hex, false⟩ segments = .error (.notAByte (front.length + place) v) := by
  cases h with
  | @intro before after s front own place v hfront hbytes hown hfirst =>
    obtain ⟨back, hback⟩ : ∃ back, Bitstring.ofSegments after = .ok back := by
      cases hback : Bitstring.ofSegments after with
      | ok back => exact ⟨back, rfl⟩
      | error cause =>
        obtain ⟨r, ⟨left, right, rfl, -, hr⟩, -⟩ := Bitstring.ofSegments_eq_error_iff.mp hback
        exact absurd hr (hafter r (by simp))
    have hall := Bitstring.ofSegments_around_eq_ok_iff.mpr
      ⟨front, own, back, hfront, hown, hback, rfl⟩
    exact encodeSegments_unlisted_eq_error_iff.mpr
      (Or.inr ⟨_, hall, rfl, front.values.length + place, v, hfirst.within hbytes, rfl⟩)

/-- Where a listing fails, either a misfit is found, without a listing as well, or an element that
is not a byte. -/
theorem encodeSegments_listed_error_cases
    (h : encodeSegments ⟨format, true⟩ segments = .error cause) :
    encodeSegments ⟨format, false⟩ segments = .error cause ∨
      format = .hex ∧ ∃ front place v after, OffenderBehind segments front place v after := by
  obtain ⟨before, s, after, rfl, ⟨entries, hlisted⟩, hs⟩ := encodeSegments_listed_eq_error_iff.mp h
  have hfront := hlisted.ofSegments_eq
  rcases encodeSegments_unlisted_eq_error_iff.mp hs with ⟨r, hr, rfl⟩ | ⟨own, hown, rfl, hfirst⟩
  · obtain ⟨hmisfit, rfl⟩ := firstMisfit_singleton_iff.mp hr
    have hfound : FirstMisfit (before ++ r :: after) r :=
      ⟨before, after, rfl, Literal.not_misfit_of_ofSegments hfront, hmisfit⟩
    exact Or.inl (encodeSegments_unlisted_eq_error_iff.mpr (Or.inl ⟨r, hfound, rfl⟩))
  · obtain ⟨place, v, hfirst, -⟩ := hfirst
    exact Or.inr ⟨rfl, _, place, v, after, .intro hfront hlisted.isByte hown hfirst⟩

/-! ## Sources -/

/-- In hexadecimal the source has an element that is not a byte in the first segment that is not
printed by itself, and it comes late: there are elements before this segment, or misfits after
it. -/
def LateOffender (format : OutputFormat) (source : String) : Prop :=
  format = .hex ∧ ∃ segments front place v after, Literal.parse source = .ok segments ∧
    OffenderBehind segments front place v after ∧ (front ≠ [] ∨ ∃ r ∈ after, r.Misfit)

theorem LateOffender.not_same_error (h : LateOffender format source) {e : EncodeFailure}
    (hplain : encodeLiteral ⟨format, false⟩ source = .error e) :
    encodeLiteral ⟨format, true⟩ source ≠ .error e := by
  obtain ⟨rfl, segments, front, place, v, after, hparse, hoffender, hlate⟩ := h
  rw [encodeLiteral_of_parse hparse, mapError_eq_error_iff] at hplain
  obtain ⟨cause, hcause, rfl⟩ := hplain
  rw [encodeLiteral_of_parse hparse, hoffender.encodeSegments_listed]
  intro hsame
  obtain rfl := EncodeFailure.encode.inj (Except.error.inj hsame)
  by_cases hmisfit : ∃ r ∈ after, r.Misfit
  · obtain ⟨r, hr⟩ := exists_firstMisfit hmisfit
    have hfirst := hcause.symm.trans (hoffender.encodeSegments_of_misfit hr)
    cases Except.error.inj hfirst
  · have hafter : ∀ r ∈ after, ¬ r.Misfit := fun r hr hr' => hmisfit ⟨r, hr, hr'⟩
    have hplace := EncodeError.notAByte.inj
      (Except.error.inj (hcause.symm.trans (hoffender.encodeSegments_of_no_misfit hafter)))
    have hfront : front.length ≠ 0 := mt List.length_eq_zero_iff.mp (hlate.resolve_right hmisfit)
    omega

theorem same_error_of_not_lateOffender (h : ¬ LateOffender format source) {e : EncodeFailure}
    (hplain : encodeLiteral ⟨format, false⟩ source = .error e) :
    encodeLiteral ⟨format, true⟩ source = .error e := by
  cases hparse : Literal.parse source with
  | error e' =>
    simp only [encodeLiteral, hparse] at hplain ⊢
    exact hplain
  | ok segments =>
    rw [encodeLiteral_of_parse hparse, mapError_eq_error_iff] at hplain ⊢
    obtain ⟨cause, hcause, rfl⟩ := hplain
    refine ⟨cause, ?_, rfl⟩
    cases hlisting : encodeSegments ⟨format, true⟩ segments with
    | ok out =>
      obtain ⟨-, plain, -, hplain, -⟩ := encodeSegments_listed_eq_ok_iff.mp hlisting
      rw [hcause] at hplain
      cases hplain
    | error cause' =>
      rcases encodeSegments_listed_error_cases hlisting with
        hsame | ⟨rfl, front, place, v, after, hoffender⟩
      · rw [← hcause, hsame]
      · have hearly : ¬ (front ≠ [] ∨ ∃ r ∈ after, r.Misfit) := fun hlate =>
          h ⟨rfl, segments, front, place, v, after, hparse, hoffender, hlate⟩
        obtain ⟨hfront, hafter⟩ := not_or.mp hearly
        obtain rfl := not_not.mp hfront
        have hplain := hoffender.encodeSegments_of_no_misfit
          fun r hr hr' => hafter ⟨r, hr, hr'⟩
        rw [List.length_nil, Nat.zero_add, ← hoffender.encodeSegments_listed, hlisting] at hplain
        rw [← hcause, hplain]

/-- A source that is rejected is rejected alike with a listing and without. Where an element of the
first segment that is not printed by itself is not a byte, the listing reports its place in this
segment; otherwise the first later misfit is reported, or the same element with its place among all
elements. So a source that is not printed is reported alike both ways exactly if there is no late
offender in it. -/
theorem listing_changes_the_report_of_late_offenders_only (format : OutputFormat)
    (source : String) :
    (∀ e, encodeLiteral ⟨format, true⟩ source = .error (.parse e) ↔
      encodeLiteral ⟨format, false⟩ source = .error (.parse e)) ∧
    (∀ segments front place v after, Literal.parse source = .ok segments →
      OffenderBehind segments front place v after →
      encodeLiteral ⟨.hex, true⟩ source = .error (.encode (.notAByte place v)) ∧
      (∀ r, FirstMisfit after r →
        encodeLiteral ⟨.hex, false⟩ source = .error (.encode r.misfitError)) ∧
      ((∀ r ∈ after, ¬ r.Misfit) → encodeLiteral ⟨.hex, false⟩ source =
        .error (.encode (.notAByte (front.length + place) v)))) ∧
    ∀ e, encodeLiteral ⟨format, false⟩ source = .error e →
      (encodeLiteral ⟨format, true⟩ source = .error e ↔ ¬ LateOffender format source) := by
  refine ⟨fun e => ?_, fun segments front place v after hparse h => ?_, fun e hplain => ?_⟩
  · rw [encodeLiteral_eq_parse_error_iff, encodeLiteral_eq_parse_error_iff]
  · simp only [encodeLiteral_of_parse hparse, mapError_eq_error_iff, h.encodeSegments_listed]
    refine ⟨⟨_, rfl, rfl⟩, fun r hr => ?_, fun hafter => ?_⟩
    · exact ⟨_, h.encodeSegments_of_misfit hr, rfl⟩
    · exact ⟨_, h.encodeSegments_of_no_misfit hafter, rfl⟩
  · exact ⟨fun hsame hlate => hlate.not_same_error hplain hsame,
      fun h => same_error_of_not_lateOffender h hplain⟩

/-- The number 300 behind another number and before a float of eight bits. -/
theorem listing_changes_the_report_of_late_offenders_only_between :
    encodeLiteral ⟨.hex, true⟩ "<<1, 300, 0.0::size(8)>>" =
      .error (.encode (.notAByte 0 300)) ∧
    encodeLiteral ⟨.hex, false⟩ "<<1, 300, 0.0::size(8)>>" =
      .error (.encode (.invalidFloatSize 8)) ∧
    encodeLiteral ⟨.hex, false⟩ "<<1, 300>>" = .error (.encode (.notAByte 1 300)) ∧
    encodeLiteral ⟨.hex, true⟩ "<<1, 300>>" ≠ .error (.encode (.notAByte 1 300)) := by
  have hone : ∀ u ∈ [(1 : Int64)], IsByte u := List.forall_mem_singleton.mpr (by decide)
  have hoffender (after : List Segment) :
      OffenderBehind ([.integer 1] ++ .integer 300 :: after) [1] 0 300 after :=
    .intro (ofSegments_integers [1]) hone (ofSegments_integers [300])
      ⟨[], [], rfl, List.forall_mem_nil _, by decide, rfl⟩
  have hfloat : Literal.parse "<<1, 300, 0.0::size(8)>>" =
      .ok [.integer 1, .integer 300, (Segment.float ⟨0⟩).size 8] := by
    with_unfolding_all rfl
  have hmisfit : FirstMisfit [(Segment.float ⟨0⟩).size 8]
      ((Segment.float ⟨0⟩).size 8) :=
    firstMisfit_singleton_iff.mpr ⟨⟨rfl, by decide, by decide⟩, rfl⟩
  have hnumbers : Literal.parse "<<1, 300>>" = .ok [.integer 1, .integer 300] := by
    with_unfolding_all rfl
  obtain ⟨-, hreports, -⟩ :=
    listing_changes_the_report_of_late_offenders_only .hex "<<1, 300, 0.0::size(8)>>"
  obtain ⟨hlisted, hplain, -⟩ := hreports _ _ _ _ _ hfloat (hoffender _)
  obtain ⟨-, hreports', hsame⟩ :=
    listing_changes_the_report_of_late_offenders_only .hex "<<1, 300>>"
  obtain ⟨-, -, hplain'⟩ := hreports' _ _ _ _ _ hnumbers (hoffender [])
  have hcounted := hplain' (List.forall_mem_nil _)
  have hlate : LateOffender .hex "<<1, 300>>" :=
    ⟨rfl, _, _, _, _, _, hnumbers, hoffender [], Or.inl (List.cons_ne_nil 1 [])⟩
  exact ⟨hlisted, hplain _ hmisfit, hcounted, fun h => (hsame _ hcounted).mp h hlate⟩

/-- A listing does not always report what is reported without one. -/
theorem not_listing_keeps_report :
    ¬ ∀ format source e, encodeLiteral ⟨format, false⟩ source = .error e →
      encodeLiteral ⟨format, true⟩ source = .error e := by
  intro h
  have hplain : encodeLiteral ⟨.hex, false⟩ "<<1, 300>>" = .error (.encode (.notAByte 1 300)) := by
    with_unfolding_all rfl
  have hlisted : encodeLiteral ⟨.hex, true⟩ "<<1, 300>>" = .error (.encode (.notAByte 0 300)) := by
    with_unfolding_all rfl
  have hsame := h .hex "<<1, 300>>" _ hplain
  rw [hlisted] at hsame
  cases hsame

end ClauseMatch.Command
