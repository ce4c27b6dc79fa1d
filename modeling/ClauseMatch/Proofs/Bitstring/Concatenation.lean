import ClauseMatch.Proofs.Bitstring.Modifiers
import Mathlib.Algebra.GroupWithZero.Nat
import Mathlib.Data.List.Forall2

/-!
# Segment by segment

A bitstring encodes each of its segments as if there were no other. Whether a segment can be encoded
is a matter of its value and its recorded size, and where one cannot, the first that cannot decides
the error. All others give the elements that they give on their own, in order, so that modifiers
change nothing but the elements of their own segment, and never how many these are.
-/

namespace ClauseMatch

/-! ## Segments that cannot be encoded -/

namespace Segment

/-- A double of another size than 32 and 64 bits. -/
structure Misfit (s : Segment) : Prop where
  float : s.kind = .float
  not_single : s.recordedSize ≠ some 32
  not_double : s.recordedSize ≠ some 64

/-- The error of a misfit, which names its size. -/
def misfitError (s : Segment) : EncodeError := .invalidFloatSize (s.recordedSize.getD 0)

theorem encode_eq_error_iff {s : Segment} {cause : EncodeError} :
    s.encode = .error cause ↔ s.Misfit ∧ cause = s.misfitError := by
  rw [encode_eq, map_eq_error_iff]
  by_cases hfloat : s.kind = .float
  · obtain ⟨x, hx⟩ : ∃ x, s.value = .float x := by
      cases hvalue : s.value <;> simp_all [kind, SegmentValue.kind]
    have hconversion : s.value.conversion s.recordedSize =
        (floatBytes x (s.recordedSize.getD 0)).map elements := by rw [hx]; rfl
    rw [hconversion, map_eq_error_iff, floatBytes_eq_error_iff]
    have hsize (bits : UInt32) (hbits : bits ≠ 0) :
        s.recordedSize.getD 0 ≠ bits ↔ s.recordedSize ≠ some bits := by
      cases s.recordedSize <;> simp [hbits.symm]
    rw [hsize 32 (by decide), hsize 64 (by decide), ← and_assoc]
    exact and_congr_left fun _ => ⟨fun h => ⟨hfloat, h.1, h.2⟩, fun h => ⟨h.2, h.3⟩⟩
  · obtain ⟨values, hvalues⟩ := conversion_of_kind_ne_float hfloat
    rw [hvalues]
    simp only [reduceCtorEq, false_iff, not_and]
    exact fun h => absurd h.float hfloat

theorem exists_encode_iff {s : Segment} : (∃ out, s.encode = .ok out) ↔ ¬ s.Misfit := by
  cases hencode : s.encode with
  | error cause => simpa using (encode_eq_error_iff.mp hencode).1
  | ok out =>
    simp only [Except.ok.injEq, exists_eq', true_iff]
    intro hmisfit
    have herror : s.encode = .error s.misfitError := encode_eq_error_iff.mpr ⟨hmisfit, rfl⟩
    rw [hencode] at herror
    cases herror

end Segment

/-- A segment is the first misfit of a list. -/
def FirstMisfit (segments : List Segment) (s : Segment) : Prop :=
  ∃ before after, segments = before ++ s :: after ∧ (∀ r ∈ before, ¬ r.Misfit) ∧ s.Misfit

theorem firstMisfit_cons_iff {segments : List Segment} {r s : Segment} :
    FirstMisfit (r :: segments) s ↔
      (r.Misfit ∧ s = r) ∨ (¬ r.Misfit ∧ FirstMisfit segments s) := by
  constructor
  · rintro ⟨before, after, hsplit, hbefore, hs⟩
    cases before with
    | nil =>
      obtain ⟨rfl, -⟩ := List.cons.inj hsplit
      exact Or.inl ⟨hs, rfl⟩
    | cons q before =>
      obtain ⟨rfl, hrest⟩ := List.cons.inj hsplit
      obtain ⟨hr, hbefore⟩ := List.forall_mem_cons.mp hbefore
      exact Or.inr ⟨hr, before, after, hrest, hbefore, hs⟩
  · rintro (⟨hr, rfl⟩ | ⟨hr, before, after, rfl, hbefore, hs⟩)
    · exact ⟨[], segments, rfl, List.forall_mem_nil _, hr⟩
    · exact ⟨r :: before, after, rfl, List.forall_mem_cons.mpr ⟨hr, hbefore⟩, hs⟩

theorem encodeSegments_eq_error_iff {segments : List Segment} {cause : EncodeError} :
    encodeSegments segments = .error cause ↔
      ∃ s, FirstMisfit segments s ∧ cause = s.misfitError := by
  induction segments with
  | nil => simp [encodeSegments_nil, FirstMisfit]
  | cons r segments ih =>
    rw [encodeSegments_cons]
    simp only [firstMisfit_cons_iff]
    cases hencode : r.encode with
    | error cause' =>
      obtain ⟨hmisfit, rfl⟩ := Segment.encode_eq_error_iff.mp hencode
      simp [Except.bind, hmisfit, eq_comm]
    | ok out =>
      have hfits : ¬ r.Misfit := Segment.exists_encode_iff.mp ⟨out, hencode⟩
      simp [Except.bind, map_eq_error_iff, hfits, ih]

namespace Bitstring

/-- Encoding fails if there is a misfit, with the error of the first one. -/
theorem ofSegments_eq_error_iff {segments : List Segment} {cause : EncodeError} :
    ofSegments segments = .error cause ↔
      ∃ s, FirstMisfit segments s ∧ cause = s.misfitError := by
  rw [ofSegments, map_eq_error_iff, encodeSegments_eq_error_iff]

/-! ## Segments on their own -/

theorem ofSegments_singleton_eq_ok_iff {s : Segment} {b : Bitstring} :
    ofSegments [s] = .ok b ↔ b.segments = [s] ∧ s.encode = .ok b.values := by
  rw [ofSegments, encodeSegments_cons, encodeSegments_nil]
  cases s.encode with
  | error cause => simp [Except.bind, Except.map]
  | ok out =>
    obtain ⟨segments, values⟩ := b
    simp [Except.bind, Except.map, eq_comm]

/-- The segments of a list as bitstrings of their own. -/
def Alone (segments : List Segment) (parts : List Bitstring) : Prop :=
  List.Forall₂ (fun s part => ofSegments [s] = .ok part) segments parts

theorem encodeSegments_eq_ok_iff_alone {segments : List Segment} {outs : List (List Int64)} :
    encodeSegments segments = .ok outs ↔
      ∃ parts, Alone segments parts ∧ outs = parts.map (·.values) := by
  rw [encodeSegments_eq_ok_iff]
  constructor
  · intro h
    induction h with
    | nil => exact ⟨[], .nil, rfl⟩
    | @cons s out segments outs hout _ ih =>
      obtain ⟨parts, hparts, rfl⟩ := ih
      have hpart : ofSegments [s] = .ok ⟨[s], out⟩ :=
        ofSegments_singleton_eq_ok_iff.mpr ⟨rfl, hout⟩
      exact ⟨⟨[s], out⟩ :: parts, .cons hpart hparts, rfl⟩
  · rintro ⟨parts, hparts, rfl⟩
    refine List.forall₂_map_right_iff.mpr (hparts.imp fun s part hpart => ?_)
    exact (ofSegments_singleton_eq_ok_iff.mp hpart).2

/-- A bitstring has the segments that it was built from and, in order, the elements that each of
them has on its own. -/
theorem ofSegments_eq_ok_iff {segments : List Segment} {b : Bitstring} :
    ofSegments segments = .ok b ↔
      b.segments = segments ∧ ∃ parts, Alone segments parts ∧
        b.values = parts.flatMap (·.values) ∧ b.length = (parts.map length).sum := by
  have hlength (parts : List Bitstring) :
      (parts.flatMap (·.values)).length = (parts.map length).sum := List.length_flatMap
  obtain ⟨segments', values⟩ := b
  rw [ofSegments, map_eq_ok_iff]
  simp only [encodeSegments_eq_ok_iff_alone, mk.injEq]
  constructor
  · rintro ⟨_, ⟨parts, hparts, rfl⟩, rfl, rfl⟩
    exact ⟨rfl, parts, hparts, rfl, hlength parts⟩
  · rintro ⟨rfl, parts, hparts, rfl, -⟩
    exact ⟨_, ⟨parts, hparts, rfl⟩, rfl, rfl⟩

/-! ## Segments in a row -/

theorem ofSegments_append_eq_ok_iff {xs ys : List Segment} {c : Bitstring} :
    ofSegments (xs ++ ys) = .ok c ↔
      ∃ a b, ofSegments xs = .ok a ∧ ofSegments ys = .ok b ∧
        c = ⟨xs ++ ys, a.values ++ b.values⟩ := by
  rw [ofSegments_append]
  cases ofSegments xs with
  | error cause => simp [Except.bind]
  | ok a =>
    rw [Except.bind, map_eq_ok_iff]
    constructor
    · rintro ⟨b, hb, rfl⟩
      exact ⟨a, b, rfl, hb, rfl⟩
    · rintro ⟨a', b, ha, hb, rfl⟩
      obtain rfl := Except.ok.inj ha
      exact ⟨b, hb, rfl⟩

theorem ofSegments_around_eq_ok_iff {before after : List Segment} {s : Segment} {c : Bitstring} :
    ofSegments (before ++ s :: after) = .ok c ↔
      ∃ front own back, ofSegments before = .ok front ∧ ofSegments [s] = .ok own ∧
        ofSegments after = .ok back ∧
        c = ⟨before ++ s :: after, front.values ++ (own.values ++ back.values)⟩ := by
  have hrest {b : Bitstring} : ofSegments (s :: after) = .ok b ↔
      ∃ own back, ofSegments [s] = .ok own ∧ ofSegments after = .ok back ∧
        b = ⟨s :: after, own.values ++ back.values⟩ :=
    @ofSegments_append_eq_ok_iff [s] after b
  rw [ofSegments_append_eq_ok_iff]
  constructor
  · rintro ⟨front, b, hfront, hb, rfl⟩
    obtain ⟨own, back, hown, hback, rfl⟩ := hrest.mp hb
    exact ⟨front, own, back, hfront, hown, hback, rfl⟩
  · rintro ⟨front, own, back, hfront, hown, hback, rfl⟩
    exact ⟨front, _, hfront, hrest.mpr ⟨own, back, hown, hback, rfl⟩, rfl⟩

end Bitstring

/-- Two segments that have been given other modifiers, but the same value, size and unit. -/
structure Segment.SameButModifiers (s s' : Segment) : Prop where
  value : s'.value = s.value
  recordedSize : s'.recordedSize = s.recordedSize
  recordedUnit : s'.recordedUnit = s.recordedUnit

theorem Segment.SameButModifiers.exists_encode {s s' : Segment} (h : s.SameButModifiers s')
    {out : List Int64} (hout : s.encode = .ok out) :
    ∃ out', s'.encode = .ok out' ∧ out'.length = out.length := by
  rw [encode_eq] at hout
  obtain ⟨converted, hconverted, rfl⟩ := map_eq_ok_iff.mp hout
  refine ⟨arranged s'.modifiers converted, ?_, ?_⟩
  · rw [encode_eq, h.value, h.recordedSize, hconverted]
    rfl
  · rw [length_arranged, length_arranged]

namespace Bitstring

/-- Other modifiers on one segment leave the elements of all other segments what they are and where
they are. -/
theorem exists_ofSegments_of_sameButModifiers {before after : List Segment} {s s' : Segment}
    {b : Bitstring} (hsame : s.SameButModifiers s')
    (hb : ofSegments (before ++ s :: after) = .ok b) :
    ∃ front own own' back, ofSegments before = .ok front ∧ ofSegments [s] = .ok own ∧
      ofSegments [s'] = .ok own' ∧ ofSegments after = .ok back ∧ own'.length = own.length ∧
      b.values = front.values ++ (own.values ++ back.values) ∧
      ofSegments (before ++ s' :: after) =
        .ok ⟨before ++ s' :: after, front.values ++ (own'.values ++ back.values)⟩ := by
  obtain ⟨front, own, back, hfront, hown, hback, rfl⟩ := ofSegments_around_eq_ok_iff.mp hb
  obtain ⟨-, hencode⟩ := ofSegments_singleton_eq_ok_iff.mp hown
  obtain ⟨out', hout', hlength⟩ := hsame.exists_encode hencode
  have hown' : ofSegments [s'] = .ok ⟨[s'], out'⟩ :=
    ofSegments_singleton_eq_ok_iff.mpr ⟨rfl, hout'⟩
  exact ⟨front, own, ⟨[s'], out'⟩, back, hfront, hown, hown', hback, hlength, rfl,
    ofSegments_around_eq_ok_iff.mpr ⟨front, _, back, hfront, hown', hback, rfl⟩⟩

/-- Segments fail to encode exactly if there is a double of another size than 32 and 64 among them,
and the first one is named. All others are kept as they are, and encode, one after the other, to the
elements that each has on its own. So lists of segments in a row encode exactly if both do, to the
elements of the one and then of the other; and other modifiers on one segment, whether it is made
little or signed or no longer is, leave every element of another segment what it is and where it
is. -/
theorem segments_encode_one_by_one :
    (∀ segments cause, ofSegments segments = .error cause ↔
      ∃ s, FirstMisfit segments s ∧ cause = .invalidFloatSize (s.recordedSize.getD 0)) ∧
    (∀ segments b, ofSegments segments = .ok b ↔
      b.segments = segments ∧ ∃ parts, Alone segments parts ∧
        b.values = parts.flatMap (·.values) ∧ b.length = (parts.map length).sum) ∧
    (∀ xs ys c, ofSegments (xs ++ ys) = .ok c ↔
      ∃ a b, ofSegments xs = .ok a ∧ ofSegments ys = .ok b ∧
        c = ⟨xs ++ ys, a.values ++ b.values⟩) ∧
    (∀ s : Segment, s.SameButModifiers s.little ∧ s.SameButModifiers s.signed) ∧
    ∀ (before after : List Segment) (s s' : Segment) (b : Bitstring), s.SameButModifiers s' →
      ofSegments (before ++ s :: after) = .ok b →
      ∃ front own own' back, ofSegments before = .ok front ∧ ofSegments [s] = .ok own ∧
        ofSegments [s'] = .ok own' ∧ ofSegments after = .ok back ∧ own'.length = own.length ∧
        b.values = front.values ++ (own.values ++ back.values) ∧
        ofSegments (before ++ s' :: after) =
          .ok ⟨before ++ s' :: after, front.values ++ (own'.values ++ back.values)⟩ :=
  ⟨fun _ _ => ofSegments_eq_error_iff, fun _ _ => ofSegments_eq_ok_iff,
    fun _ _ _ => ofSegments_append_eq_ok_iff, fun _ => ⟨⟨rfl, rfl, rfl⟩, ⟨rfl, rfl, rfl⟩⟩,
    fun _ _ _ _ _ => exists_ofSegments_of_sameButModifiers⟩

/-- Two misfits that differ in size, and a text that is turned around between two integers. -/
theorem segments_encode_one_by_one_mixed :
    ofSegments [.integer 300, (Segment.float ⟨0⟩).size 7, .utf8 "a", (Segment.float ⟨0⟩).size 0] =
      .error (.invalidFloatSize 7) ∧
    ofSegments [.integer 300, .utf16 "é", .integer (-1)] =
      .ok ⟨[.integer 300, .utf16 "é", .integer (-1)], [300, 0, 233, -1]⟩ ∧
    ∃ own, ofSegments [(Segment.utf16 "é").little] = .ok own ∧ own.length = 2 ∧
      ofSegments [.integer 300, (Segment.utf16 "é").little, .integer (-1)] =
        .ok ⟨[.integer 300, (Segment.utf16 "é").little, .integer (-1)],
          [300] ++ (own.values ++ [-1])⟩ := by
  obtain ⟨herror, -, -, hmodified, hsame⟩ := segments_encode_one_by_one
  have hplain : ofSegments [.integer 300, .utf16 "é", .integer (-1)] =
      .ok ⟨[.integer 300, .utf16 "é", .integer (-1)], [300, 0, 233, -1]⟩ := by
    with_unfolding_all rfl
  refine ⟨(herror _ _).mpr ⟨(Segment.float ⟨0⟩).size 7, ?_, rfl⟩, hplain, ?_⟩
  · refine ⟨[.integer 300], [.utf8 "a", (Segment.float ⟨0⟩).size 0], rfl, ?_, rfl, ?_, ?_⟩
    · exact List.forall_mem_singleton.mpr fun hmisfit => SegmentKind.noConfusion hmisfit.float
    · decide
    · decide
  · obtain ⟨front, own, own', back, hfront, hown, hown', hback, hlength, -, hlittle⟩ :=
      hsame [.integer 300] [.integer (-1)] _ _ _ (hmodified (.utf16 "é")).1 hplain
    obtain rfl := Except.ok.inj ((ofSegments_integers [300]).symm.trans hfront)
    obtain rfl := Except.ok.inj ((ofSegments_integers [-1]).symm.trans hback)
    have htwo : ofSegments [.utf16 "é"] = .ok ⟨[.utf16 "é"], [0, 233]⟩ := by with_unfolding_all rfl
    obtain rfl := Except.ok.inj (htwo.symm.trans hown)
    exact ⟨own', hown', hlength, hlittle⟩

end Bitstring

end ClauseMatch
