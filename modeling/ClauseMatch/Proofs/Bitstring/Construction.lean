import ClauseMatch.Proofs.Bitstring.Bytes

/-!
# Construction of bitstrings

A bitstring keeps its elements beside its segments, and only one of its constructors finds them by
encoding; the others put them down as given. Here every constructor is shown to keep the two
together, and since a segment may hold a bitstring in turn, so do those at any depth. Building a
bitstring once more from its segments, from the inside out and without a look at the elements that
any bitstring keeps, therefore gives it back.
-/

namespace ClauseMatch

/-! ## Building anew -/

mutual

/-- A bitstring built anew from its segments alone, after those that they hold. -/
def Bitstring.rebuilt : Bitstring → Except EncodeError Bitstring
  | ⟨segments, _⟩ => (rebuiltSegments segments).bind Bitstring.ofSegments

/-- A segment with the bitstring that it holds built anew. -/
def Segment.rebuilt : Segment → Except EncodeError Segment
  | ⟨.bitstring bits, size, unit, ms⟩ =>
    bits.rebuilt.map fun bits' => ⟨.bitstring bits', size, unit, ms⟩
  | s => .ok s

/-- Segments with the bitstrings that they hold built anew. -/
def rebuiltSegments : List Segment → Except EncodeError (List Segment)
  | [] => .ok []
  | s :: segments => s.rebuilt.bind fun s' => (rebuiltSegments segments).map (s' :: ·)

end

theorem rebuiltSegments_eq {segments : List Segment} (h : ∀ s ∈ segments, s.rebuilt = .ok s) :
    rebuiltSegments segments = .ok segments := by
  induction segments with
  | nil => rw [rebuiltSegments]
  | cons s segments ih =>
    obtain ⟨hs, hsegments⟩ := List.forall_mem_cons.mp h
    rw [rebuiltSegments, hs, ih hsegments]
    rfl

theorem Segment.rebuilt_eq {s : Segment}
    (h : ∀ bits, s.value = .bitstring bits → bits.rebuilt = .ok bits) : s.rebuilt = .ok s := by
  obtain ⟨value, size, unit, ms⟩ := s
  cases value with
  | bitstring bits =>
    rw [Segment.rebuilt, h bits rfl]
    rfl
  | _ => simp [Segment.rebuilt]

namespace Bitstring

theorem rebuilt_eq {b : Bitstring} (hsegments : ∀ s ∈ b.segments, s.rebuilt = .ok s)
    (h : ofSegments b.segments = .ok b) : b.rebuilt = .ok b := by
  obtain ⟨segments, values⟩ := b
  rw [rebuilt, rebuiltSegments_eq hsegments]
  exact h

/-! ## Bitstrings that have been built -/

/-- The bitstrings that can be built, out of segments that hold such bitstrings in turn. -/
inductive Built : Bitstring → Prop where
  | ofSegments {segments : List Segment} {b : Bitstring} (hsegments : ∀ s ∈ segments, s.Built)
    (hheld : ∀ s ∈ segments, ∀ bits, s.value = .bitstring bits → Built bits)
    (h : Bitstring.ofSegments segments = .ok b) : Built b
  | empty : Built .empty
  | ofBytes (bytes : List UInt8) : Built (.ofBytes bytes)
  | ofValues (values : List Int64) : Built (.ofValues values)

/-- A bitstring, the bitstrings that its segments hold, those that they hold, and so on. -/
inductive Holds : Bitstring → Bitstring → Prop where
  | self (b : Bitstring) : Holds b b
  | inner {b bits c : Bitstring} {s : Segment} (hs : s ∈ b.segments)
    (hvalue : s.value = .bitstring bits) (h : Holds bits c) : Holds b c

theorem segments_of_ofSegments {segments : List Segment} {b : Bitstring}
    (h : ofSegments segments = .ok b) : b.segments = segments := by
  obtain ⟨parts, -, rfl⟩ := map_eq_ok_iff.mp h
  rfl

theorem Built.ofSegments_segments {b : Bitstring} (h : b.Built) :
    Bitstring.ofSegments b.segments = .ok b := by
  cases h with
  | ofSegments hsegments hheld h => rw [segments_of_ofSegments h, h]
  | empty => rfl
  | ofBytes bytes => exact ofSegments_integers _
  | ofValues values => exact ofSegments_integers values

theorem value_ne_of_mem_ofValues {values : List Int64} {s : Segment}
    (h : s ∈ (ofValues values).segments) (bits : Bitstring) : s.value ≠ .bitstring bits := by
  obtain ⟨n, -, rfl⟩ := List.mem_map.mp h
  simp [Segment.integer]

theorem Built.of_held {b bits : Bitstring} {s : Segment} (h : b.Built) (hs : s ∈ b.segments)
    (hvalue : s.value = .bitstring bits) : bits.Built := by
  cases h with
  | ofSegments hsegments hheld h =>
    rw [segments_of_ofSegments h] at hs
    exact hheld s hs bits hvalue
  | empty => cases hs
  | ofBytes | ofValues => exact absurd hvalue (value_ne_of_mem_ofValues hs bits)

theorem Built.of_holds {b c : Bitstring} (h : b.Built) (hc : b.Holds c) : c.Built := by
  induction hc with
  | self => exact h
  | inner hs hvalue _ ih => exact ih (h.of_held hs hvalue)

theorem rebuilt_ofValues (values : List Int64) :
    (ofValues values).rebuilt = .ok (ofValues values) := by
  refine rebuilt_eq (fun s hs => Segment.rebuilt_eq fun bits hvalue => ?_)
    (ofSegments_integers values)
  exact absurd hvalue (value_ne_of_mem_ofValues hs bits)

theorem Built.rebuilt_eq {b : Bitstring} (h : b.Built) : b.rebuilt = .ok b := by
  induction h with
  | ofSegments _ _ h ih =>
    refine Bitstring.rebuilt_eq ?_ (by rw [segments_of_ofSegments h, h])
    rw [segments_of_ofSegments h]
    intro s hs
    exact Segment.rebuilt_eq (ih s hs)
  | empty => exact rebuilt_ofValues []
  | ofBytes bytes => exact rebuilt_ofValues _
  | ofValues values => exact rebuilt_ofValues values

/-! ## Bytes there and back -/

theorem toBytes_ofBytes (bytes : List UInt8) : (ofBytes bytes).toBytes = .ok bytes :=
  toBytes_eq_ok_iff.mpr rfl

theorem beq_iff_values_eq {a b : Bitstring} : (a == b) = true ↔ a.values = b.values := by
  change (a.values == b.values) = true ↔ a.values = b.values
  exact beq_iff_eq

theorem ofBytes_beq_of_toBytes {b : Bitstring} {bytes : List UInt8}
    (h : b.toBytes = .ok bytes) : (ofBytes bytes == b) = true :=
  beq_iff_values_eq.mpr (toBytes_eq_ok_iff.mp h).symm

/-- However a bitstring has been built, and whatever bitstrings its segments hold, they all encode
to the elements that they keep: building it anew from the inside out gives it back, and so does
encoding the segments of any bitstring in it. Its elements, and its bytes if it can be read as bytes,
build a bitstring that is equal to it, and bytes are read back from what they build. -/
theorem segments_and_elements_agree :
    (∀ b : Bitstring, b.Built → b.rebuilt = .ok b ∧
      ∀ c, b.Holds c → Bitstring.ofSegments c.segments = .ok c ∧
        (Bitstring.ofValues c.values == c) = true ∧
        ∀ bytes, c.toBytes = .ok bytes → (Bitstring.ofBytes bytes == c) = true) ∧
    ∀ bytes, (Bitstring.ofBytes bytes).toBytes = .ok bytes := by
  refine ⟨fun b hb => ⟨hb.rebuilt_eq, fun c hc => ?_⟩, toBytes_ofBytes⟩
  have hvalues : (Bitstring.ofValues c.values == c) = true := beq_iff_values_eq.mpr rfl
  exact ⟨(hb.of_holds hc).ofSegments_segments, hvalues, fun bytes => ofBytes_beq_of_toBytes⟩

/-- Bytes that are turned around inside a bitstring, which is signed inside another one. -/
theorem segments_and_elements_agree_two_deep :
    let inner : Bitstring :=
      ⟨[(Segment.bitstring (ofBytes [1, 255])).little, .integer (-2)], [255, 1, -2]⟩
    let outer : Bitstring := ⟨[(Segment.bitstring inner).signed, .utf16 "é"], [255, 1, 254, 0, 233]⟩
    outer.Built ∧ outer.Holds inner ∧ outer.rebuilt = .ok outer ∧
      Bitstring.ofSegments inner.segments = .ok inner := by
  intro inner outer
  have hinner : inner.Built := by
    have h : Bitstring.ofSegments inner.segments = .ok inner := by with_unfolding_all rfl
    have hsegments : ∀ s ∈ inner.segments, s.Built :=
      List.forall_mem_cons.mpr ⟨.withModifier .little (.bitstring _),
        List.forall_mem_singleton.mpr (.integer _)⟩
    refine .ofSegments hsegments (List.forall_mem_cons.mpr ⟨?_, by simp [Segment.integer]⟩) h
    intro bits hbits
    obtain rfl := SegmentValue.bitstring.inj hbits
    exact .ofBytes _
  have houter : outer.Built := by
    have h : Bitstring.ofSegments outer.segments = .ok outer := by with_unfolding_all rfl
    have hsegments : ∀ s ∈ outer.segments, s.Built :=
      List.forall_mem_cons.mpr ⟨.withModifier .signed (.bitstring _),
        List.forall_mem_singleton.mpr (.utf16 _)⟩
    refine .ofSegments hsegments (List.forall_mem_cons.mpr ⟨?_, by simp [Segment.utf16]⟩) h
    intro bits hbits
    obtain rfl := SegmentValue.bitstring.inj hbits
    exact hinner
  have hholds : outer.Holds inner := .inner List.mem_cons_self rfl (.self inner)
  obtain ⟨hrebuilt, hheld⟩ := segments_and_elements_agree.1 outer houter
  exact ⟨houter, hholds, hrebuilt, (hheld inner hholds).1⟩

end Bitstring

end ClauseMatch
