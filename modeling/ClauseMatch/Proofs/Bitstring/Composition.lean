import ClauseMatch.Bitstring.Encoding
import Mathlib.Data.List.Forall2

/-!
# Bitstrings from segments

Segments are encoded one after the other, so that segments in a row encode to what their parts do,
in a row. Plain integer segments encode to their own values, so that the bitstring built from values
is the one that encoding their segments gives.
-/

namespace ClauseMatch

theorem map_eq_ok_iff {ε α β : Type} {f : α → β} {x : Except ε α} {b : β} :
    x.map f = .ok b ↔ ∃ a, x = .ok a ∧ f a = b := by
  cases x with
  | error e => simp [Except.map]
  | ok a => simp [Except.map]

theorem map_eq_error_iff {ε α β : Type} {f : α → β} {x : Except ε α} {e : ε} :
    x.map f = .error e ↔ x = .error e := by
  cases x with
  | error e => simp [Except.map]
  | ok a => simp [Except.map]

theorem encodeSegments_nil : encodeSegments [] = .ok [] := rfl

theorem encodeSegments_cons (s : Segment) (segments : List Segment) :
    encodeSegments (s :: segments) =
      s.encode.bind fun values => (encodeSegments segments).map (values :: ·) := by
  rw [encodeSegments, List.mapM_cons]
  cases s.encode with
  | error cause => rfl
  | ok values =>
    rw [← encodeSegments]
    cases encodeSegments segments <;> rfl

/-- Segments encode to a list of elements for each of them. -/
theorem encodeSegments_eq_ok_iff {segments : List Segment} {parts : List (List Int64)} :
    encodeSegments segments = .ok parts ↔
      List.Forall₂ (fun s out => s.encode = .ok out) segments parts := by
  induction segments generalizing parts with
  | nil => simp [encodeSegments_nil, eq_comm]
  | cons s segments ih =>
    rw [encodeSegments_cons, List.forall₂_cons_left_iff]
    cases s.encode with
    | error cause => simp [Except.bind]
    | ok out =>
      simp only [Except.bind, map_eq_ok_iff, ih, Except.ok.injEq]
      constructor
      · rintro ⟨rest, hrest, rfl⟩
        exact ⟨out, rest, rfl, hrest, rfl⟩
      · rintro ⟨_, rest, rfl, hrest, rfl⟩
        exact ⟨rest, hrest, rfl⟩

theorem encodeSegments_append (xs ys : List Segment) :
    encodeSegments (xs ++ ys) =
      (encodeSegments xs).bind fun parts => (encodeSegments ys).map (parts ++ ·) := by
  induction xs with
  | nil =>
    rw [List.nil_append, encodeSegments_nil]
    cases encodeSegments ys <;> rfl
  | cons s xs ih =>
    rw [List.cons_append, encodeSegments_cons, ih, encodeSegments_cons]
    cases s.encode with
    | error cause => rfl
    | ok values => cases encodeSegments xs <;> cases encodeSegments ys <;> rfl

/-- Segments in a row encode to what the first and then the later ones encode to; the first that
fails decides the error. -/
theorem ofSegments_append (xs ys : List Segment) :
    Bitstring.ofSegments (xs ++ ys) =
      (Bitstring.ofSegments xs).bind fun a =>
        (Bitstring.ofSegments ys).map fun b => ⟨xs ++ ys, a.values ++ b.values⟩ := by
  rw [Bitstring.ofSegments, encodeSegments_append, Bitstring.ofSegments, Bitstring.ofSegments]
  cases encodeSegments xs with
  | error cause => rfl
  | ok parts =>
    cases encodeSegments ys with
    | error cause => rfl
    | ok parts' =>
      simp only [Except.bind, Except.map, List.flatten_append]

/-- A bitstring as a segment of its own encodes to its elements. -/
theorem ofSegments_bitstring (bits : Bitstring) :
    Bitstring.ofSegments [.bitstring bits] = .ok ⟨[.bitstring bits], bits.values⟩ := by
  have hencode : (Segment.bitstring bits).encode = .ok bits.values := rfl
  rw [Bitstring.ofSegments, encodeSegments_cons, hencode, encodeSegments_nil]
  simp only [Except.bind, Except.map, List.flatten_cons, List.flatten_nil, List.append_nil]

theorem encode_integer (n : Int64) : (Segment.integer n).encode = .ok [n] := rfl

theorem encodeSegments_integers (values : List Int64) :
    encodeSegments (values.map Segment.integer) = .ok (values.map fun v => [v]) := by
  induction values with
  | nil => exact encodeSegments_nil
  | cons v values ih =>
    rw [List.map_cons, encodeSegments_cons, ih, encode_integer]
    rfl

/-- Encoding plain integer segments gives the bitstring of their values. -/
theorem ofSegments_integers (values : List Int64) :
    Bitstring.ofSegments (values.map Segment.integer) = .ok (.ofValues values) := by
  have hflatten : (values.map fun v => [v]).flatten = values := by
    induction values with
    | nil => rfl
    | cons v values ih => rw [List.map_cons, List.flatten_cons, ih, List.singleton_append]
  rw [Bitstring.ofSegments, encodeSegments_integers, Except.map, hflatten, Bitstring.ofValues]

end ClauseMatch
