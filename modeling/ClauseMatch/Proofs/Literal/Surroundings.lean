import Mathlib.Data.List.TakeWhile
import ClauseMatch.Proofs.Literal.Diagnosis

/-!
# Literals among other text

A source that is accepted is accepted whatever stands around it, up to what is said about the whole
text: blanks may stand on either side, and any other text after it is trailing input. Blanks in
front of a source move the position of every error and change nothing else.
-/

namespace ClauseMatch.Literal

variable {source stop blanks : List Char} {segments : List Segment}

/-! ## Text after a literal -/

theorem skipBlank_append (h : ∀ c ∈ blanks, isBlank c = true) (text : List Char) :
    skipBlank (blanks ++ text) = skipBlank text :=
  List.dropWhile_append_of_pos h

/-- A literal is read alike whatever follows it. -/
theorem readLiteral_append (h : readLiteral source = .ok (segments, stop)) (text : List Char) :
    readLiteral (source ++ text) = .ok (segments, stop ++ text) := by
  obtain ⟨start, hblanks, hliteral⟩ := readLiteral_eq_ok_iff.mp h
  obtain ⟨own, -, rfl, hown⟩ := hblanks.moves.close hliteral.closed
  rw [List.append_assoc]
  exact readLiteral_eq_ok_iff.mpr (hown (stop ++ text))

theorem readSource_of_readLiteral (h : readLiteral source = .ok (segments, stop)) :
    readSource source =
      if (skipBlank stop).isEmpty then .ok segments
      else .error ⟨.trailingInput, skipBlank stop⟩ := by
  simp only [readSource, h]
  cases skipBlank stop <;> rfl

theorem exists_readLiteral_of_readSource (h : readSource source = .ok segments) :
    ∃ stop, readLiteral source = .ok (segments, stop) ∧ ∀ c ∈ stop, isBlank c = true := by
  obtain ⟨hstart, hliteral, hend⟩ := readSource_eq_ok_iff.mp h
  rename_i start stop
  refine ⟨stop, readLiteral_eq_ok_iff.mpr ⟨start, hstart, hliteral⟩, ?_⟩
  obtain ⟨run, hrun, rfl⟩ := hend
  rwa [List.append_nil]

theorem readSource_append (h : readSource source = .ok segments) (text : List Char) :
    readSource (source ++ text) =
      if (skipBlank text).isEmpty then .ok segments
      else .error ⟨.trailingInput, skipBlank text⟩ := by
  obtain ⟨stop, hread, hstop⟩ := exists_readLiteral_of_readSource h
  rw [readSource_of_readLiteral (readLiteral_append hread text), skipBlank_append hstop]

theorem parse_append {source : String} (h : parse source = .ok segments) (text : String) :
    parse (source ++ text) =
      if text.toList.all isBlank then .ok segments
      else .error ⟨.trailingInput,
        source.utf8ByteSize + byteLength (text.toList.takeWhile isBlank)⟩ := by
  have hread := readSource_append (parse_eq_ok.mp h) text.toList
  have hempty : (skipBlank text.toList).isEmpty = text.toList.all isBlank := by
    rw [Bool.eq_iff_iff, List.isEmpty_iff, List.all_eq_true]
    exact List.dropWhile_eq_nil_iff
  rw [hempty] at hread
  simp only [parse, String.toList_append, hread]
  by_cases hall : text.toList.all isBlank = true
  · simp only [hall, if_true]
  · have hplace : source.toList ++ text.toList =
        (source.toList ++ text.toList.takeWhile isBlank) ++ skipBlank text.toList := by
      rw [List.append_assoc]
      exact congrArg _ (longestRun_takeWhile isBlank text.toList).split
    simp only [hall, Bool.false_eq_true, if_false]
    rw [Failure.toParseError, hplace, byteLength_append, Nat.add_sub_cancel, byteLength_append,
      byteLength_toList]

/-! ## Blanks before a source -/

theorem readSource_blanks_append (h : ∀ c ∈ blanks, isBlank c = true) (text : List Char) :
    readSource (blanks ++ text) = readSource text := by
  simp only [readSource, readLiteral, skipBlank_append h]

/-- A position in a source is farther from the beginning of a longer text that ends with it. -/
theorem toParseError_append {failure : Failure} (h : failure.TrueOf source) (text : List Char) :
    failure.toParseError (text ++ source) =
      ⟨failure.fault, byteLength text + (failure.toParseError source).pos⟩ := by
  obtain ⟨before, hsource, -⟩ := h
  have hlonger : text ++ source = (text ++ before) ++ failure.rest := by
    rw [hsource, List.append_assoc]
  rw [toParseError_pos hsource, ← byteLength_append, ← toParseError_pos hlonger]
  rfl

theorem parse_blanks_append {blanks : String} (h : ∀ c ∈ blanks.toList, isBlank c = true)
    (source : String) :
    parse (blanks ++ source) =
      (parse source).mapError fun e => ⟨e.fault, blanks.utf8ByteSize + e.pos⟩ := by
  have hread := readSource_blanks_append h source.toList
  simp only [parse, String.toList_append, hread]
  cases hsource : readSource source.toList with
  | ok segments => rfl
  | error failure =>
    have hplace := toParseError_append (readSource_error_trueOf hsource) blanks.toList
    rw [byteLength_toList] at hplace
    exact congrArg Except.error hplace

/-- A source that is accepted is accepted with the same segments when blanks follow it; any other
text after it is trailing input, from its first character on that is no blank. Blanks before a
source, accepted or not, add their length to the position of an error and change nothing else. -/
theorem acceptance_is_context_free :
    (∀ (source : String) (segments : List Segment), parse source = .ok segments →
      ∀ text : String,
        ((∀ c ∈ text.toList, isBlank c = true) → parse (source ++ text) = .ok segments) ∧
        (¬ (∀ c ∈ text.toList, isBlank c = true) →
          parse (source ++ text) = .error ⟨.trailingInput,
            source.utf8ByteSize + byteLength (text.toList.takeWhile isBlank)⟩)) ∧
    ∀ blanks : String, (∀ c ∈ blanks.toList, isBlank c = true) → ∀ source : String,
      parse (blanks ++ source) =
        (parse source).mapError fun e => ⟨e.fault, blanks.utf8ByteSize + e.pos⟩ := by
  refine ⟨fun source segments hparse text => ?_, fun blanks hblanks => parse_blanks_append hblanks⟩
  rw [parse_append hparse text, ← List.all_eq_true]
  exact ⟨fun hall => if_pos hall, fun hall => if_neg hall⟩

/-- A literal with further input behind blanks, and a source without closing brackets behind
blanks; the first of the blanks takes three bytes. -/
theorem acceptance_is_context_free_wide_blank :
    parse "<<1>>" = .ok [.integer 1] ∧
      parse ("<<1>>" ++ "\u2003\n") = .ok [.integer 1] ∧
      parse ("<<1>>" ++ "\u2003x") = .error ⟨.trailingInput, 8⟩ ∧
      parse ("\u2003\n" ++ "<<1") = .error ⟨.expected .closing, 7⟩ := by
  have hparse : parse "<<1>>" = .ok [.integer 1] := by with_unfolding_all rfl
  have hblanks : ∀ c ∈ "\u2003\n".toList, isBlank c = true :=
    List.all_eq_true.mp (by decide)
  have hinput : ¬ ∀ c ∈ "\u2003x".toList, isBlank c = true := fun h =>
    absurd (h 'x' (by decide)) (by decide)
  have hafter := acceptance_is_context_free.1 "<<1>>" _ hparse
  refine ⟨hparse, (hafter _).1 hblanks, (hafter _).2 hinput, ?_⟩
  have hopen : parse "<<1" = .error ⟨.expected .closing, 3⟩ := by with_unfolding_all rfl
  rw [acceptance_is_context_free.2 _ hblanks, hopen]
  rfl

end ClauseMatch.Literal
