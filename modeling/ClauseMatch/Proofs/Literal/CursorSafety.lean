import ClauseMatch.Proofs.Literal.CursorLiteral

/-!
# The cursor is safe and makes progress

Under the cursor every source is read as the reader over lists reads it: the run returns, panics
nowhere, and its trace is safe. A limit of one more than the bytes of the source is enough for it;
that a greater one changes nothing, not even the trace, is shown routine by routine, for any two
readers of nested literals of which one returns whenever the other does.
-/

namespace ClauseMatch.Literal

namespace Cursor

variable {α β : Type} {source : String} {limit limit' : Nat}

/-! ## Greater limits -/

/-- The second reader returns whenever the first does, and in the same way. -/
def Extends (m m' : CursorM α) : Prop :=
  ∀ t e, m.run.run t = some e → m'.run.run t = some e

theorem Extends.refl (m : CursorM α) : Extends m m := fun _ _ h => h

theorem Extends.bind {m m' : CursorM α} {f f' : α → CursorM β} (hm : Extends m m')
    (hf : ∀ a, Extends (f a) (f' a)) : Extends (m >>= f) (m' >>= f') := by
  intro t e h
  rw [run_bind] at h ⊢
  obtain ⟨⟨r, t'⟩, hrun, hrest⟩ := Option.bind_eq_some_iff.mp h
  rw [hm t _ hrun]
  cases r with
  | error stop => exact hrest
  | ok a => exact hf a t' e hrest

theorem Extends.andThen (m : CursorM α) {f f' : α → CursorM β} (hf : ∀ a, Extends (f a) (f' a)) :
    Extends (m >>= f) (m >>= f') :=
  (Extends.refl m).bind hf

theorem Extends.ite {p : Prop} [Decidable p] {m m' n n' : CursorM α} (hm : Extends m m')
    (hn : Extends n n') : Extends (if p then m else n) (if p then m' else n') := by
  split
  · exact hm
  · exact hn

theorem extends_of_noReturn (m : CursorM α) : Extends noReturn m := by
  intro t e h
  have hnone : (none : Option (Except Stop α × Trace)) = some e := h
  simp at hnone

theorem Extends.call {routine : Routine} {body body' : Nat → CursorM α}
    (h : ∀ start, Extends (body start) (body' start)) :
    Extends (call routine body) (call routine body') :=
  Extends.andThen _ fun start => (h start).bind fun _ => Extends.refl _

theorem Extends.whileOpen {body body' : CursorM α} (h : Extends body body') :
    Extends (whileOpen body) (whileOpen body') :=
  Extends.andThen _ fun _ => Extends.andThen _ fun _ => h.bind fun _ => Extends.refl _

theorem extends_optionLoop {start : Nat} {done : Options} (hle : limit ≤ limit') :
    Extends (optionLoop source start limit done) (optionLoop source start limit' done) := by
  induction limit generalizing limit' done with
  | zero => exact extends_of_noReturn _
  | succ limit ih =>
    obtain ⟨limit', rfl⟩ := Nat.exists_eq_succ_of_ne_zero (Nat.ne_zero_of_lt hle)
    have hle' : limit ≤ limit' := Nat.le_of_succ_le_succ hle
    rw [optionLoop, optionLoop]
    apply Extends.andThen
    intro _
    apply Extends.andThen
    intro o
    apply Extends.andThen
    intro options
    apply Extends.andThen
    intro _
    apply Extends.andThen
    intro dash
    exact (ih hle').ite (Extends.refl _)

theorem extends_completeSegment {start : Nat} {v : RawValue} (hle : limit ≤ limit') :
    Extends (completeSegment source limit start v) (completeSegment source limit' start v) := by
  apply Extends.andThen
  intro _
  apply Extends.andThen
  intro colons
  exact ((extends_optionLoop hle).bind fun _ => Extends.refl _).ite (Extends.refl _)

section

variable {nestedLiteral nestedLiteral' : CursorM (List Segment)}

theorem extends_value (h : Extends nestedLiteral nestedLiteral') :
    Extends (value source nestedLiteral) (value source nestedLiteral') := by
  apply Extends.call
  intro pos
  apply Extends.andThen
  intro first
  cases first with
  | none => exact Extends.refl _
  | some b =>
    exact (Extends.refl _).ite ((h.bind fun _ => Extends.refl _).ite (Extends.refl _))

theorem extends_segment (h : Extends nestedLiteral nestedLiteral') (hle : limit ≤ limit') :
    Extends (segment source nestedLiteral limit) (segment source nestedLiteral' limit') := by
  apply Extends.bind
  · apply Extends.call
    intro start
    exact (extends_value h).bind fun v => extends_completeSegment hle
  · exact fun s => Extends.refl _

theorem extends_segmentLoop {done : List Segment} (h : Extends nestedLiteral nestedLiteral')
    (hle : limit ≤ limit') :
    Extends (segmentLoop source nestedLiteral limit done)
      (segmentLoop source nestedLiteral' limit' done) := by
  induction limit generalizing limit' done with
  | zero => exact extends_of_noReturn _
  | succ limit ih =>
    obtain ⟨limit', rfl⟩ := Nat.exists_eq_succ_of_ne_zero (Nat.ne_zero_of_lt hle)
    have hle' : limit ≤ limit' := Nat.le_of_succ_le_succ hle
    rw [segmentLoop, segmentLoop]
    apply (extends_segment h hle').bind
    intro s
    apply Extends.andThen
    intro _
    apply Extends.andThen
    intro comma
    exact (Extends.andThen _ fun _ => ih hle').ite (Extends.refl _)

theorem extends_literalBody (h : Extends nestedLiteral nestedLiteral') (hle : limit ≤ limit') :
    Extends (literalBody source nestedLiteral limit)
      (literalBody source nestedLiteral' limit') := by
  apply Extends.andThen
  intro _
  apply Extends.andThen
  intro _
  apply Extends.andThen
  intro _
  apply Extends.andThen
  intro close
  exact (Extends.refl _).ite ((extends_segmentLoop h hle).bind fun _ => Extends.refl _)

end

theorem extends_literal (hle : limit ≤ limit') :
    Extends (literal source limit) (literal source limit') := by
  induction limit generalizing limit' with
  | zero => exact extends_of_noReturn _
  | succ limit ih =>
    obtain ⟨limit', rfl⟩ := Nat.exists_eq_succ_of_ne_zero (Nat.ne_zero_of_lt hle)
    have hle' : limit ≤ limit' := Nat.le_of_succ_le_succ hle
    rw [literal, literal]
    apply Extends.whileOpen
    apply Extends.call
    intro _
    exact extends_literalBody (ih hle') hle'

theorem extends_literalSource (hle : limit ≤ limit') :
    Extends (literalSource source limit) (literalSource source limit') :=
  (extends_literal hle).bind fun _ => Extends.refl _

/-! ## Whole sources -/

/-- A whole source is read with the result of the reader over lists. -/
theorem exists_reads_literalSource (hlimit : source.utf8ByteSize < limit) :
    ∃ result, readSource source.toList = onwards result (fun segments _ => .ok segments) ∧
      Reads source [] 0 (literalSource source limit) source.toList result := by
  have hlength : source.toList.length ≤ source.utf8ByteSize := by
    rw [← byteLength_toList]
    exact length_le_byteLength _
  have hshorter (next : List Char) (_ : next.length < source.toList.length) :
      ∃ result, SegmentsResult source next result := exists_segmentsResult source next
  obtain ⟨result, hresult⟩ := exists_literalResult hshorter
  have hliteral : Reads source [] 4 (literal source limit) source.toList result := by
    apply hresult.reads limit [] (Nat.zero_lt_of_lt hlimit) (by omega)
    simp [Room]
  have hopening : readLiteral source.toList = readOpening [] source.toList := rfl
  rw [readSource, hopening, hresult.run]
  cases result with
  | error failure =>
    exact ⟨.error failure, rfl, (hliteral.weaken (Nat.zero_le _)).bind_error⟩
  | ok answer =>
    obtain ⟨segments, rest⟩ := answer
    simp only [onwards, closeLiteral, Progress.run]
    cases hend : skipBlank rest with
    | nil =>
      refine ⟨.ok (segments, []), rfl, ?_⟩
      apply hliteral.andThen
      apply reads_skipWhitespace.andThen
      apply reads_position.andThen
      have hoffset : ¬ offset source [] < source.utf8ByteSize := Nat.lt_irrefl _
      rw [hend, if_neg hoffset]
      exact Reads.pure segments
    | cons c text =>
      refine ⟨.error ⟨.trailingInput, c :: text⟩, rfl, ?_⟩
      apply hliteral.andThen
      apply reads_skipWhitespace.andThen
      apply reads_position.andThen
      rw [hend]
      apply Reads.of_suffix
      intro hsuffix
      have hoffset : offset source (c :: text) < source.utf8ByteSize := by
        have hle := byteLength_le hsuffix
        have hone : 1 ≤ byteLength (c :: text) := one_le_byteLength (List.cons_ne_nil c text)
        rw [offset]
        omega
      rw [if_pos hoffset]
      exact Reads.fail .trailingInput (c :: text)

/-- Open literals that began two bytes apart are at most one more than half the bytes. -/
theorem length_le_of_spaced {opened : List Nat} {n : Nat}
    (hspaced : opened.Pairwise fun inner outer => outer + 2 ≤ inner)
    (hle : ∀ start ∈ opened, start ≤ n) : opened.length ≤ n / 2 + 1 := by
  -- all but the innermost began two bytes before it
  induction hspaced generalizing n with
  | nil => simp
  | @cons inner outer hinner _ ih =>
    have hn : inner ≤ n := hle inner (List.mem_cons_self ..)
    rcases outer with _ | ⟨next, outer⟩
    · simp
    · have hnext := hinner next (List.mem_cons_self ..)
      have hlength : (next :: outer).length ≤ (inner - 2) / 2 + 1 := by
        apply ih
        intro start hstart
        exact Nat.le_sub_of_add_le (hinner start hstart)
      rw [List.length_cons]
      omega

/-- Within a limit that is long enough a run ends as the reader over lists does, in a safe trace. -/
theorem exists_parseTraced (source : String) :
    ∃ trace : Trace, trace.Safe source ∧ ∀ limit, source.utf8ByteSize < limit →
      parseTraced limit source = some ((parse source).mapError .failed, trace) := by
  obtain ⟨result, hread, hreads⟩ := exists_reads_literalSource (Nat.lt_succ_self _)
  have hat : At source source.toList Trace.start :=
    ⟨List.suffix_refl _, by rw [byteLength_toList]; exact Nat.zero_add _⟩
  obtain ⟨⟨r, trace⟩, hrun, hsafe, hends⟩ := hreads Trace.start safe_start rfl hat
  refine ⟨trace, hsafe, ?_⟩
  intro limit hlimit
  have hrun' := extends_literalSource (Nat.succ_le_of_lt hlimit) Trace.start _ hrun
  have hr : r = (parse source).mapError .failed := by
    rw [parse, hread]
    cases result with
    | error failure => exact hends
    | ok answer => exact hends.1
  rw [← hr]
  exact hrun'

end Cursor

/-- Reading a source under the cursor comes, within some limit, to the end that reading it as a
list of characters has, and so to no panic. At every moment on the way the cursor is within the
source and at the boundary of a character, each open literal call began at least two bytes after the
one around it, no more literal calls are open than half the bytes and one, and no more segments
have been produced than there are bytes. The cursor never moves back, and every successful call
takes one byte at least, a call for a literal four. -/
theorem cursor_is_safe_and_progresses (source : String) :
    ∃ trace : Trace,
      (∀ limit, source.utf8ByteSize < limit →
        parseTraced limit source = some ((parse source).mapError .failed, trace)) ∧
      (∀ m ∈ trace.moments,
        m.pos ≤ source.utf8ByteSize ∧
        String.Pos.Raw.IsValid source ⟨m.pos⟩ ∧
        (m.opened.Pairwise fun inner outer => outer + 2 ≤ inner) ∧
        m.opened.length ≤ source.utf8ByteSize / 2 + 1 ∧
        m.produced ≤ source.utf8ByteSize) ∧
      (trace.moments.Pairwise fun later earlier => earlier.pos ≤ later.pos) ∧
      ∀ c ∈ trace.calls, c.start + c.routine.least ≤ c.stop := by
  obtain ⟨trace, hsafe, hparse⟩ := Cursor.exists_parseTraced source
  refine ⟨trace, hparse, ?_, hsafe.forward, hsafe.call⟩
  intro m hm
  have hmoment := hsafe.moment m hm
  refine ⟨hmoment.le_size, hmoment.boundary, hmoment.spaced, ?_, ?_⟩
  · apply Cursor.length_le_of_spaced hmoment.spaced
    intro start hstart
    exact Nat.le_trans (hmoment.opened_le start hstart) hmoment.le_size
  · exact Nat.le_trans hmoment.produced_le hmoment.le_size

/-- An empty literal as the segment of another: the calls in the order in which they succeed. -/
example : (parseTraced 9 "<<<<>>>>").map (fun e => e.2.calls.reverse) =
    some [⟨.literal, 2, 6⟩, ⟨.value, 2, 6⟩, ⟨.segment, 2, 6⟩, ⟨.literal, 0, 8⟩] := by
  decide +kernel

end ClauseMatch.Literal
