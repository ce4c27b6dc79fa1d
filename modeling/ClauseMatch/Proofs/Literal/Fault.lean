import ClauseMatch.Proofs.Literal.Context
import ClauseMatch.Proofs.Literal.NumberText
import ClauseMatch.Proofs.Literal.SegmentText

/-!
# What a fault says

A fault says something about the source at the place where it is reported. `Fault.HoldsAt` spells
this out for every fault, in terms of the grammar and of the bytes of the source, and the readers
below literals are shown to report nothing else. Faults of a segment as a whole are reported where
its value begins; that a segment is due there is said by `SegmentDue`, which follows the grammar
from the beginning of the source.
-/

namespace ClauseMatch.Literal

variable {source whole rest : List Char}

/-! ## Places where a segment is due -/

/-- A literal begins at `source`, the segments in it have been passed, and the next one is due at
the given place. -/
inductive OpenAt : List Char → List Segment → List Char → Prop where
  | opening {inside place : List Char} :
      Blanks inside place → OpenAt ('<' :: '<' :: inside) [] place
  | comma {segments : List Segment} {s : Segment} {source place stop more next : List Char} :
      OpenAt source segments place →
      SegmentAt place s stop →
      Blanks stop (',' :: more) →
      Blanks more next →
      OpenAt source (segments ++ [s]) next

/-- A segment of the literal in `source`, or of one that is nested in it, is due at a place. -/
inductive SegmentDue (source : List Char) : List Char → Prop where
  | outermost {segments : List Segment} {start place : List Char} :
      Blanks source start → OpenAt start segments place → SegmentDue source place
  | nested {segments : List Segment} {start place : List Char} :
      SegmentDue source start → OpenAt start segments place → SegmentDue source place

theorem OpenAt.suffix {segments : List Segment} (h : OpenAt source segments rest) :
    rest <:+ source := by
  induction h with
  | opening hblanks =>
    exact hblanks.moves.suffix.trans ((List.suffix_cons ..).trans (List.suffix_cons ..))
  | comma _ hsegment hcomma hnext ih =>
    have hmore := hnext.moves.suffix.trans (hcomma.closed [','] (by simp)).moves.suffix
    exact (hmore.trans hsegment.moves.suffix).trans ih

theorem SegmentDue.suffix (h : SegmentDue source rest) : rest <:+ source := by
  induction h with
  | outermost hblanks hopen => exact hopen.suffix.trans hblanks.moves.suffix
  | nested _ hopen ih => exact hopen.suffix.trans ih

/-- Segments up to the closing brackets complete an open literal. -/
theorem OpenAt.literalAt {segments more : List Segment} {place stop : List Char}
    (h : OpenAt source segments place) (hsegments : SegmentsAt place more stop)
    (hclose : Blanks stop ('>' :: '>' :: rest)) : LiteralAt source (segments ++ more) rest := by
  induction h generalizing more with
  | opening hblanks => exact .segments hblanks hsegments hclose
  | comma _ hsegment hcomma hnext ih =>
    rw [List.append_assoc]
    exact ih (.cons hsegment hcomma hnext hsegments)

/-! ## The assertions -/

/-- The number of backslashes at the end of a text. -/
def trailingBackslashes (text : List Char) : Nat :=
  (text.reverse.takeWhile (· == '\\')).length

/-- Every quote in the text is escaped: right before it stands an odd number of backslashes. -/
def QuotesEscaped (text : List Char) : Prop :=
  ∀ before after, text = before ++ '"' :: after → trailingBackslashes before % 2 = 1

/-- A byte of a class stands at an offset of a source. -/
def byteAt (source : List Char) (pos : Nat) (accept : UInt8 → Bool) : Bool :=
  (bytes (String.ofList source))[pos]?.any accept

/-- The byte of a character that a segment value begins with. -/
def beginsValueByte (b : UInt8) : Bool :=
  b == '"'.toUInt8 || b == '<'.toUInt8 || b == '-'.toUInt8 || isDigitByte b

/-- The source begins with an option that is spelled as given, up to the spelling of its argument,
and is none of the known ones. -/
structure UnknownOptionAt (source : List Char) (option : String) : Prop where
  unknown : ∀ o, ¬ OptionAt option.toList o []
  spelled : ∃ name rest, LongestRun isNameChar source name rest ∧
    (option = String.ofList name ∨
      ∃ argument n stop, rest = '(' :: argument ∧ ArgumentAt argument n stop ∧
        option = String.ofList name ++ "(" ++ toString n.toNat ++ ")")

/-- What a fault says about the source `before ++ rest`, when it is reported at `rest`. -/
def Fault.HoldsAt (before rest : List Char) : Fault → Prop
  | .expected .segmentValue => byteAt (before ++ rest) (byteLength before) beginsValueByte = false
  | .expected .segmentOption => byteAt (before ++ rest) (byteLength before) isNameByte = false
  | .expected token => ¬ token.text.toList <+: rest
  | .unterminatedText => ∃ text, rest = '"' :: text ∧ QuotesEscaped text
  | .invalidNumber spelling => spelling.toList <+: rest
  | .unknownOption option => UnknownOptionAt rest option
  | .duplicateType => SegmentDue (before ++ rest) rest ∧ ∃ value stop, ValueAt rest value stop
  | .typeMismatch kind type =>
    SegmentDue (before ++ rest) rest ∧ ∃ value stop, ValueAt rest value stop ∧
      value.kind = kind ∧ ∀ s, ¬ Typed (some type) value s
  | .invalidCodePoint code =>
    SegmentDue (before ++ rest) rest ∧ (∃ stop, ValueAt rest (.integer code) stop) ∧
      ∀ c : Char, code.toInt ≠ c.toNat
  | .nested cause =>
    SegmentDue (before ++ rest) rest ∧ "<<".toList <+: rest ∧ ∃ segments stop,
      LiteralAt rest segments stop ∧ Bitstring.ofSegments segments = .error cause
  | .trailingInput =>
    byteLength before < byteLength (before ++ rest) ∧ (∃ c ∈ rest.head?, isBlank c = false) ∧
      ∃ segments, parse (String.ofList before) = .ok segments

/-- The failure has its place in the source, and its fault holds there. -/
def Failure.TrueOf (source : List Char) (failure : Failure) : Prop :=
  ∃ before, source = before ++ failure.rest ∧ failure.fault.HoldsAt before failure.rest

theorem trueOf_of_suffix {fault : Fault} (h : rest <:+ source)
    (hfault : ∀ before, source = before ++ rest → fault.HoldsAt before rest) :
    Failure.TrueOf source ⟨fault, rest⟩ := by
  obtain ⟨before, hbefore⟩ := h
  exact ⟨before, hbefore.symm, hfault before hbefore.symm⟩

/-! ## Bytes at a place -/

theorem SameClass.or {accept accept' : UInt8 → Bool} {p p' : Char → Bool}
    (h : SameClass accept p) (h' : SameClass accept' p') :
    SameClass (fun b => accept b || accept' b) (fun c => p c || p' c) := by
  intro c b hb
  show (accept b || accept' b) = (p c || p' c)
  rw [h c b hb, h' c b hb]

/-- At the boundary of a character the byte is of a class just when the character is. -/
theorem byteAt_eq {accept : UInt8 → Bool} {p : Char → Bool} (h : SameClass accept p)
    (before rest : List Char) :
    byteAt (before ++ rest) (byteLength before) accept = rest.head?.any p := by
  have hchars : (String.ofList (before ++ rest)).toList = before ++ rest := String.toList_ofList
  rcases rest with _ | ⟨c, rest⟩
  · have hnone := getElem?_bytes_nil (hchars.trans (List.append_nil before))
    rw [byteAt, hnone]
    rfl
  · obtain ⟨b, more, hbytes⟩ := exists_utf8EncodeChar_eq_cons c
    rw [byteAt, getElem?_bytes_cons hchars hbytes]
    exact h c b (by rw [hbytes]; exact List.mem_cons_self)

theorem byteAt_eq_false {accept : UInt8 → Bool} {p : Char → Bool} (h : SameClass accept p)
    (before : List Char) (hrest : ∀ c ∈ rest.head?, p c = false) :
    byteAt (before ++ rest) (byteLength before) accept = false := by
  rw [byteAt_eq h]
  rcases rest with _ | ⟨c, rest⟩
  · rfl
  · exact hrest c rfl

theorem sameClass_beginsValue :
    SameClass beginsValueByte (fun c => c == '"' || c == '<' || c == '-' || c.isDigit) :=
  (((sameClass_eq (by decide)).or (sameClass_eq (by decide))).or
    (sameClass_eq (by decide))).or sameClass_isDigit

/-! ## Quoted texts -/

/-- What stands in front of a text does not change whether the backslashes at its end are odd, if it
ends in an even number of them itself. -/
theorem trailingBackslashes_append {front : List Char} (h : trailingBackslashes front % 2 = 0)
    (text : List Char) :
    trailingBackslashes (front ++ text) % 2 = trailingBackslashes text % 2 := by
  rw [trailingBackslashes] at h
  rw [trailingBackslashes, List.reverse_append, List.takeWhile_append, trailingBackslashes]
  split
  · rename_i hall
    rw [List.length_append, hall]
    omega
  · rfl

theorem trailingBackslashes_pair (c : Char) : trailingBackslashes ['\\', c] % 2 = 0 := by
  by_cases hc : c = '\\'
  · rw [hc]
    decide
  · simp [trailingBackslashes, hc]

theorem trailingBackslashes_single {c : Char} (hc : c ≠ '\\') :
    trailingBackslashes [c] % 2 = 0 := by
  simp [trailingBackslashes, hc]

/-- A text that is not closed has escaped quotes only. -/
theorem quotesEscaped_of_readText {done : List Char} (h : readText source done = none) :
    QuotesEscaped source := by
  -- Along the reader, which passes over an escape at once: a quote is either the escaped
  -- character, or lies in what is read after the escape.
  fun_induction readText source done with
  | case1 => exact fun before after hsplit => by simp at hsplit
  | case2 => simp at h
  | case3 =>
    intro before after hsplit
    rcases before with _ | ⟨d, before⟩ <;> simp at hsplit
  | case4 c tail done ih =>
    intro before after hsplit
    rcases before with _ | ⟨d, _ | ⟨e, before⟩⟩
    · simp at hsplit
    · obtain ⟨rfl, -⟩ := List.cons.inj hsplit
      rfl
    · obtain ⟨rfl, htail⟩ := List.cons.inj hsplit
      obtain ⟨rfl, rfl⟩ := List.cons.inj htail
      have hpair := trailingBackslashes_append (trailingBackslashes_pair c) before
      exact hpair.trans (ih h before after rfl)
  | case5 c tail done hquote hend hescape ih =>
    intro before after hsplit
    have hslash : c ≠ '\\' := by
      rintro rfl
      rcases tail with _ | ⟨d, tail⟩
      · exact hend rfl rfl
      · exact hescape d tail rfl rfl
    rcases before with _ | ⟨d, before⟩
    · exact absurd (List.cons.inj hsplit).1 hquote
    · obtain ⟨rfl, rfl⟩ := List.cons.inj hsplit
      have hsingle := trailingBackslashes_append (trailingBackslashes_single hslash) before
      exact hsingle.trans (ih h before after rfl)

/-! ## Scalars -/

theorem readNumber_error_trueOf {failure : Failure} (h : readNumber source = .error failure)
    (hsource : source <:+ whole) : failure.TrueOf whole := by
  simp only [readNumber] at h
  split at h
  · simp at h
  · obtain rfl := Except.error.inj h
    refine trueOf_of_suffix hsource fun before _ => ?_
    show (String.ofList _).toList <+: source
    rw [String.toList_ofList]
    exact ⟨_, (scanNumber_scansBack source).1.symm⟩

theorem readScalar_error_trueOf {failure : Failure} (h : readScalar source = .error failure)
    (hopen : ∀ tail, source ≠ '<' :: tail) (hsource : source <:+ whole) :
    failure.TrueOf whole := by
  unfold readScalar at h
  split at h
  · rename_i text
    split at h
    · simp at h
    · rename_i htext
      obtain rfl := Except.error.inj h
      refine trueOf_of_suffix hsource fun before _ => ⟨text, rfl, ?_⟩
      exact quotesEscaped_of_readText htext
  · rename_i c tail hquote
    split at h
    · split at h
      · simp at h
      · rename_i hnumber
        obtain rfl := Except.error.inj h
        exact readNumber_error_trueOf hnumber hsource
    · rename_i hbegins
      obtain rfl := Except.error.inj h
      refine trueOf_of_suffix hsource fun before _ => byteAt_eq_false sameClass_beginsValue _ ?_
      intro d hd
      obtain rfl : c = d := by simpa using hd
      have hquote' : c ≠ '"' := by
        rintro rfl
        exact hquote rfl
      have hopen' : c ≠ '<' := by
        rintro rfl
        exact hopen tail rfl
      rw [not_or] at hbegins
      simp [hquote', hopen', hbegins]
  · obtain rfl := Except.error.inj h
    exact trueOf_of_suffix hsource fun before _ => byteAt_eq_false sameClass_beginsValue _ (by simp)

/-! ## Options -/

theorem readCount_error_trueOf {digits : List Char} {failure : Failure}
    (h : readCount digits source = .error failure) (hdigits : digits <+: source)
    (hsource : source <:+ whole) : failure.TrueOf whole := by
  simp only [readCount] at h
  split at h
  · obtain rfl := Except.error.inj h
    refine trueOf_of_suffix hsource fun before _ => ?_
    show (String.ofList digits).toList <+: source
    rwa [String.toList_ofList]
  · simp at h

theorem readArgument_error_trueOf {failure : Failure} (h : readArgument source = .error failure)
    (hsource : source <:+ whole) : failure.TrueOf whole := by
  have hstart := (blanks_skipBlank source).moves.suffix.trans hsource
  have hrun := longestRun_takeWhile Char.isDigit (skipBlank source)
  simp only [readArgument] at h
  split at h
  · rename_i hcount
    obtain rfl := Except.error.inj h
    exact readCount_error_trueOf hcount ⟨_, hrun.split.symm⟩ hstart
  · split at h
    · simp at h
    · rename_i hclose
      obtain rfl := Except.error.inj h
      have hdigits := List.dropWhile_suffix (l := skipBlank source) Char.isDigit
      have hstop := (blanks_skipBlank _).moves.suffix.trans (hdigits.trans hstart)
      refine trueOf_of_suffix hstop fun before _ => ?_
      rintro ⟨tail, htail⟩
      exact hclose tail htail.symm

theorem not_isEmpty_of_not_all {name : List Char} {p : Char → Bool} (h : ¬ name.all p = true) :
    ¬ name.isEmpty = true := by
  intro hnil
  rw [List.isEmpty_iff.mp hnil] at h
  exact h rfl

/-- A name that is no number is the text of an option only if it is looked up with success. -/
theorem not_optionAt_of_plainOption? {name : List Char} (hname : ∀ c ∈ name, isNameChar c = true)
    (hdigits : ¬ name.all Char.isDigit = true) (hplain : plainOption? (String.ofList name) = none)
    (o : SegmentOption) : ¬ OptionAt (String.ofList name).toList o [] := by
  intro h
  rw [String.toList_ofList] at h
  have hread := h.readOption_eq (by simp)
  have hrun : LongestRun isNameChar name name [] := ⟨by simp, hname, by simp⟩
  simp only [readOption, hrun.takeWhile_eq, hrun.dropWhile_eq] at hread
  rw [if_neg (not_isEmpty_of_not_all hdigits), if_neg hdigits] at hread
  simp [hplain] at hread

theorem not_optionAt_of_argumentOption? {name : List Char}
    (hname : ∀ c ∈ name, isNameChar c = true) (hdigits : ¬ name.all Char.isDigit = true)
    (n : UInt32) (hargument : argumentOption? (String.ofList name) n = none) (o : SegmentOption) :
    ¬ OptionAt (String.ofList name ++ "(" ++ toString n.toNat ++ ")").toList o [] := by
  intro h
  have htext : (String.ofList name ++ "(" ++ toString n.toNat ++ ")").toList =
      name ++ '(' :: (Nat.toDigits 10 n.toNat ++ [')']) := by
    simp
  rw [htext] at h
  have hread := h.readOption_eq (by simp)
  have hrun : LongestRun isNameChar (name ++ '(' :: (Nat.toDigits 10 n.toNat ++ [')'])) name
      ('(' :: (Nat.toDigits 10 n.toNat ++ [')'])) := ⟨rfl, hname, not_head_cons (by decide) _⟩
  simp only [readOption, hrun.takeWhile_eq, hrun.dropWhile_eq] at hread
  rw [if_neg (not_isEmpty_of_not_all hdigits), if_neg hdigits] at hread
  simp [(argumentAt_toDigits n []).readArgument_eq, hargument] at hread

theorem readOption_error_trueOf {failure : Failure} (h : readOption source = .error failure)
    (hsource : source <:+ whole) : failure.TrueOf whole := by
  have hrun := longestRun_takeWhile isNameChar source
  simp only [readOption] at h
  split at h
  · rename_i hempty
    obtain rfl := Except.error.inj h
    refine trueOf_of_suffix hsource fun before _ => byteAt_eq_false sameClass_isNameChar _ ?_
    have hsplit := hrun.split
    rw [List.isEmpty_iff.mp hempty, List.nil_append] at hsplit
    exact hsplit ▸ hrun.ends
  · split at h
    · split at h
      · rename_i hcount
        obtain rfl := Except.error.inj h
        exact readCount_error_trueOf hcount ⟨_, hrun.split.symm⟩ hsource
      · simp at h
    · rename_i hdigits
      split at h
      · rename_i argument hparen
        have hinside : argument <:+ whole := by
          have hparen' : '(' :: argument <:+ source := hparen ▸ List.dropWhile_suffix _
          exact ((List.suffix_cons ..).trans hparen').trans hsource
        split at h
        · rename_i hread
          obtain rfl := Except.error.inj h
          exact readArgument_error_trueOf hread hinside
        · rename_i n stop hread
          split at h
          · simp at h
          · rename_i hargument
            obtain rfl := Except.error.inj h
            refine trueOf_of_suffix hsource fun before _ => ⟨?_, _, _, hrun, Or.inr ?_⟩
            · exact not_optionAt_of_argumentOption? hrun.within hdigits n hargument
            · exact ⟨argument, n, stop, hparen, readArgument_sound hread, rfl⟩
      · split at h
        · simp at h
        · rename_i hplain
          obtain rfl := Except.error.inj h
          refine trueOf_of_suffix hsource fun before _ => ⟨?_, _, _, hrun, Or.inl rfl⟩
          exact not_optionAt_of_plainOption? hrun.within hdigits hplain

end ClauseMatch.Literal
