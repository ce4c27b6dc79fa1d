import Mathlib.Logic.Relation
import ClauseMatch.Proofs.Literal.Segment
import ClauseMatch.Proofs.Literal.Bytes

/-!
# Phrases in other contexts

A phrase of the grammar does not depend on the source around it. What follows a number, a name or a
segment can be exchanged for anything that begins alike, or with a character that belongs to no
number and no name; what follows a phrase with a closing sign of its own, such as a quoted text or a
literal, can be exchanged for anything at all. Phrases in a row move together, so that every
production inherits this from its parts.
-/

namespace ClauseMatch.Literal

variable {source stop rest rest' : List Char} {P Q R : List Char → List Char → Prop}

/-- `rest'` begins like `rest`, or with a character that no number and no name goes on with. -/
def StandsFor (rest' rest : List Char) : Prop :=
  ∀ c ∈ rest'.head?, c ∈ rest.head? ∨ isNameChar c = false

theorem StandsFor.append (h : StandsFor rest' rest) (own : List Char) :
    StandsFor (own ++ rest') (own ++ rest) := by
  rcases own with _ | ⟨c, own⟩
  · exact h
  · exact fun d hd => Or.inl hd

theorem standsFor_of_ne_nil {own : List Char} (h : own ≠ []) (rest' rest : List Char) :
    StandsFor (own ++ rest') (own ++ rest) := by
  obtain ⟨c, own, rfl⟩ := List.exists_cons_of_ne_nil h
  exact fun d hd => Or.inl hd

/-- A phrase that goes on being one when something that stands for the rest takes its place. -/
def Moves (P : List Char → List Char → Prop) (source rest : List Char) : Prop :=
  ∃ own, source = own ++ rest ∧ ∀ rest', StandsFor rest' rest → P (own ++ rest') rest'

/-- A phrase that goes on being one whatever takes the place of the rest. -/
def Closed (P : List Char → List Char → Prop) (source rest : List Char) : Prop :=
  ∃ own, own ≠ [] ∧ source = own ++ rest ∧ ∀ rest', P (own ++ rest') rest'

/-! ## Composition -/

theorem Closed.moves (h : Closed P source rest) : Moves P source rest := by
  obtain ⟨own, -, hsource, hown⟩ := h
  exact ⟨own, hsource, fun rest' _ => hown rest'⟩

theorem Moves.suffix (h : Moves P source rest) : rest <:+ source := by
  obtain ⟨own, hsource, -⟩ := h
  exact ⟨own, hsource.symm⟩

theorem Moves.map (h : Moves P source rest) (hR : ∀ source rest, P source rest → R source rest) :
    Moves R source rest := by
  obtain ⟨own, hsource, hown⟩ := h
  exact ⟨own, hsource, fun rest' hrest' => hR _ _ (hown rest' hrest')⟩

theorem Closed.map (h : Closed P source rest) (hR : ∀ source rest, P source rest → R source rest) :
    Closed R source rest := by
  obtain ⟨own, hne, hsource, hown⟩ := h
  exact ⟨own, hne, hsource, fun rest' => hR _ _ (hown rest')⟩

/-- Two phrases in a row move together. -/
theorem Moves.comp (hP : Moves P source stop) (hQ : Moves Q stop rest) :
    Moves (Relation.Comp P Q) source rest := by
  obtain ⟨own, rfl, hown⟩ := hP
  obtain ⟨own', rfl, hown'⟩ := hQ
  refine ⟨own ++ own', (List.append_assoc ..).symm, fun rest' hrest' => ?_⟩
  rw [List.append_assoc]
  exact ⟨own' ++ rest', hown _ (hrest'.append own'), hown' rest' hrest'⟩

/-- A phrase before one that is closed is closed by it. -/
theorem Moves.close (hP : Moves P source stop) (hQ : Closed Q stop rest) :
    Closed (Relation.Comp P Q) source rest := by
  obtain ⟨own, rfl, hown⟩ := hP
  obtain ⟨own', hne, rfl, hown'⟩ := hQ
  refine ⟨own ++ own', List.append_ne_nil_of_right_ne_nil own hne, (List.append_assoc ..).symm,
    fun rest' => ?_⟩
  rw [List.append_assoc]
  exact ⟨own' ++ rest', hown _ (standsFor_of_ne_nil hne rest' rest), hown' rest'⟩

/-- Fixed characters. -/
theorem moves_token (token rest : List Char) :
    Moves (fun source rest => source = token ++ rest) (token ++ rest) rest :=
  ⟨token, rfl, fun _ _ => rfl⟩

theorem closed_token {token : List Char} (hne : token ≠ []) (rest : List Char) :
    Closed (fun source rest => source = token ++ rest) (token ++ rest) rest :=
  ⟨token, hne, rfl, fun _ => rfl⟩

theorem moves_absent (h : ∀ source, P source source) (source : List Char) :
    Moves P source source :=
  ⟨[], rfl, fun rest' _ => h rest'⟩

/-! ## Lexemes -/

theorem Blanks.moves (h : Blanks source rest) : Moves Blanks source rest := by
  obtain ⟨run, hrun, rfl⟩ := h
  exact ⟨run, rfl, fun rest' _ => ⟨run, hrun, rfl⟩⟩

/-- Fixed characters after blanks. -/
theorem Blanks.closed (token : List Char) (hne : token ≠ [])
    (h : Blanks source (token ++ rest)) :
    Closed (fun source rest => Blanks source (token ++ rest)) source rest := by
  apply (h.moves.close (closed_token hne rest)).map
  rintro source rest ⟨stop, hblanks, rfl⟩
  exact hblanks

theorem LongestRun.exchange {p : Char → Bool} {run : List Char}
    (h : LongestRun p source run rest) (hp : ∀ c, p c = true → isNameChar c = true)
    (hrest' : StandsFor rest' rest) : LongestRun p (run ++ rest') run rest' := by
  refine ⟨rfl, h.within, fun c hc => ?_⟩
  rcases hrest' c hc with hc' | hname
  · exact h.ends c hc'
  · refine Bool.eq_false_iff.mpr fun hpc => ?_
    rw [hp c hpc] at hname
    exact Bool.noConfusion hname

theorem LongestRun.moves {p : Char → Bool} {run : List Char} (h : LongestRun p source run rest)
    (hp : ∀ c, p c = true → isNameChar c = true) :
    Moves (fun source rest => LongestRun p source run rest) source rest :=
  ⟨run, h.split, fun _ hrest' => h.exchange hp hrest'⟩

theorem isNameChar_of_isDigitOrGap {c : Char} (h : isDigitOrGap c = true) :
    isNameChar c = true := by
  rw [isDigitOrGap, Bool.or_eq_true] at h
  rcases h with hdigit | hgap
  · exact isNameChar_of_isDigit hdigit
  · rw [isNameChar, hgap, Bool.or_true]

/-! ## Numbers -/

/-- The first digit of a number is among its whole digits, if it has no sign. -/
theorem BeginsNumber.exchange {negative : Bool} {whole : List Char}
    (h : BeginsNumber negative source) (hrun : LongestRun isDigitOrGap source whole rest)
    (rest' : List Char) : BeginsNumber negative (whole ++ rest') := by
  rcases h with hnegative | ⟨c, hc, hdigit⟩
  · exact Or.inl hnegative
  · rw [hrun.split] at hc
    rcases whole with _ | ⟨d, whole⟩
    · have hends := hrun.ends c hc
      simp [isDigitOrGap, hdigit] at hends
    · exact Or.inr ⟨c, hc, hdigit⟩

theorem BeginsNumber.moves {negative : Bool} {whole : List Char}
    (h : BeginsNumber negative source) (hrun : LongestRun isDigitOrGap source whole rest) :
    Moves (fun source rest => BeginsNumber negative source ∧
      LongestRun isDigitOrGap source whole rest) source rest :=
  ⟨whole, hrun.split, fun rest' hrest' => ⟨h.exchange hrun rest',
    hrun.exchange (fun _ => isNameChar_of_isDigitOrGap) hrest'⟩⟩

theorem IntegerAt.moves {n : Int64} (h : IntegerAt source n rest) :
    Moves (fun source rest => IntegerAt source n rest) source rest := by
  rcases h with ⟨hbegins, hrun, hne, hn⟩ | ⟨hrun, hne, hbound, hn⟩
  · apply ((moves_token _ _).comp (hbegins.moves hrun)).map
    rintro _ _ ⟨_, rfl, hbegins, hrun⟩
    exact .decimal hbegins hrun hne hn
  · have hclass : ∀ c, isHexDigitOrGap c = true → isNameChar c = true :=
      fun _ => isNameChar_of_isHexDigitOrGap
    apply ((moves_token _ _).comp ((moves_token ['0', 'x'] _).comp (hrun.moves hclass))).map
    rintro _ _ ⟨_, rfl, _, rfl, hrun⟩
    exact .hexadecimal hrun hne hbound hn

theorem FractionAt.moves {fraction : Option (List Char)} (h : FractionAt source fraction rest) :
    Moves (fun source rest => FractionAt source fraction rest) source rest := by
  rcases h with _ | @⟨c, tail, run, _, hdigit, hrun⟩
  · exact moves_absent (fun _ => .absent) _
  · obtain ⟨run, rfl⟩ : ∃ more, run = c :: more := by
      rcases run with _ | ⟨d, run⟩
      · have hends := hrun.ends c (by rw [← List.nil_append rest, ← hrun.split]; rfl)
        simp [isDigitOrGap, hdigit] at hends
      · obtain ⟨rfl, -⟩ := List.cons.inj hrun.split
        exact ⟨run, rfl⟩
    refine ⟨'.' :: c :: run, congrArg ('.' :: ·) hrun.split, fun rest' hrest' => ?_⟩
    exact .present hdigit (hrun.exchange (fun _ => isNameChar_of_isDigitOrGap) hrest')

theorem ExponentSignAt.moves {negative : Bool} (h : ExponentSignAt source negative rest) :
    Moves (fun source rest => ExponentSignAt source negative rest) source rest := by
  rcases h with _ | _ | _
  · exact moves_absent (fun _ => .absent) _
  · exact ⟨['+'], rfl, fun _ _ => .plus⟩
  · exact ⟨['-'], rfl, fun _ _ => .minus⟩

theorem ExponentAt.moves {exponent : Option (Bool × List Char)}
    (h : ExponentAt source exponent rest) :
    Moves (fun source rest => ExponentAt source exponent rest) source rest := by
  rcases h with _ | @⟨marker, _, _, _, _, _, hmarker, hsign, hrun⟩
  · exact moves_absent (fun _ => .absent) _
  · have hclass : ∀ c : Char, c.isDigit = true → isNameChar c = true :=
      fun _ => isNameChar_of_isDigit
    apply ((moves_token [marker] _).comp (hsign.moves.comp (hrun.moves hclass))).map
    rintro _ _ ⟨_, rfl, _, hsign, hrun⟩
    exact .present hmarker hsign hrun

theorem FloatAt.moves {x : Binary64} (h : FloatAt source x rest) :
    Moves (fun source rest => FloatAt source x rest) source rest := by
  obtain ⟨hbegins, hwhole, hpoint, hpower, hparts, hx⟩ := h
  apply ((moves_token _ _).comp
    ((hbegins.moves hwhole).comp (hpoint.moves.comp hpower.moves))).map
  rintro _ _ ⟨_, rfl, _, ⟨hbegins, hwhole⟩, _, hpoint, hpower⟩
  exact .intro hbegins hwhole hpoint hpower hparts hx

/-! ## Texts -/

theorem TextAt.closed {text : List Char} (h : TextAt source text rest) :
    Closed (fun source rest => TextAt source text rest) source rest := by
  induction h with
  | close => exact ⟨['"'], by simp, rfl, fun _ => .close⟩
  | @escape c d source text rest hescape _ ih =>
    apply ((moves_token ['\\', c] source).close ih).map
    rintro _ _ ⟨_, rfl, htext⟩
    exact .escape hescape htext
  | @plain c source text rest hquote hslash _ ih =>
    apply ((moves_token [c] source).close ih).map
    rintro _ _ ⟨_, rfl, htext⟩
    exact .plain hquote hslash htext

/-! ## Options -/

theorem ArgumentAt.closed {n : UInt32} (h : ArgumentAt source n rest) :
    Closed (fun source rest => ArgumentAt source n rest) source rest := by
  obtain ⟨hstart, hrun, hcount, hstop⟩ := h
  have hdigits := hrun.moves fun _ => isNameChar_of_isDigit
  have hclose := hstop.closed [')'] (by simp)
  apply ((hstart.moves.comp hdigits).close hclose).map
  rintro _ _ ⟨_, ⟨_, hstart, hrun⟩, hstop⟩
  exact .intro hstart hrun hcount hstop

theorem OptionAt.moves {o : SegmentOption} (h : OptionAt source o rest) :
    Moves (fun source rest => OptionAt source o rest) source rest := by
  have hname : ∀ c, isNameChar c = true → isNameChar c = true := fun _ => id
  rcases h with hrun | ⟨hplain, hrun⟩ | ⟨hrun, hcount⟩ | hargument | hargument
  · exact (hrun.moves hname).map fun _ _ => .type
  · exact (hrun.moves hname).map fun _ _ => .plain hplain
  · exact (hrun.moves hname).map fun _ _ hrun => .bare hrun hcount
  · apply ((moves_token ("size".toList ++ ['(']) _).comp hargument.closed.moves).map
    rintro _ _ ⟨_, rfl, hargument⟩
    exact .size hargument
  · apply ((moves_token ("unit".toList ++ ['(']) _).comp hargument.closed.moves).map
    rintro _ _ ⟨_, rfl, hargument⟩
    exact .unit hargument

theorem OptionsAt.moves {options : List SegmentOption} (h : OptionsAt source options rest) :
    Moves (fun source rest => OptionsAt source options rest) source rest := by
  induction h with
  | last ho => exact ho.moves.map fun _ _ => .last
  | cons ho hdash hnext _ ih =>
    have hdash' := (hdash.closed ['-'] (by simp)).moves
    apply (ho.moves.comp (hdash'.comp (hnext.moves.comp ih))).map
    rintro _ _ ⟨_, ho, _, hdash, _, hnext, hos⟩
    exact .cons ho hdash hnext hos

theorem TailAt.moves {options : List SegmentOption} (h : TailAt source options rest) :
    Moves (fun source rest => TailAt source options rest) source rest := by
  rcases h with _ | ⟨hcolons, hnext, hoptions⟩
  · exact moves_absent (fun _ => .absent) _
  · have hcolons' := (hcolons.closed [':', ':'] (by simp)).moves
    apply (hcolons'.comp (hnext.moves.comp hoptions.moves)).map
    rintro _ _ ⟨_, hcolons, _, hnext, hoptions⟩
    exact .present hcolons hnext hoptions

/-! ## Segments and literals -/

mutual

/-- What follows a literal does not matter to it. -/
theorem LiteralAt.closed : ∀ {source rest : List Char} {segments : List Segment},
    LiteralAt source segments rest →
      Closed (fun source rest => LiteralAt source segments rest) source rest
  | _, _, _, .empty hclose => by
    have hclose' := hclose.closed ['>', '>'] (by simp)
    apply ((moves_token ['<', '<'] _).close hclose').map
    rintro _ _ ⟨_, rfl, hclose⟩
    exact .empty hclose
  | _, _, _, .segments hstart hsegments hclose => by
    have hclose' := hclose.closed ['>', '>'] (by simp)
    apply ((moves_token ['<', '<'] _).close
      ((hstart.moves.comp hsegments.moves).close hclose')).map
    rintro _ _ ⟨_, rfl, _, ⟨_, hstart, hsegments⟩, hclose⟩
    exact .segments hstart hsegments hclose

theorem SegmentsAt.moves : ∀ {source rest : List Char} {segments : List Segment},
    SegmentsAt source segments rest →
      Moves (fun source rest => SegmentsAt source segments rest) source rest
  | _, _, _, .last hsegment => hsegment.moves.map fun _ _ => .last
  | _, _, _, .cons hsegment hcomma hnext hsegments => by
    have hcomma' := (hcomma.closed [','] (by simp)).moves
    apply (hsegment.moves.comp (hcomma'.comp (hnext.moves.comp hsegments.moves))).map
    rintro _ _ ⟨_, hsegment, _, hcomma, _, hnext, hsegments⟩
    exact .cons hsegment hcomma hnext hsegments

theorem SegmentAt.moves : ∀ {source rest : List Char} {s : Segment},
    SegmentAt source s rest → Moves (fun source rest => SegmentAt source s rest) source rest
  | _, _, _, .intro hvalue htail htype htyped => by
    apply (hvalue.moves.comp htail.moves).map
    rintro _ _ ⟨_, hvalue, htail⟩
    exact .intro hvalue htail htype htyped

theorem ValueAt.moves : ∀ {source rest : List Char} {value : RawValue},
    ValueAt source value rest →
      Moves (fun source rest => ValueAt source value rest) source rest
  | _, _, _, .integer hinteger => hinteger.moves.map fun _ _ => .integer
  | _, _, _, .float hfloat => hfloat.moves.map fun _ _ => .float
  | _, _, _, .text htext => by
    apply ((moves_token ['"'] _).comp htext.closed.moves).map
    rintro _ _ ⟨_, rfl, htext⟩
    exact .text htext
  | _, _, _, .literal hliteral hbits =>
    hliteral.closed.moves.map fun _ _ hliteral => .literal hliteral hbits

end

end ClauseMatch.Literal
