import ClauseMatch.Proofs.Literal.Lexeme

/-!
# Reading options

An option is read exactly when it is one of the grammar, provided that no parenthesis follows it;
a list of options is read as a whole when a comma or a closing bracket follows it. The type read
so far and the modifiers read so far are carried along: together with the options still to come
they make up what the whole list declares.
-/

namespace ClauseMatch.Literal

variable {source rest stop : List Char}

/-! ## Names -/

theorem mem_of_lookup_eq_some {α β : Type} [BEq α] [LawfulBEq α] {table : List (α × β)}
    {key : α} {value : β} (h : table.lookup key = some value) : (key, value) ∈ table := by
  obtain ⟨before, after, rfl, -⟩ := List.lookup_eq_some_iff.mp h
  simp

theorem TypeName.ofText?_eq_some_iff {name : String} {t : TypeName} :
    TypeName.ofText? name = some t ↔ name = t.text := by
  constructor
  · intro h
    have hmem := mem_of_lookup_eq_some h
    simp only [spellings, List.mem_cons, Prod.mk.injEq, List.not_mem_nil, or_false] at hmem
    rcases hmem with h | h | h | h | h | h | h | h | h <;> (obtain ⟨rfl, rfl⟩ := h; rfl)
  · rintro rfl
    cases t <;> rfl

theorem lookup_plainModifiers_eq_some_iff {name : String} {m : Modifier} :
    plainModifiers.lookup name = some m ↔
      m ∈ [.signed, .unsigned, .native, .big, .little] ∧ name = m.text := by
  constructor
  · intro h
    have hmem := mem_of_lookup_eq_some h
    simp only [plainModifiers, List.mem_cons, Prod.mk.injEq, List.not_mem_nil, or_false] at hmem
    rcases hmem with h | h | h | h | h <;> (obtain ⟨rfl, rfl⟩ := h; exact ⟨by simp, rfl⟩)
  · rintro ⟨hm, rfl⟩
    simp only [List.mem_cons, List.not_mem_nil, or_false] at hm
    rcases hm with rfl | rfl | rfl | rfl | rfl <;> rfl

theorem TypeName.text_plain {t : TypeName} :
    (t.text.toList.isEmpty = false ∧ t.text.toList.all Char.isDigit = false) ∧
      plainOption? t.text = some (.type t) := by
  cases t <;> exact ⟨by decide, rfl⟩

theorem Modifier.text_plain {m : Modifier}
    (hm : m ∈ [.signed, .unsigned, .native, .big, .little]) :
    (m.text.toList.isEmpty = false ∧ m.text.toList.all Char.isDigit = false) ∧
      plainOption? m.text = some (.modifier m) := by
  simp only [List.mem_cons, List.not_mem_nil, or_false] at hm
  rcases hm with rfl | rfl | rfl | rfl | rfl <;> exact ⟨by decide, rfl⟩

/-! ## One option -/

theorem plainOption?_sound {name : List Char} {o : SegmentOption}
    (hrun : LongestRun isNameChar source name rest)
    (h : plainOption? (String.ofList name) = some o) : OptionAt source o rest := by
  simp only [plainOption?] at h
  split at h
  · rename_i t htype
    obtain rfl : SegmentOption.type t = o := by simpa using h
    have hname : name = t.text.toList := by
      rw [← TypeName.ofText?_eq_some_iff.mp htype, String.toList_ofList]
    exact .type (hname ▸ hrun)
  · rw [Option.map_eq_some_iff] at h
    obtain ⟨m, hm, rfl⟩ := h
    obtain ⟨hplain, htext⟩ := lookup_plainModifiers_eq_some_iff.mp hm
    have hname : name = m.text.toList := by rw [← htext, String.toList_ofList]
    exact .plain hplain (hname ▸ hrun)

theorem argumentOption?_sound {name argument : List Char} {n : UInt32} {o : SegmentOption}
    (hargument : ArgumentAt argument n rest)
    (h : argumentOption? (String.ofList name) n = some o) :
    OptionAt (name ++ '(' :: argument) o rest := by
  simp only [argumentOption?] at h
  split at h
  · rename_i hname
    obtain rfl : SegmentOption.modifier (.size n) = o := by simpa using h
    obtain rfl : name = "size".toList := by rw [← hname, String.toList_ofList]
    exact .size hargument
  · split at h
    · rename_i hname
      obtain rfl : SegmentOption.modifier (.unit n) = o := by simpa using h
      obtain rfl : name = "unit".toList := by rw [← hname, String.toList_ofList]
      exact .unit hargument
    · simp at h

theorem readOption_sound {o : SegmentOption} (h : readOption source = .ok (o, rest)) :
    OptionAt source o rest := by
  have hrun := longestRun_takeWhile isNameChar source
  simp only [readOption] at h
  split at h
  · simp at h
  · split at h
    · rename_i hdigits
      split at h
      · simp at h
      · rename_i n hcount
        rw [Except.ok.injEq, Prod.mk.injEq] at h
        obtain ⟨rfl, rfl⟩ := h
        have hdigits' := List.all_eq_true.mp hdigits
        exact .bare hrun ((readCount_eq_ok_iff hdigits').mp hcount)
    · split at h
      · rename_i argument hparen
        split at h
        · simp at h
        · rename_i n rest' hread
          split at h
          · rename_i o' ho
            rw [Except.ok.injEq, Prod.mk.injEq] at h
            obtain ⟨rfl, rfl⟩ := h
            rw [hrun.split, hparen]
            exact argumentOption?_sound (readArgument_sound hread) ho
          · simp at h
      · split at h
        · rename_i o' ho
          rw [Except.ok.injEq, Prod.mk.injEq] at h
          obtain ⟨rfl, rfl⟩ := h
          exact plainOption?_sound hrun ho
        · simp at h

/-- A name that is no number and that no parenthesis follows is looked up among the plain
options. -/
theorem readOption_of_plain {name : List Char} {o : SegmentOption}
    (hrun : LongestRun isNameChar source name rest) (hparen : '(' ∉ rest.head?)
    (hname : name.isEmpty = false ∧ name.all Char.isDigit = false)
    (ho : plainOption? (String.ofList name) = some o) : readOption source = .ok (o, rest) := by
  simp only [readOption, hrun.takeWhile_eq, hrun.dropWhile_eq, hname.1, hname.2,
    Bool.false_eq_true, if_false]
  split
  · simp at hparen
  · simp only [ho]

theorem readOption_of_argument {name argument : List Char} {n : UInt32} {o : SegmentOption}
    (hrun : name.all isNameChar = true)
    (hname : name.isEmpty = false ∧ name.all Char.isDigit = false)
    (hargument : ArgumentAt argument n rest)
    (ho : argumentOption? (String.ofList name) n = some o) :
    readOption (name ++ '(' :: argument) = .ok (o, rest) := by
  have hrun' : LongestRun isNameChar (name ++ '(' :: argument) name ('(' :: argument) :=
    ⟨rfl, List.all_eq_true.mp hrun, not_head_cons (by decide) argument⟩
  simp only [readOption, hrun'.takeWhile_eq, hrun'.dropWhile_eq, hname.1, hname.2,
    Bool.false_eq_true, if_false, hargument.readArgument_eq, ho]

theorem OptionAt.readOption_eq {o : SegmentOption} (h : OptionAt source o rest)
    (hparen : '(' ∉ rest.head?) : readOption source = .ok (o, rest) := by
  cases h with
  | type hrun =>
    exact readOption_of_plain hrun hparen TypeName.text_plain.1
      (by rw [String.ofList_toList]; exact TypeName.text_plain.2)
  | plain hm hrun =>
    exact readOption_of_plain hrun hparen (Modifier.text_plain hm).1
      (by rw [String.ofList_toList]; exact (Modifier.text_plain hm).2)
  | bare hrun hcount =>
    have hdigits := List.all_eq_true.mpr hcount.isDigit
    have hempty := List.isEmpty_eq_false_iff.mpr hcount.nonempty
    simp only [readOption, hrun.takeWhile_eq, hrun.dropWhile_eq, hempty, hdigits,
      Bool.false_eq_true, if_false, if_true, (readCount_eq_ok_iff hcount.isDigit).mpr hcount]
  | size hargument =>
    exact readOption_of_argument (by decide) (by decide) hargument rfl
  | unit hargument =>
    exact readOption_of_argument (by decide) (by decide) hargument rfl

/-! ## Lists of options -/

/-- What has been read of a list of options and what is still to come declare `declared`. -/
structure Declares (type : Option TypeName) (modifiers : List Modifier)
    (options : List SegmentOption) (declared : Options) : Prop where
  type : type.toList ++ options.filterMap SegmentOption.type? = declared.type.toList
  modifiers :
    modifiers.reverse ++ options.filterMap SegmentOption.modifier? = declared.modifiers

theorem readOptions_sound {segment : List Char} {type : Option TypeName}
    {modifiers : List Modifier} {declared : Options}
    (h : readOptions segment source type modifiers = .ok (declared, rest)) :
    ∃ options next stop, Blanks source next ∧ OptionsAt next options stop ∧ Blanks stop rest ∧
      Declares type modifiers options declared := by
  fun_induction readOptions segment source type modifiers with
  | case1 => simp at h
  | case2 => simp at h
  | case3 source type modifiers name stop hread hnone more hmore ih =>
    obtain ⟨options, next, stop', hnext, hoptions, hrest, htype, hmodifiers⟩ := ih h
    have hdash : Blanks stop ('-' :: more) := hmore ▸ blanks_skipBlank stop
    refine ⟨.type name :: options, skipBlank source, stop', blanks_skipBlank source,
      .cons (readOption_sound hread) hdash hnext hoptions, hrest, ?_, ?_⟩
    · obtain rfl : type = none := by simpa using hnone
      simpa [SegmentOption.type?] using htype
    · simpa [List.filterMap_cons, SegmentOption.modifier?] using hmodifiers
  | case4 source type modifiers name stop hread hnone _ =>
    rw [Except.ok.injEq, Prod.mk.injEq] at h
    obtain ⟨rfl, rfl⟩ := h
    refine ⟨[.type name], skipBlank source, stop, blanks_skipBlank source,
      .last (readOption_sound hread), blanks_skipBlank stop, ?_, ?_⟩
    · obtain rfl : type = none := by simpa using hnone
      simp [SegmentOption.type?]
    · simp [SegmentOption.modifier?]
  | case5 source type modifiers m stop hread more hmore ih =>
    obtain ⟨options, next, stop', hnext, hoptions, hrest, htype, hmodifiers⟩ := ih h
    have hdash : Blanks stop ('-' :: more) := hmore ▸ blanks_skipBlank stop
    refine ⟨.modifier m :: options, skipBlank source, stop', blanks_skipBlank source,
      .cons (readOption_sound hread) hdash hnext hoptions, hrest, ?_, ?_⟩
    · simpa [List.filterMap_cons, SegmentOption.type?] using htype
    · simpa [List.filterMap_cons, SegmentOption.modifier?] using hmodifiers
  | case6 source type modifiers m stop hread _ =>
    rw [Except.ok.injEq, Prod.mk.injEq] at h
    obtain ⟨rfl, rfl⟩ := h
    refine ⟨[.modifier m], skipBlank source, stop, blanks_skipBlank source,
      .last (readOption_sound hread), blanks_skipBlank stop, ?_, ?_⟩
    · simp [SegmentOption.type?]
    · simp [SegmentOption.modifier?]

theorem OptionAt.head_not_blank {o : SegmentOption} (h : OptionAt source o rest) :
    ∀ c ∈ source.head?, isBlank c = false := by
  intro c hc
  have hrun : ∀ {run stop : List Char}, LongestRun isNameChar source run stop → run ≠ [] →
      isBlank c = false := by
    intro run stop hrun hne
    obtain ⟨d, run, rfl⟩ := List.exists_cons_of_ne_nil hne
    rw [hrun.split] at hc
    obtain rfl : d = c := by simpa using hc
    exact isBlank_of_isNameChar (hrun.within d (by simp))
  cases h with
  | type h => exact hrun h (List.isEmpty_eq_false_iff.mp TypeName.text_plain.1.1)
  | plain hm h => exact hrun h (List.isEmpty_eq_false_iff.mp (Modifier.text_plain hm).1.1)
  | bare h hcount => exact hrun h hcount.nonempty
  | size | unit =>
    simp only [String.reduceToList, List.cons_append, List.head?_cons, Option.mem_some] at hc
    subst hc
    decide

theorem Declares.type_eq_none {type : Option TypeName} {modifiers : List Modifier}
    {t : TypeName} {options : List SegmentOption} {declared : Options}
    (h : Declares type modifiers (.type t :: options) declared) : type = none := by
  have hlength := congrArg List.length h.type
  cases type with
  | none => rfl
  | some t' => cases hdeclared : declared.type <;> simp [hdeclared, SegmentOption.type?] at hlength

/-- The first option still to come counts as read. -/
theorem Declares.step {type : Option TypeName} {modifiers : List Modifier} {o : SegmentOption}
    {options : List SegmentOption} {declared : Options}
    (h : Declares type modifiers (o :: options) declared) :
    Declares (o.type?.or type) (o.modifier?.toList ++ modifiers) options declared := by
  have htype := h.type
  have hmodifiers := h.modifiers
  cases o with
  | type t =>
    obtain rfl := h.type_eq_none
    exact ⟨by simpa [SegmentOption.type?] using htype,
      by simpa [List.filterMap_cons, SegmentOption.modifier?] using hmodifiers⟩
  | modifier m =>
    exact ⟨by simpa [List.filterMap_cons, SegmentOption.type?] using htype,
      by simpa [SegmentOption.modifier?] using hmodifiers⟩

theorem Declares.eq_of_nil {type : Option TypeName} {modifiers : List Modifier}
    {declared : Options} (h : Declares type modifiers [] declared) :
    declared = ⟨type, modifiers.reverse⟩ := by
  obtain ⟨htype, hmodifiers⟩ := h
  obtain ⟨type', modifiers'⟩ := declared
  simp only [List.filterMap_nil, List.append_nil] at htype hmodifiers
  obtain rfl : type' = type := by
    cases type <;> cases type' <;> simp_all
  rw [hmodifiers]

theorem readOptions_of_readOption {segment : List Char} {type : Option TypeName}
    {modifiers : List Modifier} {o : SegmentOption}
    (hread : readOption (skipBlank source) = .ok (o, stop))
    (htype : ∀ t, o = .type t → type = none) :
    readOptions segment source type modifiers =
      match skipBlank stop with
      | '-' :: more =>
        readOptions segment more (o.type?.or type) (o.modifier?.toList ++ modifiers)
      | rest => .ok (⟨o.type?.or type, (o.modifier?.toList ++ modifiers).reverse⟩, rest) := by
  rw [readOptions]
  split <;> rename_i hread' <;> rw [hread] at hread'
  · simp at hread'
  all_goals
    rw [Except.ok.injEq, Prod.mk.injEq] at hread'
    obtain ⟨rfl, rfl⟩ := hread'
  case' h_2 =>
    obtain rfl := htype _ rfl
    simp only [Option.isSome_none, Bool.false_eq_true, if_false]
  all_goals
    split <;> rename_i hdash
    · simp only [hdash]
      rfl
    · split
      · rename_i hdash'
        exact absurd hdash' (hdash _)
      · rfl

/-- Options that a comma or a closing bracket follows are read as a whole. -/
theorem OptionsAt.readOptions_eq {segment start : List Char} {options : List SegmentOption}
    {declared : Options} (h : OptionsAt start options stop) (hrest : Blanks stop rest)
    (hend : EndsSegment rest) :
    ∀ {source type modifiers}, Blanks source start → Declares type modifiers options declared →
      readOptions segment source type modifiers = .ok (declared, rest) := by
  obtain ⟨c, hc, hend⟩ := hend
  obtain ⟨tail, rfl⟩ : ∃ tail, rest = c :: tail := by
    rwa [Option.mem_def, List.head?_eq_some_iff] at hc
  have hfollows : Follows [c] stop := hrest.follows (by simp)
  induction h with
  | @last o start stop ho =>
    intro source type modifiers hstart hdeclares
    have hparen : '(' ∉ stop.head? :=
      hfollows.ne_head (by decide) (by rcases hend with rfl | rfl <;> simp)
    have hread := ho.readOption_eq hparen
    rw [← hstart.skipBlank_eq ho.head_not_blank] at hread
    have hclose : skipBlank stop = c :: tail :=
      hrest.skipBlank_eq (by rcases hend with rfl | rfl <;> simp [isBlank])
    rw [readOptions_of_readOption hread fun t ht => (ht ▸ hdeclares).type_eq_none, hclose,
      hdeclares.step.eq_of_nil]
    rcases hend with rfl | rfl <;> rfl
  | @cons o os start stop more next stop' ho hdash hnext hos ih =>
    intro source type modifiers hstart hdeclares
    have hdashes : Follows ['-'] stop := hdash.follows (by simp)
    have hparen : '(' ∉ stop.head? := hdashes.ne_head (by decide) (by simp)
    have hread := ho.readOption_eq hparen
    rw [← hstart.skipBlank_eq ho.head_not_blank] at hread
    rw [readOptions_of_readOption hread fun t ht => (ht ▸ hdeclares).type_eq_none,
      hdash.skipBlank_eq (by simp [isBlank])]
    exact ih hrest hfollows hnext hdeclares.step

end ClauseMatch.Literal
