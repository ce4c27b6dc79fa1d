import ClauseMatch.Command.Run
import ClauseMatch.Proofs.Literal.Option

/-!
# Arguments in any order

The arguments of the encode command are taken in from left to right. Each has one role by its
spelling alone, and no two roles change the same thing: the first argument that is no option becomes
the literal, every format replaces the one before it, and asking for the listing cannot be undone.
So the request is read off the argument list in three independent ways, and these decide how the
command exits and what it prints; the order of the arguments and those that are ignored show in its
warnings only.
-/

namespace ClauseMatch.Command

variable {text : String} {args : List String} {format : OutputFormat}

/-! ## What is read off an argument list -/

/-- The arguments that set a format, with the format that they set. -/
def formatArguments : List (String × OutputFormat) :=
  [("--hex", .hex), ("-x", .hex), ("--format=decimal", .decimal), ("--format=dec", .decimal),
    ("--format=hex", .hex)]

/-- The format that an argument sets, if it sets one. -/
def formatSetBy? (text : String) : Option OutputFormat := formatArguments.lookup text

/-- Whether an argument asks for the listing of segments. -/
def AsksForListing (text : String) : Prop := text = "--segments" ∨ text = "-s"

instance : DecidablePred AsksForListing := fun text =>
  inferInstanceAs (Decidable (text = "--segments" ∨ text = "-s"))

/-- Whether an argument begins as a long option does. -/
def BeginsOption (text : String) : Prop := "--".toList <+: text.toList

instance : DecidablePred BeginsOption := fun text =>
  inferInstanceAs (Decidable ("--".toList <+: text.toList))

/-- Whether an argument is no option, short or long. -/
def IsPositional (text : String) : Prop := text ≠ "-x" ∧ text ≠ "-s" ∧ ¬ BeginsOption text

instance : DecidablePred IsPositional := fun text =>
  inferInstanceAs (Decidable (text ≠ "-x" ∧ text ≠ "-s" ∧ ¬ BeginsOption text))

/-- The first argument that is no option. -/
def literalOf (args : List String) : Option String :=
  args.find? fun text => decide (IsPositional text)

/-- The format that the last argument sets that sets one. -/
def formatOf (args : List String) : OutputFormat :=
  (args.filterMap formatSetBy?).getLastD .decimal

/-- Whether any argument asks for the listing of segments. -/
def listingOf (args : List String) : Bool := args.any fun text => decide (AsksForListing text)

/-- The format and the listing that an argument list asks for. -/
def configOf (args : List String) : EncodeConfig := ⟨formatOf args, listingOf args⟩

theorem listingOf_eq_true_iff : listingOf args = true ↔ "--segments" ∈ args ∨ "-s" ∈ args := by
  rw [listingOf, List.any_eq_true]
  simp only [decide_eq_true_iff]
  constructor
  · rintro ⟨text, hmem, rfl | rfl⟩
    · exact Or.inl hmem
    · exact Or.inr hmem
  · rintro (hmem | hmem)
    · exact ⟨_, hmem, Or.inl rfl⟩
    · exact ⟨_, hmem, Or.inr rfl⟩

/-! ## Spellings -/

theorem textAfter?_eq_some_iff {beginning rest : String} :
    textAfter? beginning text = some rest ↔ text = beginning ++ rest := by
  rw [textAfter?, ← String.length_toList]
  constructor
  · intro h
    split at h
    · rename_i hstart
      obtain ⟨chars, hchars⟩ := List.isPrefixOf_iff_prefix.mp hstart
      rw [← Option.some.inj h, ← String.toList_inj, ← hchars, List.drop_left]
      simp
    · cases h
  · rintro rfl
    simp

theorem isSome_textAfter?_iff : (textAfter? "--" text).isSome = true ↔ BeginsOption text := by
  rw [Option.isSome_iff_exists, BeginsOption]
  simp only [textAfter?_eq_some_iff]
  constructor
  · rintro ⟨rest, rfl⟩
    exact ⟨rest.toList, String.toList_append.symm⟩
  · rintro ⟨rest, hrest⟩
    exact ⟨String.ofList rest, by rw [← String.toList_inj, ← hrest]; simp⟩

theorem beginsOption_format (name : String) : BeginsOption ("--format=" ++ name) :=
  ⟨("format=" ++ name).toList, by simp [String.toList_append]⟩

theorem formatSetBy?_eq_some_iff :
    formatSetBy? text = some format ↔ (text, format) ∈ formatArguments := by
  constructor
  · exact Literal.mem_of_lookup_eq_some
  · have hlookup : ∀ setting ∈ formatArguments,
        formatSetBy? setting.1 = some setting.2 := by decide
    exact hlookup (text, format)

theorem mem_formatArguments_of_ofName? {name : String}
    (h : OutputFormat.ofName? name = some format) :
    ("--format=" ++ name, format) ∈ formatArguments := by
  unfold OutputFormat.ofName? at h
  split at h <;> cases h <;> decide

/-- The spellings of arguments by role. -/
inductive Argument.Spelled : String → Argument → Prop where
  | format {text : String} {format : OutputFormat} (h : (text, format) ∈ formatArguments) :
      Spelled text (.format format)
  | unknownFormat (name : String) : Spelled ("--format=" ++ name) (.unknownFormat name)
  | segments {text : String} (h : AsksForListing text) : Spelled text .segments
  | unknownOption {text : String} (h : BeginsOption text) : Spelled text .unknownOption
  | positional {text : String} (h : IsPositional text) : Spelled text .positional

/-- The tests of a spelling overlap: what sets a format or asks for the listing can begin as an unknown
option does. The branches are therefore gone through in their order. -/
theorem spelled_of_ofText {role : Argument} (h : Argument.ofText text = role) :
    Argument.Spelled text role := by
  subst h
  unfold Argument.ofText
  split
  · rename_i hhex
    refine .format ?_
    rcases hhex with rfl | rfl <;> decide
  · rename_i hhex
    split
    · rename_i name hname
      obtain rfl := textAfter?_eq_some_iff.mp hname
      split
      · rename_i hformat
        exact .format (mem_formatArguments_of_ofName? hformat)
      · exact .unknownFormat name
    · split
      · rename_i hlisting
        exact .segments hlisting
      · rename_i hlisting
        split
        · rename_i hbegins
          exact .unknownOption (isSome_textAfter?_iff.mp hbegins)
        · rename_i hbegins
          exact .positional ⟨fun h => hhex (Or.inr h), fun h => hlisting (Or.inr h),
            mt isSome_textAfter?_iff.mpr hbegins⟩

theorem ofText_eq_format_iff :
    Argument.ofText text = .format format ↔ (text, format) ∈ formatArguments := by
  constructor
  · intro h
    cases spelled_of_ofText h with
    | format hmem => exact hmem
  · have hrole : ∀ setting ∈ formatArguments,
        Argument.ofText setting.1 = .format setting.2 := by decide
    exact hrole (text, format)

theorem ofText_eq_segments_iff : Argument.ofText text = .segments ↔ AsksForListing text := by
  constructor
  · intro h
    cases spelled_of_ofText h with
    | segments hlisting => exact hlisting
  · rintro (rfl | rfl) <;> rfl

theorem ofText_eq_positional_iff : Argument.ofText text = .positional ↔ IsPositional text := by
  constructor
  · intro h
    cases spelled_of_ofText h with
    | positional hpositional => exact hpositional
  · intro h
    -- Every other role has a spelling that is no literal's.
    generalize hrole : Argument.ofText text = role
    cases spelled_of_ofText hrole with
    | format hmem =>
      have hoption : ∀ setting ∈ formatArguments, ¬ IsPositional setting.1 := by decide
      exact absurd h (hoption _ hmem)
    | unknownFormat name => exact absurd (beginsOption_format name) h.2.2
    | segments hlisting =>
      rcases hlisting with rfl | rfl <;> exact absurd h (by decide)
    | unknownOption hbegins => exact absurd hbegins h.2.2
    | positional => rfl

/-! ## One argument after the other -/

namespace EncodeRequest

/-- The first argument that is no option becomes the literal. -/
theorem addArgument_literal (r : EncodeRequest) (text : String) :
    (r.addArgument text).literal =
      r.literal.or (if IsPositional text then some text else none) := by
  by_cases h : IsPositional text
  · rw [if_pos h, addArgument, ofText_eq_positional_iff.mpr h]
    cases r.literal <;> rfl
  · have hrole := mt ofText_eq_positional_iff.mp h
    rw [if_neg h, Option.or_none, addArgument]
    cases htext : Argument.ofText text with
    | positional => exact absurd htext hrole
    | _ => rfl

/-- An argument that sets a format replaces the format. -/
theorem addArgument_output (r : EncodeRequest) (text : String) :
    (r.addArgument text).config.output =
      (formatSetBy? text).getD r.config.output := by
  cases hformat : formatSetBy? text with
  | some format =>
    have hmem := formatSetBy?_eq_some_iff.mp hformat
    rw [addArgument, ofText_eq_format_iff.mpr hmem]
    rfl
  | none =>
    rw [addArgument]
    cases htext : Argument.ofText text with
    | format chosen =>
      have hset := formatSetBy?_eq_some_iff.mpr (ofText_eq_format_iff.mp htext)
      rw [hformat] at hset
      cases hset
    | positional => cases r.literal <;> rfl
    | _ => rfl

/-- An argument can ask for the listing, and none can undo it. -/
theorem addArgument_showSegments (r : EncodeRequest) (text : String) :
    (r.addArgument text).config.showSegments =
      (r.config.showSegments || decide (AsksForListing text)) := by
  by_cases h : AsksForListing text
  · rw [addArgument, ofText_eq_segments_iff.mpr h, decide_eq_true h, Bool.or_true]
  · have hrole := mt ofText_eq_segments_iff.mp h
    rw [addArgument, decide_eq_false h, Bool.or_false]
    cases htext : Argument.ofText text with
    | segments => exact absurd htext hrole
    | positional => cases r.literal <;> rfl
    | _ => rfl

theorem foldl_addArgument_literal (args : List String) (r : EncodeRequest) :
    (args.foldl addArgument r).literal = r.literal.or (literalOf args) := by
  induction args generalizing r with
  | nil => rw [List.foldl_nil, literalOf, List.find?_nil, Option.or_none]
  | cons text args ih =>
    have hfirst : (if IsPositional text then some text else none).or (literalOf args) =
        literalOf (text :: args) := by
      by_cases h : IsPositional text <;> simp [literalOf, h]
    rw [List.foldl_cons, ih, addArgument_literal, Option.or_assoc, hfirst]

theorem foldl_addArgument_output (args : List String) (r : EncodeRequest) :
    (args.foldl addArgument r).config.output =
      (args.filterMap formatSetBy?).getLastD r.config.output := by
  induction args generalizing r with
  | nil => rfl
  | cons text args ih =>
    rw [List.foldl_cons, ih, addArgument_output]
    cases hformat : formatSetBy? text with
    | none => rw [List.filterMap_cons_none hformat, Option.getD_none]
    | some format => rw [List.filterMap_cons_some hformat, List.getLastD_cons, Option.getD_some]

theorem foldl_addArgument_showSegments (args : List String) (r : EncodeRequest) :
    (args.foldl addArgument r).config.showSegments =
      (r.config.showSegments || listingOf args) := by
  induction args generalizing r with
  | nil => rw [List.foldl_nil, listingOf, List.any_nil, Bool.or_false]
  | cons text args ih =>
    rw [List.foldl_cons, ih, addArgument_showSegments, Bool.or_assoc, listingOf, listingOf,
      List.any_cons]

theorem ofArguments_literal (args : List String) : (ofArguments args).literal = literalOf args :=
  foldl_addArgument_literal args initial

/-- The last format wins, and the listing is asked for anywhere. -/
theorem ofArguments_config (args : List String) : (ofArguments args).config = configOf args := by
  have houtput : (ofArguments args).config.output = formatOf args :=
    foldl_addArgument_output args initial
  have hlisting : (ofArguments args).config.showSegments = listingOf args :=
    foldl_addArgument_showSegments args initial
  rw [configOf, ← houtput, ← hlisting]

end EncodeRequest

/-! ## Arguments without an effect -/

section

variable (before after : List String)

theorem literalOf_insert (h : ¬ IsPositional text) :
    literalOf (before ++ text :: after) = literalOf (before ++ after) := by
  simp only [literalOf, List.find?_append, List.find?_cons, decide_eq_false h]

theorem formatOf_insert (h : ∀ format, (text, format) ∉ formatArguments) :
    formatOf (before ++ text :: after) = formatOf (before ++ after) := by
  have hnone : formatSetBy? text = none :=
    Option.eq_none_iff_forall_ne_some.mpr fun format hformat =>
      h format (formatSetBy?_eq_some_iff.mp hformat)
  rw [formatOf, formatOf, List.filterMap_append, List.filterMap_cons_none hnone,
    List.filterMap_append]

theorem listingOf_insert (h : ¬ AsksForListing text) :
    listingOf (before ++ text :: after) = listingOf (before ++ after) := by
  simp only [listingOf, List.any_append, List.any_cons, decide_eq_false h, Bool.false_or]

end

/-! ## Runs -/

/-- The exit code and the standard output for a literal, if there is one, under given options. -/
def answerTo (literal : Option String) (config : EncodeConfig) : Nat × String :=
  match literal.map (encodeLiteral config) with
  | some (.ok out) => (0, out ++ "\n")
  | _ => (1, "")

theorem run_encode (args : List String) :
    ((run ("encode" :: args)).exitCode, (run ("encode" :: args)).stdout) =
      answerTo (literalOf args) (configOf args) := by
  rw [run, if_pos rfl, runEncode, EncodeRequest.ofArguments_literal,
    EncodeRequest.ofArguments_config, answerTo]
  cases literalOf args with
  | none => rfl
  | some source =>
    cases hout : encodeLiteral (configOf args) source <;> simp [hout]

/-- The request of an argument list is read off it in three ways: the literal is the first argument
that is no option, the format is that of the last argument that sets one, and the listing is asked
for if any argument asks for it. Other arguments that begin as long options change nothing, wherever
they stand. The command prints the encoded literal if there is a literal and it can be encoded, and
fails without output otherwise. Therefore argument lists that agree in these three ways make it exit
and print alike, whatever their order and whatever else is among them. -/
theorem encoding_is_decided_by_three_readings :
    (∀ args, (EncodeRequest.ofArguments args).literal = literalOf args ∧
      (EncodeRequest.ofArguments args).config.output = formatOf args ∧
      ((EncodeRequest.ofArguments args).config.showSegments = true ↔
        "--segments" ∈ args ∨ "-s" ∈ args)) ∧
    (∀ before text after, BeginsOption text → (∀ format, (text, format) ∉ formatArguments) →
      text ≠ "--segments" →
      (EncodeRequest.ofArguments (before ++ text :: after)).literal =
        (EncodeRequest.ofArguments (before ++ after)).literal ∧
      (EncodeRequest.ofArguments (before ++ text :: after)).config =
        (EncodeRequest.ofArguments (before ++ after)).config) ∧
    (∀ args source out, literalOf args = some source →
      encodeLiteral (configOf args) source = .ok out →
      (run ("encode" :: args)).exitCode = 0 ∧ (run ("encode" :: args)).stdout = out ++ "\n") ∧
    (∀ args, (∀ source, literalOf args = some source →
        ∃ failure, encodeLiteral (configOf args) source = .error failure) →
      (run ("encode" :: args)).exitCode = 1 ∧ (run ("encode" :: args)).stdout = "") ∧
    ∀ args args', literalOf args = literalOf args' → formatOf args = formatOf args' →
      (("--segments" ∈ args ∨ "-s" ∈ args) ↔ ("--segments" ∈ args' ∨ "-s" ∈ args')) →
      (run ("encode" :: args)).exitCode = (run ("encode" :: args')).exitCode ∧
      (run ("encode" :: args)).stdout = (run ("encode" :: args')).stdout := by
  refine ⟨fun args => ?_, fun before text after hbegins hformat hlisting => ?_,
    fun args source out hliteral hout => ?_, fun args hfails => ?_,
    fun args args' hliteral hformat hlisting => ?_⟩
  · rw [EncodeRequest.ofArguments_literal, EncodeRequest.ofArguments_config]
    exact ⟨rfl, rfl, listingOf_eq_true_iff⟩
  · have hpositional : ¬ IsPositional text := fun h => h.2.2 hbegins
    have hsilent : ¬ AsksForListing text := by
      rintro (h | rfl)
      · exact hlisting h
      · exact absurd hbegins (by decide)
    simp only [EncodeRequest.ofArguments_literal, EncodeRequest.ofArguments_config, configOf,
      literalOf_insert before after hpositional, formatOf_insert before after hformat,
      listingOf_insert before after hsilent, and_self]
  · rw [← Prod.mk.injEq, run_encode, answerTo, hliteral, Option.map_some, hout]
  · rw [← Prod.mk.injEq, run_encode, answerTo]
    cases hliteral : literalOf args with
    | none => rfl
    | some source =>
      obtain ⟨failure, hfailure⟩ := hfails source hliteral
      rw [Option.map_some, hfailure]
  · have hlistings : listingOf args = listingOf args' := by
      rw [Bool.eq_iff_iff, listingOf_eq_true_iff, listingOf_eq_true_iff, hlisting]
    rw [← Prod.mk.injEq, run_encode, run_encode, hliteral, configOf, configOf, hformat, hlistings]

/-- Two orders of the same options, one of them with arguments that are ignored; an unknown option;
no literal at all. -/
theorem encoding_is_decided_by_three_readings_reordered :
    (run ["encode", "--hex", "<<10>>", "-s"]).exitCode = 0 ∧
    (run ["encode", "--hex", "<<10>>", "-s"]).stdout = "0: 10::integer => 0a\n0a\n" ∧
    (run ["encode", "-s", "--format=dec", "<<10>>", "-1", "--format=hex", "--format="]).stdout =
      (run ["encode", "--hex", "<<10>>", "-s"]).stdout ∧
    (EncodeRequest.ofArguments ["-x", "--decimal", "-1"]).config =
      (EncodeRequest.ofArguments ["-x", "-1"]).config ∧
    (run ["encode", "--hex"]).exitCode = 1 := by
  obtain ⟨-, hunknown, hprints, hfails, halike⟩ := encoding_is_decided_by_three_readings
  have hencodes : encodeLiteral ⟨.hex, true⟩ "<<10>>" = .ok "0: 10::integer => 0a\n0a" := by
    with_unfolding_all rfl
  have hprinted := hprints ["--hex", "<<10>>", "-s"] "<<10>>" _ rfl hencodes
  refine ⟨hprinted.1, hprinted.2, ?_, ?_, ?_⟩
  · exact (halike ["-s", "--format=dec", "<<10>>", "-1", "--format=hex", "--format="]
      ["--hex", "<<10>>", "-s"] rfl rfl (by simp)).2
  · have hformat : ∀ format, ("--decimal", format) ∉ formatArguments := by
      intro format
      cases format <;> decide
    exact (hunknown ["-x"] "--decimal" ["-1"] (by decide) hformat (by decide)).2
  · have hnone : literalOf ["--hex"] = none := rfl
    refine (hfails ["--hex"] fun source hsource => ?_).1
    rw [hnone] at hsource
    cases hsource

end ClauseMatch.Command
