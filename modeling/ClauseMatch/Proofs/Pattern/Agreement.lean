import ClauseMatch.Proofs.Pattern.Semantics

/-!
# The matcher follows the meaning

The verdict of the matcher is that of the meaning, and what it appends to the buffer is what the
pattern binds or, when it fails, what it leaves. The induction is on the pattern; within an array,
a tuple or an object it goes along the members, with the buffer growing by what each one binds.
-/

namespace ClauseMatch

/-! ## Buffers and texts -/

theorem Bindings.append_append (out : Bindings) (first second : List Value) :
    out ++ first ++ second = out ++ (first ++ second) :=
  Array.ext' (by simp)

theorem restAfter?_eq_some_iff {beginning text rest : List Char} :
    restAfter? beginning text = some rest ↔ text = beginning ++ rest ∧ rest ≠ [] := by
  fun_induction restAfter? beginning text with
  | case1 => simp
  | case2 text h => grind
  | case3 b bs cs ih => simp [ih]
  | case4 b bs c cs hne => simp [Ne.symm hne]
  | case5 => simp

namespace Pattern

variable {satisfies : Regex → String → Bool}

/-- On every value and every buffer the matcher does what a pattern means. -/
def Agrees (satisfies : Regex → String → Bool) (p : Pattern) : Prop :=
  ∀ v out,
    (Matches satisfies p v → p.runWith satisfies v out = ⟨true, out ++ bindings p v⟩) ∧
    (¬ Matches satisfies p v → p.runWith satisfies v out = ⟨false, out ++ leftover satisfies p v⟩)

theorem runItemsWith_agrees {patterns : List Pattern}
    (h : ∀ p ∈ patterns, Agrees satisfies p) (items : List Value) (out : Bindings) :
    (ItemsMatch satisfies patterns items →
      runItemsWith satisfies patterns items out = ⟨true, out ++ itemBindings patterns items⟩) ∧
    (¬ ItemsMatch satisfies patterns items →
      runItemsWith satisfies patterns items out =
        ⟨false, out ++ itemLeftover satisfies patterns items⟩) := by
  induction patterns generalizing items out with
  | nil => cases items <;> simp [runItemsWith, ItemsMatch, itemBindings, itemLeftover]
  | cons p ps ih =>
    cases items with
    | nil => simp [runItemsWith, ItemsMatch, itemLeftover]
    | cons v vs =>
      have hp := h p List.mem_cons_self v out
      have hps := ih (fun q hq => h q (List.mem_cons_of_mem p hq)) vs (out ++ bindings p v)
      by_cases hv : Matches satisfies p v
      -- The rest starts from a buffer that holds the first pattern's bindings as well.
      · simp only [runItemsWith, hp.1 hv, ItemsMatch, hv, true_and, itemBindings, itemLeftover,
          if_true, ← Bindings.append_append]
        exact hps
      · simp [runItemsWith, hp.2 hv, ItemsMatch, hv, itemLeftover]

theorem runSequence_agrees {patterns : List Pattern}
    (h : ∀ p ∈ patterns, Agrees satisfies p) (items : List Value) (out : Bindings) :
    (ItemsMatch satisfies patterns items →
      (if items.length = patterns.length then runItemsWith satisfies patterns items out
        else ⟨false, out⟩) = ⟨true, out ++ itemBindings patterns items⟩) ∧
    (¬ ItemsMatch satisfies patterns items →
      (if items.length = patterns.length then runItemsWith satisfies patterns items out
        else ⟨false, out⟩) =
        ⟨false, out ++ if items.length = patterns.length then
          itemLeftover satisfies patterns items else []⟩) := by
  by_cases hlength : items.length = patterns.length
  · simp only [if_pos hlength]
    exact runItemsWith_agrees h items out
  · have hfail : ¬ ItemsMatch satisfies patterns items := fun hmatch =>
      hlength (itemsMatch_iff.mp hmatch).1
    simp [hlength, hfail]

theorem runFieldsWith_agrees {patterns : List (Atom × Pattern)}
    (h : ∀ field ∈ patterns, Agrees satisfies field.2) (fields : List (Atom × Value))
    (out : Bindings) :
    (FieldsMatch satisfies patterns fields →
      runFieldsWith satisfies patterns fields out =
        ⟨true, out ++ fieldBindings patterns fields⟩) ∧
    (¬ FieldsMatch satisfies patterns fields →
      runFieldsWith satisfies patterns fields out =
        ⟨false, out ++ fieldLeftover satisfies patterns fields⟩) := by
  induction patterns generalizing out with
  | nil => simp [runFieldsWith, FieldsMatch, fieldBindings]
  | cons field ps ih =>
    obtain ⟨key, p⟩ := field
    cases hkey : getField? fields key with
    | none => simp [runFieldsWith, FieldsMatch, fieldLeftover, hkey]
    | some v =>
      have hp := h (key, p) List.mem_cons_self v out
      have hps := ih (fun q hq => h q (List.mem_cons_of_mem _ hq)) (out ++ bindings p v)
      by_cases hv : Matches satisfies p v
      · simp only [runFieldsWith, hkey, hp.1 hv, FieldsMatch, Option.some.injEq, exists_eq_left',
          hv, true_and, fieldBindings, fieldLeftover, if_true, ← Bindings.append_append]
        exact hps
      · simp [runFieldsWith, hkey, hp.2 hv, FieldsMatch, hv, fieldLeftover]

/-! ## Single patterns -/

theorem agrees_headTail : Agrees satisfies .headTail := by
  intro v out
  cases v with
  | list items =>
    match items with
    | [] => simp [runWith, Matches, leftover]
    | [v] => simp [runWith, Matches, leftover]
    | head :: next :: rest => simp [runWith, Matches, bindings]
  | _ => simp [runWith, Matches, leftover]

theorem agrees_startsWith (beginning : String) : Agrees satisfies (.startsWith beginning) := by
  intro v out
  cases v with
  | str text =>
    have hiff : Matches satisfies (.startsWith beginning) (.str text) ↔
        ∃ rest, restAfter? beginning.toList text.toList = some rest := by
      simp only [Matches, Value.str.injEq, restAfter?_eq_some_iff]
      constructor
      · rintro ⟨rest, rfl, hrest⟩
        exact ⟨rest.toList, by simp, by simpa using hrest⟩
      · rintro ⟨rest, htext, hrest⟩
        refine ⟨String.ofList rest, ?_, by simpa using hrest⟩
        rw [← String.toList_inj, htext, String.toList_append, String.toList_ofList]
    cases hrest : restAfter? beginning.toList text.toList with
    | none => simp [hiff, hrest, runWith, leftover]
    | some rest =>
      have hdrop : text.toList.drop beginning.length = rest := by
        rw [(restAfter?_eq_some_iff.mp hrest).1, ← String.length_toList, List.drop_left]
      simp [hiff, hrest, runWith, bindings, hdrop]
  | _ => simp [runWith, Matches, leftover]

theorem Agrees.capture {inner : Pattern} (h : Agrees satisfies inner) :
    Agrees satisfies (.capture inner) := by
  intro v out
  obtain ⟨hmatch, hfail⟩ := h v out
  constructor
  · intro hv
    simp only [runWith, hmatch hv, bindings, ← Bindings.append_append, Array.appendList_cons,
      Array.appendList_nil]
  · intro hv
    simp only [runWith, hfail hv, leftover]

theorem agrees_array {patterns : List Pattern} (h : ∀ p ∈ patterns, Agrees satisfies p) :
    Agrees satisfies (.array patterns) := by
  intro v out
  cases v with
  | list items =>
    simpa [runWith, Matches, bindings, leftover] using runSequence_agrees h items out
  | _ => simp [runWith, Matches, leftover]

theorem agrees_tuple {patterns : List Pattern} (h : ∀ p ∈ patterns, Agrees satisfies p) :
    Agrees satisfies (.tuple patterns) := by
  intro v out
  cases v with
  | tuple items =>
    simpa [runWith, Matches, bindings, leftover] using runSequence_agrees h items out
  | _ => simp [runWith, Matches, leftover]

theorem agrees_object {tag : Atom} {patterns : List (Atom × Pattern)}
    (h : ∀ field ∈ patterns, Agrees satisfies field.2) :
    Agrees satisfies (.object tag patterns) := by
  intro v out
  cases v with
  | object tag' fields =>
    obtain ⟨hmatch, hfail⟩ := runFieldsWith_agrees h fields out
    by_cases hkeys : tag' = tag ∧ ∀ field ∈ patterns, hasField fields field.1
    · have hall : tag' = tag ∧ patterns.all fun field => hasField fields field.1 :=
        ⟨hkeys.1, List.all_eq_true.mpr hkeys.2⟩
      simp only [runWith, if_pos hall, leftover, if_pos hkeys, bindings, Matches]
      simpa [hkeys.1] using ⟨hmatch, hfail⟩
    · have hall : ¬ (tag' = tag ∧ patterns.all fun field => hasField fields field.1) := fun hall =>
        hkeys ⟨hall.1, List.all_eq_true.mp hall.2⟩
      -- Without all the keys no field is tried, so nothing is left in the buffer.
      have hno : ¬ Matches satisfies (.object tag patterns) (.object tag' fields) := by
        rintro ⟨fields', hvalue, hfields⟩
        obtain ⟨rfl, rfl⟩ := Value.object.inj hvalue
        exact hkeys ⟨rfl, hfields.hasField⟩
      simp only [hno, runWith, if_neg hall, leftover, if_neg hkeys]
      simp
  | _ => simp [runWith, Matches, leftover]

/-- The matcher does what every pattern means. -/
theorem agrees (p : Pattern) : Agrees satisfies p := by
  induction p with
  | wildcard => intro v out; simp [runWith, Matches, bindings]
  | bound expected =>
    intro v out
    by_cases hv : v.equals expected <;> simp [runWith, Matches, bindings, leftover, hv]
  | parameter => intro v out; simp [runWith, Matches, bindings]
  | headTail => exact agrees_headTail
  | startsWith beginning => exact agrees_startsWith beginning
  | capture inner ih => exact ih.capture
  | literal expected =>
    intro v out
    cases hv : Value.literalEquals expected v <;> simp [runWith, Matches, bindings, leftover, hv]
  | regex expression =>
    intro v out
    cases v with
    | str text =>
      cases htext : satisfies expression text <;>
        simp [runWith, Matches, bindings, leftover, htext]
    | _ => simp [runWith, Matches, leftover]
  | typeTag tag =>
    intro v out
    by_cases hv : v.typeTag = tag <;> simp [runWith, Matches, bindings, leftover, hv]
  | array patterns ih => exact agrees_array ih
  | object tag patterns ih => exact agrees_object ih
  | symbol name =>
    intro v out
    cases v with
    | atom a => by_cases ha : a = name <;> simp [runWith, Matches, bindings, leftover, ha]
    | _ => simp [runWith, Matches, leftover]
  | tuple patterns ih => exact agrees_tuple ih

open Classical in
/-- Whichever texts satisfy an expression, the matcher succeeds exactly on the values that the
pattern matches. It then appends what the pattern binds to the buffer, and otherwise what a failed
match leaves. -/
theorem runWith_eq_meaning (satisfies : Regex → String → Bool) (p : Pattern) (v : Value)
    (out : Bindings) :
    p.runWith satisfies v out =
      if Matches satisfies p v then ⟨true, out ++ bindings p v⟩
      else ⟨false, out ++ leftover satisfies p v⟩ := by
  obtain ⟨hmatch, hfail⟩ := agrees p v out
  by_cases hv : Matches satisfies p v
  · rw [if_pos hv, hmatch hv]
  · rw [if_neg hv, hfail hv]

-- The second item fails, and what the first one bound stays behind the old contents.
example : (Pattern.array [.parameter, .symbol Atom.ok]).runWith Regex.isMatch
    (.list [.int 1, .int 2]) #[.nil] = ⟨false, #[.nil, .int 1]⟩ := rfl

/-- A run succeeds on the values that the pattern matches, and appends what it binds in them. -/
theorem runWith_eq_true_iff {p : Pattern} {v : Value} {out out' : Bindings} :
    p.runWith satisfies v out = ⟨true, out'⟩ ↔
      Matches satisfies p v ∧ out' = out ++ bindings p v := by
  have hagrees : Agrees satisfies p := agrees p
  obtain ⟨hmatch, hfail⟩ := hagrees v out
  by_cases hv : Matches satisfies p v
  · simp [hmatch hv, hv, eq_comm]
  · simp [hfail hv, hv]

/-! ## Matching with an empty buffer -/

theorem bindWith?_of_matches {p : Pattern} {v : Value} (h : Matches satisfies p v) :
    p.bindWith? satisfies v = some (bindings p v).toArray := by
  have hrun : p.runWith satisfies v #[] = ⟨true, #[] ++ bindings p v⟩ := (agrees p v #[]).1 h
  rw [bindWith?, hrun]
  simp

theorem bindWith?_of_not_matches {p : Pattern} {v : Value} (h : ¬ Matches satisfies p v) :
    p.bindWith? satisfies v = none := by
  have hrun : p.runWith satisfies v #[] = ⟨false, #[] ++ leftover satisfies p v⟩ :=
    (agrees p v #[]).2 h
  rw [bindWith?, hrun]

theorem isMatchWith_iff {p : Pattern} {v : Value} :
    p.isMatchWith satisfies v = true ↔ Matches satisfies p v := by
  by_cases h : Matches satisfies p v
  · simp [isMatchWith, bindWith?_of_matches h, h]
  · simp [isMatchWith, bindWith?_of_not_matches h, h]

end Pattern

end ClauseMatch
