import ClauseMatch.Pattern.Matching

/-!
# The meaning of patterns

A pattern means three things, each given by recursion on it: which values it matches, what it binds
in a value that it matches, and what it has already bound when it gives up on a value that it does
not match. Which texts an expression is satisfied by is left open.

The matcher does what the meaning says: its verdict is that of `Matches`, and it appends `bindings`
or `leftover` to the buffer, whatever the buffer holds.
-/

namespace ClauseMatch

namespace Pattern

/-- Induction on patterns, with the hypothesis for every member of an array, a tuple or an
object. -/
@[elab_as_elim, induction_eliminator]
theorem induction {motive : Pattern → Prop}
    (wildcard : motive .wildcard)
    (bound : ∀ expected, motive (.bound expected))
    (parameter : motive .parameter)
    (headTail : motive .headTail)
    (startsWith : ∀ beginning, motive (.startsWith beginning))
    (capture : ∀ inner, motive inner → motive (.capture inner))
    (literal : ∀ expected, motive (.literal expected))
    (regex : ∀ expression, motive (.regex expression))
    (typeTag : ∀ tag, motive (.typeTag tag))
    (array : ∀ patterns, (∀ p ∈ patterns, motive p) → motive (.array patterns))
    (object : ∀ tag patterns, (∀ field ∈ patterns, motive field.2) →
      motive (.object tag patterns))
    (symbol : ∀ name, motive (.symbol name))
    (tuple : ∀ patterns, (∀ p ∈ patterns, motive p) → motive (.tuple patterns))
    (p : Pattern) : motive p :=
  @Pattern.rec motive (fun patterns => ∀ p ∈ patterns, motive p)
    (fun patterns => ∀ field ∈ patterns, motive field.2) (fun field => motive field.2)
    wildcard bound parameter headTail startsWith capture literal regex typeTag array object symbol
    tuple (by simp) (fun _ _ hp hps => by simpa using ⟨hp, hps⟩) (by simp)
    (fun _ _ hp hps => List.forall_mem_cons.mpr ⟨hp, hps⟩) (fun _ _ hp => hp) p

/-! ## What is matched -/

section

variable (satisfies : Regex → String → Bool)

mutual

/-- The values that a pattern matches. -/
def Matches : Pattern → Value → Prop
  | .wildcard, _ => True
  | .bound expected, v => v.equals expected
  | .parameter, _ => True
  | .headTail, v => ∃ items, v = .list items ∧ 2 ≤ items.length
  | .startsWith beginning, v => ∃ rest, v = .str (beginning ++ rest) ∧ rest ≠ ""
  | .capture inner, v => Matches inner v
  | .literal expected, v => Value.literalEquals expected v
  | .regex expression, v => ∃ text, v = .str text ∧ satisfies expression text
  | .typeTag tag, v => v.typeTag = tag
  | .array patterns, v => ∃ items, v = .list items ∧ ItemsMatch patterns items
  | .object tag patterns, v => ∃ fields, v = .object tag fields ∧ FieldsMatch patterns fields
  | .symbol name, v => v = .atom name
  | .tuple patterns, v => ∃ items, v = .tuple items ∧ ItemsMatch patterns items

/-- Whether there are as many items as patterns and each item matches its pattern. -/
def ItemsMatch : List Pattern → List Value → Prop
  | [], [] => True
  | p :: ps, v :: vs => Matches p v ∧ ItemsMatch ps vs
  | _, _ => False

/-- Whether every listed key is there with a value that matches its pattern. -/
def FieldsMatch : List (Atom × Pattern) → List (Atom × Value) → Prop
  | [], _ => True
  | (key, p) :: ps, fields =>
    (∃ v, getField? fields key = some v ∧ Matches p v) ∧ FieldsMatch ps fields

end

end

variable {satisfies : Regex → String → Bool}

theorem itemsMatch_iff {patterns : List Pattern} {items : List Value} :
    ItemsMatch satisfies patterns items ↔
      items.length = patterns.length ∧ ∀ pair ∈ patterns.zip items,
        Matches satisfies pair.1 pair.2 := by
  induction patterns generalizing items with
  | nil => cases items <;> simp [ItemsMatch]
  | cons p ps ih =>
    cases items with
    | nil => simp [ItemsMatch]
    | cons v vs =>
      simp only [ItemsMatch, ih, List.length_cons, Nat.add_right_cancel_iff, List.zip_cons_cons,
        List.forall_mem_cons]
      exact and_left_comm

theorem fieldsMatch_iff {patterns : List (Atom × Pattern)} {fields : List (Atom × Value)} :
    FieldsMatch satisfies patterns fields ↔
      ∀ field ∈ patterns, ∃ v, getField? fields field.1 = some v ∧
        Matches satisfies field.2 v := by
  induction patterns with
  | nil => simp [FieldsMatch]
  | cons field ps ih => simp only [FieldsMatch, ih, List.forall_mem_cons]

theorem FieldsMatch.hasField {patterns : List (Atom × Pattern)} {fields : List (Atom × Value)}
    (h : FieldsMatch satisfies patterns fields) :
    ∀ field ∈ patterns, hasField fields field.1 := by
  intro field hfield
  obtain ⟨v, hv, -⟩ := fieldsMatch_iff.mp h field hfield
  simp [ClauseMatch.hasField, hv]

/-! ## What is bound -/

mutual

/-- What a pattern binds in a value that it matches. -/
def bindings : Pattern → Value → List Value
  | .wildcard, _ => []
  | .bound _, v => [v]
  | .parameter, v => [v]
  | .headTail, .list (head :: rest) => [head, .list rest]
  | .headTail, _ => []
  | .startsWith beginning, .str text =>
    [.str (String.ofList (text.toList.drop beginning.length))]
  | .startsWith _, _ => []
  | .capture inner, v => bindings inner v ++ [v]
  | .literal _, _ => []
  | .regex _, _ => []
  | .typeTag _, v => [v]
  | .array patterns, .list items => itemBindings patterns items
  | .array _, _ => []
  | .object _ patterns, .object _ fields => fieldBindings patterns fields
  | .object _ _, _ => []
  | .symbol _, _ => []
  | .tuple patterns, .tuple items => itemBindings patterns items
  | .tuple _, _ => []

/-- What patterns bind in items, in the order of the items. -/
def itemBindings : List Pattern → List Value → List Value
  | p :: ps, v :: vs => bindings p v ++ itemBindings ps vs
  | _, _ => []

/-- What patterns bind in fields, in the order of the patterns; a key listed again binds again. -/
def fieldBindings : List (Atom × Pattern) → List (Atom × Value) → List Value
  | [], _ => []
  | (key, p) :: ps, fields =>
    (match getField? fields key with
      | some v => bindings p v
      | none => []) ++ fieldBindings ps fields

end

/-! ## What is left of a failed match -/

section

variable (satisfies : Regex → String → Bool)

open Classical in
mutual

/-- What a pattern has bound when it gives up on a value that it does not match. -/
noncomputable def leftover : Pattern → Value → List Value
  | .capture inner, v => leftover inner v
  | .array patterns, .list items =>
    if items.length = patterns.length then itemLeftover patterns items else []
  | .object tag patterns, .object tag' fields =>
    if tag' = tag ∧ ∀ field ∈ patterns, hasField fields field.1 then
      fieldLeftover patterns fields
    else []
  | .tuple patterns, .tuple items =>
    if items.length = patterns.length then itemLeftover patterns items else []
  | _, _ => []

/-- The bindings of the patterns before the first that fails, and what that one leaves. -/
noncomputable def itemLeftover : List Pattern → List Value → List Value
  | p :: ps, v :: vs =>
    if Matches satisfies p v then bindings p v ++ itemLeftover ps vs else leftover p v
  | _, _ => []

/-- The bindings of the fields before the first that fails, and what that one leaves. -/
noncomputable def fieldLeftover : List (Atom × Pattern) → List (Atom × Value) → List Value
  | [], _ => []
  | (key, p) :: ps, fields =>
    match getField? fields key with
    | none => []
    | some v =>
      if Matches satisfies p v then bindings p v ++ fieldLeftover ps fields else leftover p v

end

end

/-- A failed match of items leaves what the patterns before the first failing one bind, and what
that one leaves. -/
theorem itemLeftover_of_first_failure {before after : List Pattern} {p : Pattern}
    {items rest : List Value} {v : Value} (hbefore : ItemsMatch satisfies before items)
    (hp : ¬ Matches satisfies p v) :
    itemLeftover satisfies (before ++ p :: after) (items ++ v :: rest) =
      itemBindings before items ++ leftover satisfies p v := by
  induction before generalizing items with
  | nil =>
    cases items with
    | nil => simp [itemLeftover, itemBindings, hp]
    | cons _ _ => exact absurd hbefore id
  | cons q before ih =>
    cases items with
    | nil => exact absurd hbefore id
    | cons w items =>
      obtain ⟨hq, hrest⟩ := hbefore
      simp [itemLeftover, itemBindings, hq, ih hrest]

/-- A failed match of fields leaves what the patterns before the first failing one bind, and what
that one leaves. -/
theorem fieldLeftover_of_first_failure {before after : List (Atom × Pattern)} {key : Atom}
    {p : Pattern} {fields : List (Atom × Value)} {v : Value}
    (hbefore : FieldsMatch satisfies before fields) (hkey : getField? fields key = some v)
    (hp : ¬ Matches satisfies p v) :
    fieldLeftover satisfies (before ++ (key, p) :: after) fields =
      fieldBindings before fields ++ leftover satisfies p v := by
  induction before with
  | nil => simp [fieldLeftover, fieldBindings, hkey, hp]
  | cons field before ih =>
    obtain ⟨⟨w, hw, hfield⟩, hrest⟩ := hbefore
    simp [fieldLeftover, fieldBindings, hw, hfield, ih hrest]

end Pattern

end ClauseMatch
