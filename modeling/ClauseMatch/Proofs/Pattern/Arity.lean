import ClauseMatch.Proofs.Pattern.Agreement
import Mathlib.Algebra.GroupWithZero.Nat

/-!
# The number of bindings

How many values a pattern binds can be read off the pattern. A match binds exactly that many,
whatever the value, and a failed match leaves no more than that; neither depends on what is already
in the buffer.
-/

namespace ClauseMatch

namespace Pattern

mutual

/-- The number of values that a pattern binds. -/
def arity : Pattern → Nat
  | .wildcard => 0
  | .bound _ => 1
  | .parameter => 1
  | .headTail => 2
  | .startsWith _ => 1
  | .capture inner => arity inner + 1
  | .literal _ => 0
  | .regex _ => 0
  | .typeTag _ => 1
  | .array patterns => itemArity patterns
  | .object _ patterns => fieldArity patterns
  | .symbol _ => 0
  | .tuple patterns => itemArity patterns

/-- The number of values that patterns bind together. -/
def itemArity : List Pattern → Nat
  | [] => 0
  | p :: ps => arity p + itemArity ps

/-- The number of values that the patterns of fields bind together, a repeated key counting each
time. -/
def fieldArity : List (Atom × Pattern) → Nat
  | [] => 0
  | (_, p) :: ps => arity p + fieldArity ps

end

theorem itemArity_eq_sum (patterns : List Pattern) :
    itemArity patterns = (patterns.map arity).sum := by
  induction patterns with
  | nil => rfl
  | cons p ps ih => rw [itemArity, ih, List.map_cons, List.sum_cons]

variable {satisfies : Regex → String → Bool}

/-! ## Matches -/

theorem length_itemBindings {patterns : List Pattern} {items : List Value}
    (ih : ∀ p ∈ patterns, ∀ v, Matches satisfies p v → (bindings p v).length = p.arity)
    (h : ItemsMatch satisfies patterns items) :
    (itemBindings patterns items).length = itemArity patterns := by
  induction patterns generalizing items with
  | nil => rfl
  | cons p ps ih' =>
    cases items with
    | nil => exact absurd h id
    | cons v vs =>
      obtain ⟨hv, hvs⟩ := h
      have hhead : (bindings p v).length = p.arity := ih p List.mem_cons_self v hv
      have htail : (itemBindings ps vs).length = itemArity ps :=
        ih' (fun q hq => ih q (List.mem_cons_of_mem p hq)) hvs
      rw [itemBindings, List.length_append, hhead, htail, itemArity]

theorem length_fieldBindings {patterns : List (Atom × Pattern)} {fields : List (Atom × Value)}
    (ih : ∀ field ∈ patterns, ∀ v, Matches satisfies field.2 v →
      (bindings field.2 v).length = field.2.arity)
    (h : FieldsMatch satisfies patterns fields) :
    (fieldBindings patterns fields).length = fieldArity patterns := by
  induction patterns with
  | nil => rfl
  | cons field ps ih' =>
    obtain ⟨key, p⟩ := field
    obtain ⟨⟨v, hkey, hv⟩, hfields⟩ := h
    have hhead : (bindings p v).length = p.arity := ih (key, p) List.mem_cons_self v hv
    have htail : (fieldBindings ps fields).length = fieldArity ps :=
      ih' (fun q hq => ih q (List.mem_cons_of_mem _ hq)) hfields
    simp only [fieldBindings, hkey, List.length_append, hhead, htail, fieldArity]

/-- A match binds as many values as the pattern says. -/
theorem length_bindings {p : Pattern} {v : Value} (h : Matches satisfies p v) :
    (bindings p v).length = p.arity := by
  induction p generalizing v with
  | headTail =>
    obtain ⟨items, rfl, hlength⟩ := h
    match items, hlength with
    | head :: next :: rest, _ => rfl
  | startsWith beginning =>
    obtain ⟨rest, rfl, -⟩ := h
    rfl
  | capture inner ih =>
    have hinner : (bindings inner v).length = inner.arity := ih h
    rw [bindings, List.length_append, hinner, arity]
    rfl
  | array patterns ih =>
    obtain ⟨items, rfl, hitems⟩ := h
    rw [bindings, arity]
    exact length_itemBindings (fun p hp v => ih p hp) hitems
  | object tag patterns ih =>
    obtain ⟨fields, rfl, hfields⟩ := h
    rw [bindings, arity]
    exact length_fieldBindings (fun field hfield v => ih field hfield) hfields
  | tuple patterns ih =>
    obtain ⟨items, rfl, hitems⟩ := h
    rw [bindings, arity]
    exact length_itemBindings (fun p hp v => ih p hp) hitems
  | wildcard | bound | parameter | literal | regex | typeTag | symbol => rfl

/-! ## Failed matches -/

theorem length_itemLeftover_le {patterns : List Pattern}
    (ih : ∀ p ∈ patterns, ∀ v, (leftover satisfies p v).length ≤ p.arity) (items : List Value) :
    (itemLeftover satisfies patterns items).length ≤ itemArity patterns := by
  induction patterns generalizing items with
  | nil => simp [itemLeftover]
  | cons p ps ih' =>
    cases items with
    | nil => simp [itemLeftover]
    | cons v vs =>
      rw [itemLeftover, itemArity]
      by_cases hv : Matches satisfies p v
      · have htail : (itemLeftover satisfies ps vs).length ≤ itemArity ps :=
          ih' (fun q hq => ih q (List.mem_cons_of_mem p hq)) vs
        rw [if_pos hv, List.length_append, length_bindings hv]
        omega
      · have hhead : (leftover satisfies p v).length ≤ p.arity := ih p List.mem_cons_self v
        rw [if_neg hv]
        omega

theorem length_fieldLeftover_le {patterns : List (Atom × Pattern)}
    (ih : ∀ field ∈ patterns, ∀ v, (leftover satisfies field.2 v).length ≤ field.2.arity)
    (fields : List (Atom × Value)) :
    (fieldLeftover satisfies patterns fields).length ≤ fieldArity patterns := by
  induction patterns with
  | nil => simp [fieldLeftover]
  | cons field ps ih' =>
    obtain ⟨key, p⟩ := field
    rw [fieldLeftover, fieldArity]
    cases getField? fields key with
    | none => simp
    | some v =>
      by_cases hv : Matches satisfies p v
      · have htail : (fieldLeftover satisfies ps fields).length ≤ fieldArity ps :=
          ih' fun q hq => ih q (List.mem_cons_of_mem _ hq)
        simp only [if_pos hv, List.length_append, length_bindings hv]
        omega
      · have hhead : (leftover satisfies p v).length ≤ p.arity :=
          ih (key, p) List.mem_cons_self v
        simp only [if_neg hv]
        omega

theorem length_sequenceLeftover_le {patterns : List Pattern}
    (ih : ∀ p ∈ patterns, ∀ v, (leftover satisfies p v).length ≤ p.arity) (items : List Value) :
    (if items.length = patterns.length then itemLeftover satisfies patterns items
      else []).length ≤ itemArity patterns := by
  by_cases hlength : items.length = patterns.length
  · rw [if_pos hlength]
    exact length_itemLeftover_le ih items
  · simp [hlength]

/-- A failed match leaves no more values than a match binds. -/
theorem length_leftover_le (satisfies : Regex → String → Bool) (p : Pattern) (v : Value) :
    (leftover satisfies p v).length ≤ p.arity := by
  induction p generalizing v with
  | capture inner ih =>
    have hinner : (leftover satisfies inner v).length ≤ inner.arity := ih v
    rw [leftover, arity]
    omega
  | array patterns ih =>
    cases v with
    | list items =>
      rw [leftover, arity]
      exact length_sequenceLeftover_le ih items
    | _ => simp [leftover]
  | object tag patterns ih =>
    cases v with
    | object tag' fields =>
      rw [leftover, arity]
      split
      · exact length_fieldLeftover_le ih fields
      · simp
    | _ => simp [leftover]
  | tuple patterns ih =>
    cases v with
    | tuple items =>
      rw [leftover, arity]
      exact length_sequenceLeftover_le ih items
    | _ => simp [leftover]
  | _ => simp [leftover]

/-! ## Runs -/

/-- A run appends values to the buffer that depend, as its verdict does, on the pattern and the
value alone; there are as many as the pattern says if it matches and no more if it does not. -/
theorem exists_run_eq_append (satisfies : Regex → String → Bool) (p : Pattern) (v : Value) :
    ∃ (verdict : Bool) (added : List Value),
      (∀ out, p.runWith satisfies v out = ⟨verdict, out ++ added⟩) ∧
        if verdict then added.length = p.arity else added.length ≤ p.arity := by
  by_cases hv : Matches satisfies p v
  · exact ⟨true, bindings p v, fun out => (agrees p v out).1 hv, length_bindings hv⟩
  · exact ⟨false, leftover satisfies p v, fun out => (agrees p v out).2 hv,
      length_leftover_le satisfies p v⟩

end Pattern

end ClauseMatch
