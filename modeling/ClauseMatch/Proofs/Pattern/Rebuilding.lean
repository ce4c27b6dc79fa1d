import ClauseMatch.Proofs.Pattern.Agreement
import ClauseMatch.Proofs.Value.Equality

/-!
# Rebuilding a value from its bindings

A pattern that passes over no part of a value without fixing it by itself or binding it can be run
backwards: read from left to right, the bindings of a match rebuild the value. Rebuilding takes
exactly the bindings of the match, whatever follows them, and this is what carries the induction
through arrays and tuples, whose members share one list of bindings.
-/

namespace ClauseMatch

open Value

namespace Value

/-- Whether a value is an integer or a float. -/
def isNumber : Value → Bool
  | int _ => true
  | float _ => true
  | _ => false

/-- Only numbers are compared in a way of their own by literals. -/
theorem literalEquals_of_not_number {expected : Value} (h : expected.isNumber = false)
    (v : Value) : literalEquals expected v = expected.equals v := by
  cases expected with
  | int | float => simp [isNumber] at h
  | _ => rfl

end Value

namespace Pattern

/-- The patterns that fix or bind every part of a value that they match. A number does not qualify
as a literal, since it may stand for one of the other type. -/
inductive Reversible : Pattern → Prop where
  | parameter : Reversible .parameter
  | bound (expected : Value) : Reversible (.bound expected)
  | headTail : Reversible .headTail
  | startsWith (beginning : String) : Reversible (.startsWith beginning)
  | typeTag (tag : TypeTag) : Reversible (.typeTag tag)
  | symbol (name : Atom) : Reversible (.symbol name)
  | literal {expected : Value} : expected.isNumber = false → Reversible (.literal expected)
  | capture {inner : Pattern} : Reversible inner → Reversible (.capture inner)
  | array {patterns : List Pattern} : (∀ p ∈ patterns, Reversible p) →
      Reversible (.array patterns)
  | tuple {patterns : List Pattern} : (∀ p ∈ patterns, Reversible p) →
      Reversible (.tuple patterns)

/-- What has been rebuilt, for every capture the value rebuilt there and the binding taken for it,
and the bindings that have not been taken. -/
structure Rebuilt (α : Type) where
  result : α
  captures : List (Value × Value)
  rest : List Value

mutual

/-- Rebuilds a value from bindings, which are taken from the left. -/
def rebuild? : Pattern → List Value → Option (Rebuilt Value)
  | .parameter, v :: rest => some ⟨v, [], rest⟩
  | .bound _, v :: rest => some ⟨v, [], rest⟩
  | .typeTag _, v :: rest => some ⟨v, [], rest⟩
  | .headTail, head :: .list tail :: rest => some ⟨.list (head :: tail), [], rest⟩
  | .startsWith beginning, .str text :: rest => some ⟨.str (beginning ++ text), [], rest⟩
  | .symbol name, rest => some ⟨.atom name, [], rest⟩
  | .literal expected, rest => some ⟨expected, [], rest⟩
  | .array patterns, bs =>
    (rebuildItems? patterns bs).map fun r => ⟨.list r.result, r.captures, r.rest⟩
  | .tuple patterns, bs =>
    (rebuildItems? patterns bs).map fun r => ⟨.tuple r.result, r.captures, r.rest⟩
  | .capture inner, bs =>
    match rebuild? inner bs with
    | some ⟨v, captures, whole :: rest⟩ => some ⟨v, captures ++ [(v, whole)], rest⟩
    | _ => none
  | _, _ => none

/-- Rebuilds items in order. -/
def rebuildItems? : List Pattern → List Value → Option (Rebuilt (List Value))
  | [], rest => some ⟨[], [], rest⟩
  | p :: ps, bs =>
    match rebuild? p bs with
    | some ⟨v, captures, rest⟩ =>
      (rebuildItems? ps rest).map fun r => ⟨v :: r.result, captures ++ r.captures, r.rest⟩
    | none => none

end

/-- Whatever follows them, the bindings at the front are taken and give what `same` asks for; every
value rebuilt under a capture is equal to the binding taken for it. -/
def Restores {α : Type} (rebuild : List Value → Option (Rebuilt α)) (bs : List Value)
    (same : α → Prop) : Prop :=
  ∃ result captures,
    (∀ rest, rebuild (bs ++ rest) = some ⟨result, captures, rest⟩) ∧
    same result ∧ ∀ taken ∈ captures, DeepEqual taken.1 taken.2

variable {satisfies : Regex → String → Bool}

theorem restores_single {p : Pattern} {v : Value} {bs : List Value}
    (h : ∀ rest, rebuild? p (bs ++ rest) = some ⟨v, [], rest⟩) (hv : Built v) :
    Restores (rebuild? p) bs (DeepEqual · v) :=
  ⟨v, [], h, equals_refl hv, List.forall_mem_nil _⟩

theorem Restores.capture {inner : Pattern} {v : Value}
    (h : Restores (rebuild? inner) (bindings inner v) (DeepEqual · v)) :
    Restores (rebuild? (.capture inner)) (bindings (.capture inner) v) (DeepEqual · v) := by
  obtain ⟨result, captures, hrebuild, hresult, hcaptures⟩ := h
  refine ⟨result, captures ++ [(result, v)], ?_, hresult, ?_⟩
  · intro rest
    have hinner : rebuild? inner (bindings (.capture inner) v ++ rest) =
        some ⟨result, captures, v :: rest⟩ := by
      rw [bindings, List.append_assoc, List.singleton_append]
      exact hrebuild (v :: rest)
    rw [rebuild?, hinner]
  · intro taken htaken
    rcases List.mem_append.mp htaken with hbefore | hlast
    · exact hcaptures taken hbefore
    · obtain rfl := List.mem_singleton.mp hlast
      exact hresult

theorem restores_items {patterns : List Pattern} {items : List Value}
    (ih : ∀ p ∈ patterns, ∀ v, Built v → Matches satisfies p v →
      Restores (rebuild? p) (bindings p v) (DeepEqual · v))
    (hitems : ∀ v ∈ items, Built v) (h : ItemsMatch satisfies patterns items) :
    Restores (rebuildItems? patterns) (itemBindings patterns items)
      (List.Forall₂ DeepEqual · items) := by
  induction patterns generalizing items with
  | nil =>
    cases items with
    | nil => exact ⟨[], [], fun _ => rfl, .nil, List.forall_mem_nil _⟩
    | cons => exact absurd h id
  | cons p ps ih' =>
    cases items with
    | nil => exact absurd h id
    | cons v vs =>
      obtain ⟨hv, hvs⟩ := h
      obtain ⟨result, captures, hrebuild, hresult, hcaptures⟩ :=
        ih p List.mem_cons_self v (hitems v List.mem_cons_self) hv
      obtain ⟨results, captures', hrebuild', hresults, hcaptures'⟩ :=
        ih' (fun q hq => ih q (List.mem_cons_of_mem p hq))
          (fun w hw => hitems w (List.mem_cons_of_mem v hw)) hvs
      refine ⟨result :: results, captures ++ captures', ?_, .cons hresult hresults, ?_⟩
      · intro rest
        -- The first pattern leaves the bindings of the others, which these take.
        have hhead : rebuild? p (itemBindings (p :: ps) (v :: vs) ++ rest) =
            some ⟨result, captures, itemBindings ps vs ++ rest⟩ := by
          rw [itemBindings, List.append_assoc]
          exact hrebuild (itemBindings ps vs ++ rest)
        rw [rebuildItems?, hhead]
        simp only [hrebuild' rest, Option.map_some]
      · intro taken htaken
        rcases List.mem_append.mp htaken with hfirst | hothers
        · exact hcaptures taken hfirst
        · exact hcaptures' taken hothers

/-- The bindings of a match rebuild a value that is equal to the one matched. -/
theorem Reversible.restores {p : Pattern} (hp : Reversible p) {v : Value} (hv : Built v)
    (h : Matches satisfies p v) : Restores (rebuild? p) (bindings p v) (DeepEqual · v) := by
  induction hp generalizing v with
  | parameter => exact restores_single (fun _ => rfl) hv
  | bound expected => exact restores_single (fun _ => rfl) hv
  | typeTag tag => exact restores_single (fun _ => rfl) hv
  | headTail =>
    obtain ⟨items, rfl, hlength⟩ := h
    match items, hlength with
    | head :: next :: rest, _ => exact restores_single (fun _ => rfl) hv
  | startsWith beginning =>
    obtain ⟨rest, rfl, -⟩ := h
    have hdrop : (beginning ++ rest).toList.drop beginning.length = rest.toList := by
      rw [String.toList_append, ← String.length_toList, List.drop_left]
    refine restores_single (fun more => ?_) hv
    simp only [bindings, hdrop, String.ofList_toList]
    rfl
  | symbol name =>
    obtain rfl := h
    exact restores_single (fun _ => rfl) hv
  | @literal expected hnumber =>
    have hequal : DeepEqual expected v := by
      rw [DeepEqual, ← literalEquals_of_not_number hnumber]
      exact h
    exact ⟨expected, [], fun _ => rfl, hequal, List.forall_mem_nil _⟩
  | capture _ ih => exact (ih hv h).capture
  | @array patterns _ ih =>
    obtain ⟨items, rfl, hitems⟩ := h
    obtain ⟨results, captures, hrebuild, hresults, hcaptures⟩ :=
      restores_items (fun p hp v hv hmatch => ih p hp hv hmatch) hv.of_list hitems
    refine ⟨.list results, captures, ?_, (EqualParts.list hresults).deepEqual, hcaptures⟩
    intro rest
    rw [rebuild?, bindings, hrebuild, Option.map_some]
  | @tuple patterns _ ih =>
    obtain ⟨items, rfl, hitems⟩ := h
    obtain ⟨results, captures, hrebuild, hresults, hcaptures⟩ :=
      restores_items (fun p hp v hv hmatch => ih p hp hv hmatch) hv.of_tuple hitems
    refine ⟨.tuple results, captures, ?_, (EqualParts.tuple hresults).deepEqual, hcaptures⟩
    intro rest
    rw [rebuild?, bindings, hrebuild, Option.map_some]

/-- The bindings of a match, read from left to right, rebuild a value equal to the one matched. All
of them are taken and nothing after them is; and what is taken for a capture is equal to the value
that has just been rebuilt under it. -/
theorem rebuilding_undoes_matching (satisfies : Regex → String → Bool) {p : Pattern} {v : Value}
    {bs : Bindings} (hp : Reversible p) (hv : Built v)
    (h : p.runWith satisfies v #[] = ⟨true, bs⟩) :
    ∃ result captures,
      (∀ rest, rebuild? p (bs.toList ++ rest) = some ⟨result, captures, rest⟩) ∧
      DeepEqual result v ∧ ∀ taken ∈ captures, DeepEqual taken.1 taken.2 := by
  obtain ⟨hmatch, rfl⟩ := runWith_eq_true_iff.mp h
  have hbindings : ((#[] : Bindings) ++ bindings p v).toList = bindings p v := by simp
  rw [hbindings]
  exact hp.restores hv hmatch

/-- A captured list that is taken apart and a text captured twice stand in a tuple beside a literal
that binds nothing; in the literal NaN stands for NaN. -/
theorem rebuilding_undoes_matching_nested :
    Reversible (.tuple [.capture .headTail, .capture (.capture (.startsWith "a")),
      .literal (.list [.float ⟨0x7ff8000000000000⟩])]) ∧
    Built (.tuple [.list [.int 1, .int 2, .nil], .str "abc",
      .list [.float ⟨0x7ff8000000000001⟩]]) ∧
    (Pattern.tuple [.capture .headTail, .capture (.capture (.startsWith "a")),
      .literal (.list [.float ⟨0x7ff8000000000000⟩])]).runWith Regex.isMatch
        (.tuple [.list [.int 1, .int 2, .nil], .str "abc",
          .list [.float ⟨0x7ff8000000000001⟩]]) #[] =
      ⟨true, #[.int 1, .list [.int 2, .nil], .list [.int 1, .int 2, .nil],
        .str "bc", .str "abc", .str "abc"]⟩ ∧
    ∃ result captures,
      (∀ rest, rebuild? (.tuple [.capture .headTail, .capture (.capture (.startsWith "a")),
          .literal (.list [.float ⟨0x7ff8000000000000⟩])])
          (#[.int 1, .list [.int 2, .nil], .list [.int 1, .int 2, .nil],
            .str "bc", .str "abc", .str "abc"].toList ++ rest) = some ⟨result, captures, rest⟩) ∧
      DeepEqual result (.tuple [.list [.int 1, .int 2, .nil], .str "abc",
        .list [.float ⟨0x7ff8000000000001⟩]]) ∧
      ∀ taken ∈ captures, DeepEqual taken.1 taken.2 := by
  have hp : Reversible (.tuple [.capture .headTail, .capture (.capture (.startsWith "a")),
      .literal (.list [.float ⟨0x7ff8000000000000⟩])]) := by
    refine .tuple ?_
    simp only [List.forall_mem_cons]
    exact ⟨.capture .headTail, .capture (.capture (.startsWith "a")), .literal rfl, by simp⟩
  have hv : Built (.tuple [.list [.int 1, .int 2, .nil], .str "abc",
      .list [.float ⟨0x7ff8000000000001⟩]]) := by
    refine .tuple ?_
    simp only [List.forall_mem_cons]
    refine ⟨.list ?_, .str "abc", .list ?_, by simp⟩
    · simp only [List.forall_mem_cons]
      exact ⟨.int 1, .int 2, .nil, by simp⟩
    · exact List.forall_mem_singleton.mpr (.float _)
  have hrun : (Pattern.tuple [.capture .headTail, .capture (.capture (.startsWith "a")),
      .literal (.list [.float ⟨0x7ff8000000000000⟩])]).runWith Regex.isMatch
        (.tuple [.list [.int 1, .int 2, .nil], .str "abc",
          .list [.float ⟨0x7ff8000000000001⟩]]) #[] =
      ⟨true, #[.int 1, .list [.int 2, .nil], .list [.int 1, .int 2, .nil],
        .str "bc", .str "abc", .str "abc"]⟩ := by
    rfl
  exact ⟨hp, hv, hrun, rebuilding_undoes_matching Regex.isMatch hp hv hrun⟩

end Pattern

end ClauseMatch
