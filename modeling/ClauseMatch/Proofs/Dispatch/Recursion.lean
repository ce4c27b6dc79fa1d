import ClauseMatch.Proofs.Dispatch.SingleClause

/-!
# Recursion over a list

A call of a dispatcher can lead to another one, about something that the selected clause has bound.
The calls of such a recursion stand in a row: each is about what the one before it leads to, and the
last leads to none. A recursion that goes on for ever has no such row.

Two clauses are enough to go through a list: one for head and tail, from which the recursion goes on
with the tail, and one for a list of a single item. A tail is bound only if it is not empty.
Therefore the dispatcher is called once for every suffix of the list but the empty one, and the
recursion ends at the last item. The clauses look at the list and not into its items, which may be
lists as well.
-/

namespace ClauseMatch

variable {α : Type} {satisfies : Regex → String → Bool}

/-! ## Calls in a row -/

/-- A call of a dispatcher and how it went. -/
structure DispatchCall (α : Type) where
  arguments : List Value
  run : DispatchRun α

namespace DispatchCall

/-- The positions of the clauses that handled a call. -/
def selected (c : DispatchCall α) : List Nat := c.run.handled.map (·.clause)

/-- The first values that the clauses bound that handled a call. -/
def firstBound (c : DispatchCall α) : List (Option Value) :=
  c.run.handled.map (·.bindings[0]?)

end DispatchCall

/-- The arguments that a run leads to, by a rule for the selected clause and its bindings. Without a
selected clause it leads to none. -/
def DispatchRun.onward? (rule : Consultation → Option (List Value)) (r : DispatchRun α) :
    Option (List Value) :=
  r.handled.head?.bind rule

namespace Dispatcher

variable {d : Dispatcher α} {rule : Consultation → Option (List Value)} {args args' : List Value}
  {calls : List (DispatchCall α)}

/-- The call with the given arguments. -/
def call (satisfies : Regex → String → Bool) (d : Dispatcher α) (args : List Value) :
    DispatchCall α :=
  ⟨args, d.runWith satisfies args⟩

/-- The calls of a recursion from some arguments on, in order and up to the end. -/
inductive Recursion (satisfies : Regex → String → Bool) (d : Dispatcher α)
    (rule : Consultation → Option (List Value)) :
    List Value → List (DispatchCall α) → Prop where
  /-- A call that leads to no other one is the last. -/
  | last {args : List Value} (hlast : (d.runWith satisfies args).onward? rule = none) :
      Recursion satisfies d rule args [d.call satisfies args]
  /-- A call is followed by those from what it leads to. -/
  | next {args args' : List Value} {calls : List (DispatchCall α)}
      (hnext : (d.runWith satisfies args).onward? rule = some args')
      (hcalls : Recursion satisfies d rule args' calls) :
      Recursion satisfies d rule args (d.call satisfies args :: calls)

theorem recursion_iff_of_last (hlast : (d.runWith satisfies args).onward? rule = none) :
    d.Recursion satisfies rule args calls ↔ calls = [d.call satisfies args] := by
  constructor
  · intro h
    cases h with
    | last => rfl
    | next hnext _ =>
      rw [hlast] at hnext
      cases hnext
  · rintro rfl
    exact .last hlast

theorem recursion_iff_of_next (hnext : (d.runWith satisfies args).onward? rule = some args') :
    d.Recursion satisfies rule args calls ↔
      ∃ rest, d.Recursion satisfies rule args' rest ∧ calls = d.call satisfies args :: rest := by
  constructor
  · intro h
    cases h with
    | last hlast =>
      rw [hnext] at hlast
      cases hlast
    | next hother hcalls =>
      obtain rfl := Option.some.inj (hnext.symm.trans hother)
      exact ⟨_, hcalls, rfl⟩
  · rintro ⟨rest, hrest, rfl⟩
    exact .next hnext hrest

/-! ## Taking a list apart -/

variable {onHead onLast : Bindings → α} {v : Value}

/-- The clause for the head and the tail of a list. -/
def headClause (onHead : Bindings → α) : Clause α := .ofPatterns [.headTail] onHead

/-- The clause for the only item of a list. -/
def lastClause (onLast : Bindings → α) : Clause α := .ofPatterns [.array [.parameter]] onLast

/-- Takes a list apart: its head and its tail, or its only item. -/
def takingApart (onHead onLast : Bindings → α) : Dispatcher α :=
  ⟨[headClause onHead, lastClause onLast]⟩

/-- Goes on with the second value that the first clause has bound. -/
def withTail (c : Consultation) : Option (List Value) :=
  if c.clause = 0 then c.bindings[1]?.map fun v => [v] else none

theorem takingApart_unguarded :
    ∀ c ∈ [headClause onHead, lastClause onLast], c.guard = none :=
  List.forall_mem_cons.mpr ⟨rfl, List.forall_mem_singleton.mpr rfl⟩

theorem headClause_accepts_iff :
    (headClause onHead).Accepts satisfies [v] ↔ ∃ x y rest, v = .list (x :: y :: rest) := by
  rw [headClause, Clause.accepts_ofPatterns_iff]
  simp only [Pattern.Matches]
  constructor
  · rintro ⟨_ | ⟨x, _ | ⟨y, rest⟩⟩, rfl, hlength⟩
    · simp at hlength
    · simp at hlength
    · exact ⟨x, y, rest, rfl⟩
  · rintro ⟨x, y, rest, rfl⟩
    exact ⟨_, rfl, by simp⟩

theorem lastClause_accepts_iff :
    (lastClause onLast).Accepts satisfies [v] ↔ ∃ x, v = .list [x] := by
  rw [lastClause, Clause.accepts_ofPatterns_iff]
  simp only [Pattern.Matches, Pattern.itemsMatch_iff]
  constructor
  · rintro ⟨items, rfl, hlength, -⟩
    obtain ⟨x, rfl⟩ := List.length_eq_one_iff.mp hlength
    exact ⟨x, rfl⟩
  · rintro ⟨x, rfl⟩
    exact ⟨_, rfl, rfl, by simp [Pattern.Matches]⟩

theorem headClause_bindings (x : Value) (rest : List Value) :
    (headClause onHead).bindings [.list (x :: rest)] = #[x, .list rest] := by
  rw [headClause, Clause.bindings_singleton rfl]
  rfl

theorem lastClause_bindings (x : Value) : (lastClause onLast).bindings [.list [x]] = #[x] := by
  rw [lastClause, Clause.bindings_singleton rfl]
  rfl

/-- A list of several items goes to the first clause, which binds its head and its tail. -/
theorem runWith_takingApart_of_several (x y : Value) (rest : List Value) :
    (takingApart onHead onLast).runWith satisfies [.list (x :: y :: rest)] =
      ⟨[], [⟨0, #[x, .list (y :: rest)]⟩], .ok (onHead #[x, .list (y :: rest)])⟩ := by
  have haccepts : (headClause onHead).Accepts satisfies [.list (x :: y :: rest)] :=
    headClause_accepts_iff.mpr ⟨x, y, rest, rfl⟩
  have hunguarded : ∀ c ∈ [headClause onHead], c.guard = none := List.forall_mem_singleton.mpr rfl
  calc (takingApart onHead onLast).runWith satisfies [.list (x :: y :: rest)]
      = ⟨questions satisfies [.list (x :: y :: rest)] [headClause onHead] 0,
          [⟨0, (headClause onHead).bindings [.list (x :: y :: rest)]⟩],
          .ok (onHead ((headClause onHead).bindings [.list (x :: y :: rest)]))⟩ :=
        runWith_of_accepts (List.forall_mem_nil _) haccepts
    _ = _ := by rw [questions_of_unguarded 0 hunguarded, headClause_bindings]

/-- A list of one item goes to the second clause, which binds the item. -/
theorem runWith_takingApart_of_single (x : Value) :
    (takingApart onHead onLast).runWith satisfies [.list [x]] =
      ⟨[], [⟨1, #[x]⟩], .ok (onLast #[x])⟩ := by
  have hrejects : ¬ (headClause onHead).Accepts satisfies [.list [x]] := by
    rw [headClause_accepts_iff]
    rintro ⟨_, _, _, h⟩
    cases h
  have haccepts : (lastClause onLast).Accepts satisfies [.list [x]] :=
    lastClause_accepts_iff.mpr ⟨x, rfl⟩
  calc (takingApart onHead onLast).runWith satisfies [.list [x]]
      = ⟨questions satisfies [.list [x]] [headClause onHead, lastClause onLast] 0,
          [⟨1, (lastClause onLast).bindings [.list [x]]⟩],
          .ok (onLast ((lastClause onLast).bindings [.list [x]]))⟩ :=
        runWith_of_accepts (List.forall_mem_singleton.mpr hrejects) haccepts
    _ = _ := by rw [questions_of_unguarded 0 takingApart_unguarded, lastClause_bindings]

/-- A list that is not empty is handled, and its first item is bound first. -/
theorem exists_runWith_takingApart (onHead onLast : Bindings → α) (x : Value) (rest : List Value) :
    ∃ clause bindings result, (takingApart onHead onLast).runWith satisfies [.list (x :: rest)] =
      ⟨[], [⟨clause, bindings⟩], .ok result⟩ ∧ bindings[0]? = some x := by
  cases rest with
  | nil => exact ⟨_, _, _, runWith_takingApart_of_single x, rfl⟩
  | cons y rest => exact ⟨_, _, _, runWith_takingApart_of_several x y rest, rfl⟩

/-- Nothing else is taken apart, the empty list included. -/
theorem runWith_takingApart_of_other (hv : ∀ x rest, v ≠ .list (x :: rest)) :
    (takingApart onHead onLast).runWith satisfies [v] = ⟨[], [], .error (NoMatch.ofValue v)⟩ := by
  have hrejects : ∀ c ∈ [headClause onHead, lastClause onLast], ¬ c.Accepts satisfies [v] := by
    refine List.forall_mem_cons.mpr ⟨?_, List.forall_mem_singleton.mpr ?_⟩
    · rw [headClause_accepts_iff]
      rintro ⟨x, y, rest, rfl⟩
      exact hv x (y :: rest) rfl
    · rw [lastClause_accepts_iff]
      rintro ⟨x, rfl⟩
      exact hv x [] rfl
  rw [takingApart, runWith_of_not_accepts hrejects, questions_of_unguarded 0 takingApart_unguarded,
    NoMatch.ofArguments_singleton]

/-! ## From item to item -/

/-- The calls on the suffixes of a list but the empty one, from the longest to the shortest. -/
def visits (satisfies : Regex → String → Bool) (d : Dispatcher α) :
    List Value → List (DispatchCall α)
  | [] => []
  | x :: rest => d.call satisfies [.list (x :: rest)] :: visits satisfies d rest

/-- Taking a list apart goes from suffix to suffix. -/
theorem recursion_takingApart_iff (x : Value) (rest : List Value)
    {calls : List (DispatchCall α)} :
    (takingApart onHead onLast).Recursion satisfies withTail [.list (x :: rest)] calls ↔
      calls = (takingApart onHead onLast).visits satisfies (x :: rest) := by
  induction rest generalizing x calls with
  | nil =>
    have hlast :
        ((takingApart onHead onLast).runWith satisfies [.list [x]]).onward? withTail = none := by
      rw [runWith_takingApart_of_single]
      rfl
    rw [recursion_iff_of_last hlast]
    rfl
  | cons y rest ih =>
    have hnext : ((takingApart onHead onLast).runWith satisfies
        [.list (x :: y :: rest)]).onward? withTail = some [.list (y :: rest)] := by
      rw [runWith_takingApart_of_several]
      rfl
    rw [recursion_iff_of_next hnext]
    simp only [ih, exists_eq_left]
    rfl

/-- The first clause is selected for every item but the last, and the second for that one. -/
theorem map_selected_visits (x : Value) (rest : List Value) :
    ((takingApart onHead onLast).visits satisfies (x :: rest)).map DispatchCall.selected =
      List.replicate rest.length [0] ++ [[1]] := by
  induction rest generalizing x with
  | nil => simp [visits, call, DispatchCall.selected, runWith_takingApart_of_single]
  | cons y rest ih =>
    rw [visits, List.map_cons, ih, DispatchCall.selected, call, runWith_takingApart_of_several]
    rfl

/-- Every call binds the first item of its suffix. -/
theorem map_firstBound_visits (items : List Value) :
    ((takingApart onHead onLast).visits satisfies items).map DispatchCall.firstBound =
      items.map fun x => [some x] := by
  induction items with
  | nil => rfl
  | cons x rest ih =>
    obtain ⟨clause, bindings, result, hrun, hfirst⟩ :=
      exists_runWith_takingApart onHead onLast x rest
    rw [visits, List.map_cons, List.map_cons, ih, DispatchCall.firstBound, call, hrun,
      List.map_singleton, hfirst]

/-- Every call on the way is about a suffix that is not empty, and a clause handles it. -/
theorem forall_mem_visits (items : List Value) :
    ∀ c ∈ (takingApart onHead onLast).visits satisfies items,
      ∃ suffix, suffix <:+ items ∧ suffix ≠ [] ∧ c.arguments = [.list suffix] ∧
        ∃ result, c.run.result = .ok result := by
  induction items with
  | nil => exact List.forall_mem_nil _
  | cons x rest ih =>
    refine List.forall_mem_cons.mpr
      ⟨⟨x :: rest, List.suffix_rfl, List.cons_ne_nil x rest, rfl, ?_⟩, fun c hc => ?_⟩
    · obtain ⟨clause, bindings, result, hrun, -⟩ := exists_runWith_takingApart onHead onLast x rest
      exact ⟨result, congrArg DispatchRun.result hrun⟩
    · obtain ⟨suffix, hsuffix, hc⟩ := ih c hc
      exact ⟨suffix, hsuffix.trans (List.suffix_cons x rest), hc⟩

/-- The last call is about the last item alone. -/
theorem getLast?_visits (d : Dispatcher α) (items : List Value) :
    (d.visits satisfies items).getLast?.map (·.arguments) =
      items.getLast?.map fun x => [.list [x]] := by
  induction items with
  | nil => rfl
  | cons x rest ih =>
    cases rest with
    | nil => rfl
    | cons y rest =>
      rw [visits, visits, List.getLast?_cons_cons, ← visits, ih, List.getLast?_cons_cons]

/-- Recursion by head and tail visits every item of a list once. From a list that is not empty there
is one recursion and no other: the first clause is selected for every item but the last, then the
second clause once; the values that are bound first are the items in order; no call fails or is
about anything but a suffix of the list that is not empty; and the last one is about a single item.
From the empty list, and from a value that is no list, the first call fails and is the last. -/
theorem recursion_visits_every_item (satisfies : Regex → String → Bool)
    (onHead onLast : Bindings → α) :
    (∀ items : List Value, items ≠ [] → ∃ calls,
      (∀ calls', (takingApart onHead onLast).Recursion satisfies withTail [.list items] calls' ↔
        calls' = calls) ∧
      calls.map DispatchCall.selected = List.replicate (items.length - 1) [0] ++ [[1]] ∧
      calls.map DispatchCall.firstBound = items.map (fun x => [some x]) ∧
      (∀ c ∈ calls, ∃ suffix, suffix <:+ items ∧ suffix ≠ [] ∧ c.arguments = [.list suffix] ∧
        ∃ result, c.run.result = .ok result) ∧
      calls.getLast?.map (·.arguments) = items.getLast?.map fun x => [.list [x]]) ∧
    ∀ v : Value, (∀ items, v = .list items → items = []) →
      ∀ calls, (takingApart onHead onLast).Recursion satisfies withTail [v] calls ↔
        calls = [⟨[v], ⟨[], [], .error (NoMatch.ofValue v)⟩⟩] := by
  refine ⟨fun items hitems => ?_, fun v hv calls => ?_⟩
  · obtain ⟨x, rest, rfl⟩ := List.exists_cons_of_ne_nil hitems
    exact ⟨(takingApart onHead onLast).visits satisfies (x :: rest),
      fun calls => recursion_takingApart_iff x rest, map_selected_visits x rest,
      map_firstBound_visits _, forall_mem_visits _, getLast?_visits _ _⟩
  · have hrun : (takingApart onHead onLast).runWith satisfies [v] =
        ⟨[], [], .error (NoMatch.ofValue v)⟩ :=
      runWith_takingApart_of_other fun x rest h => List.cons_ne_nil x rest (hv _ h)
    have hlast : ((takingApart onHead onLast).runWith satisfies [v]).onward? withTail = none := by
      rw [hrun]
      rfl
    rw [recursion_iff_of_last hlast, call, hrun]

/-- A list of an empty list and a list of two numbers; the empty list by itself. -/
theorem recursion_visits_every_item_nested :
    (∃ calls, (takingApart Array.size Array.size).Recursion Regex.isMatch withTail
        [.list [.list [], .list [.int 1, .int 2]]] calls ∧
      calls.map DispatchCall.selected = [[0], [1]] ∧
      calls.map DispatchCall.firstBound = [[some (.list [])], [some (.list [.int 1, .int 2])]]) ∧
    (takingApart Array.size Array.size).Recursion Regex.isMatch withTail [.list []]
      [⟨[.list []], ⟨[], [], .error (NoMatch.ofValue (.list []))⟩⟩] := by
  obtain ⟨hvisits, hfails⟩ := recursion_visits_every_item Regex.isMatch Array.size Array.size
  obtain ⟨calls, hcalls, hselected, hbound, -⟩ :=
    hvisits [.list [], .list [.int 1, .int 2]] (List.cons_ne_nil _ _)
  have hempty : ∀ items, Value.list [] = .list items → items = [] := by
    rintro items ⟨⟩
    rfl
  exact ⟨⟨calls, (hcalls calls).mpr rfl, hselected, hbound⟩, (hfails _ hempty _).mpr rfl⟩

end Dispatcher

end ClauseMatch
