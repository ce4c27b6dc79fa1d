import ClauseMatch.Proofs.Dispatch.FirstMatch
import ClauseMatch.Proofs.Pattern.Arity

/-!
# What guards and handlers see

A guard or a handler is called on what the patterns of its clause bind in arguments that they match,
and so on as many values as these patterns bind together, whatever the arguments.
-/

namespace ClauseMatch

variable {α : Type} {satisfies : Regex → String → Bool} {args : List Value}

/-- A call that was made of a guard or a handler of one of the clauses, on the bindings of a match
of its patterns. -/
structure Consultation.CallOf (satisfies : Regex → String → Bool) (clauses : List (Clause α))
    (args : List Value) (c : Clause α) (call : Consultation) : Prop where
  clause : clauses[call.clause]? = some c
  patternsMatch : c.Matches satisfies args
  bindings : call.bindings = c.bindings args

/-- Guards are asked about the bindings of a match. -/
theorem exists_callOf_of_mem_questions {clauses : List (Clause α)} {call : Consultation}
    (h : call ∈ questions satisfies args clauses 0) :
    ∃ c, call.CallOf satisfies clauses args c := by
  rw [questions] at h
  obtain ⟨⟨c, position⟩, hmem, rfl⟩ := List.mem_map.mp h
  obtain ⟨hclause, hcond⟩ := List.mem_filter.mp hmem
  simp only [decide_eq_true_eq] at hcond
  have hget : clauses[position]? = some c := by
    simpa using List.mem_zipIdx_iff_getElem?.mp hclause
  exact ⟨c, hget, hcond.2, rfl⟩

theorem Consultation.CallOf.append {clauses : List (Clause α)} {c : Clause α}
    {call : Consultation} (h : call.CallOf satisfies clauses args c) (more : List (Clause α)) :
    call.CallOf satisfies (clauses ++ more) args c := by
  obtain ⟨hclause, hmatch, hbindings⟩ := h
  obtain ⟨hlt, -⟩ := List.getElem?_eq_some_iff.mp hclause
  exact ⟨by rw [List.getElem?_append_left hlt, hclause], hmatch, hbindings⟩

namespace Dispatcher

/-- Every call of a run is that of a clause on the bindings of a match. -/
theorem exists_callOf_of_mem_run {d : Dispatcher α} {call : Consultation}
    (h : call ∈ (d.runWith satisfies args).consulted ++ (d.runWith satisfies args).handled) :
    ∃ c, call.CallOf satisfies d.clauses args c := by
  have hrun := runWith_firstMatch satisfies d args
  generalize d.clauses = clauses, d.runWith satisfies args = run at hrun h
  cases hrun with
  | @handled before after c rejected accepted =>
    rcases List.mem_append.mp h with hquestion | hhandled
    · obtain ⟨c', hc'⟩ := exists_callOf_of_mem_questions hquestion
      have hcall := hc'.append after
      rw [List.append_assoc, List.singleton_append] at hcall
      exact ⟨c', hcall⟩
    · obtain rfl := List.mem_singleton.mp hhandled
      exact ⟨c, by simp, accepted.1, rfl⟩
  | unhandled rejected =>
    rw [List.append_nil] at h
    exact exists_callOf_of_mem_questions h

theorem size_bindings {c : Clause α} (h : c.Matches satisfies args) :
    (c.bindings args).size = (c.patterns.map Pattern.arity).sum := by
  rw [Clause.bindings, List.size_toArray, ← Pattern.itemArity_eq_sum]
  exact Pattern.length_itemBindings (fun p _ v => Pattern.length_bindings) h

/-- Whichever texts satisfy an expression, a run of a pattern appends to the buffer and does nothing
else with it: its verdict and what it appends depend on the pattern and the value alone. A match
appends as many values as the pattern says, and a failed match no more. Hence guards and handlers
see as many values as the patterns of their clauses say. -/
theorem bindings_have_fixed_arity :
    (∀ (satisfies : Regex → String → Bool) (p : Pattern) (v : Value),
      ∃ (verdict : Bool) (added : List Value),
        (∀ out, p.runWith satisfies v out = ⟨verdict, out ++ added⟩) ∧
          if verdict then added.length = p.arity else added.length ≤ p.arity) ∧
    ∀ (satisfies : Regex → String → Bool) (α : Type) (d : Dispatcher α) (args : List Value)
      (call : Consultation),
      call ∈ (d.runWith satisfies args).consulted ++ (d.runWith satisfies args).handled →
      ∃ c, d.clauses[call.clause]? = some c ∧
        call.bindings.size = (c.patterns.map Pattern.arity).sum := by
  refine ⟨Pattern.exists_run_eq_append, ?_⟩
  intro satisfies α d args call hcall
  obtain ⟨c, hclause, hmatch, hbindings⟩ := exists_callOf_of_mem_run hcall
  refine ⟨c, hclause, ?_⟩
  rw [hbindings, size_bindings hmatch]

/-- A guard that refuses an object in which one key is listed twice sees three values, and so does
the handler of a clause that takes a list apart and keeps it. -/
theorem bindings_have_fixed_arity_repeated_key :
    (Dispatcher.mk [Clause.mk [.capture (.map [(⟨"x"⟩, .parameter), (⟨"x"⟩, .parameter)])]
        (some fun _ => false) fun _ => ()]).runWith Regex.isMatch [.map [(⟨"x"⟩, .int 1)]] =
      ⟨[⟨0, #[.int 1, .int 1, .map [(⟨"x"⟩, .int 1)]]⟩], [],
        .error (NoMatch.ofArguments [.map [(⟨"x"⟩, .int 1)]])⟩ ∧
    (∃ c, [Clause.mk [.capture (.map [(⟨"x"⟩, .parameter), (⟨"x"⟩, .parameter)])]
        (some fun _ => false) fun _ => ()][0]? = some c ∧
      #[Value.int 1, .int 1, .map [(⟨"x"⟩, .int 1)]].size =
        (c.patterns.map Pattern.arity).sum) ∧
    (Dispatcher.mk [Clause.mk [.capture .headTail] none fun _ => ()]).runWith Regex.isMatch
        [.list [.nil, .nil]] =
      ⟨[], [⟨0, #[.nil, .list [.nil], .list [.nil, .nil]]⟩], .ok ()⟩ ∧
    ∃ c, [Clause.mk [.capture .headTail] none fun _ => ()][0]? = some c ∧
      #[Value.nil, .list [.nil], .list [.nil, .nil]].size =
        (c.patterns.map Pattern.arity).sum := by
  have hguard : (Dispatcher.mk [Clause.mk
      [.capture (.map [(⟨"x"⟩, .parameter), (⟨"x"⟩, .parameter)])]
        (some fun _ => false) fun _ => ()]).runWith Regex.isMatch [.map [(⟨"x"⟩, .int 1)]] =
      ⟨[⟨0, #[.int 1, .int 1, .map [(⟨"x"⟩, .int 1)]]⟩], [],
        .error (NoMatch.ofArguments [.map [(⟨"x"⟩, .int 1)]])⟩ := rfl
  have hhandler : (Dispatcher.mk [Clause.mk [.capture .headTail] none fun _ => ()]).runWith
      Regex.isMatch [.list [.nil, .nil]] =
      ⟨[], [⟨0, #[.nil, .list [.nil], .list [.nil, .nil]]⟩], .ok ()⟩ := rfl
  refine ⟨hguard, ?_, hhandler, ?_⟩
  · exact bindings_have_fixed_arity.2 Regex.isMatch Unit _ _ ⟨0, _⟩
      (by rw [hguard]; exact List.mem_cons_self)
  · exact bindings_have_fixed_arity.2 Regex.isMatch Unit _ _ ⟨0, _⟩
      (by rw [hhandler]; exact List.mem_cons_self)

end Dispatcher

end ClauseMatch
