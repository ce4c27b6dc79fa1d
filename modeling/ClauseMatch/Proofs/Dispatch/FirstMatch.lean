import ClauseMatch.Dispatch.Clause
import ClauseMatch.Proofs.Pattern.Agreement

/-!
# First match

A clause accepts arguments if its patterns match them one by one and its guard, if it has one,
accepts what they bind. The first clause that accepts handles the call, and the guards asked are
those of the clauses up to it whose patterns match. Every clause binds in a buffer of its own, so
nothing of an earlier clause shows in what a later one sees. All of this holds whichever texts
satisfy an expression.
-/

namespace ClauseMatch

variable {α : Type} {satisfies : Regex → String → Bool} {args : List Value}

namespace Clause

/-- Whether there is one pattern for each argument and every argument matches its pattern. -/
def Matches (satisfies : Regex → String → Bool) (c : Clause α) (args : List Value) : Prop :=
  Pattern.ItemsMatch satisfies c.patterns args

/-- What the patterns of a clause bind in arguments that they match. -/
def bindings (c : Clause α) (args : List Value) : Bindings :=
  (Pattern.itemBindings c.patterns args).toArray

/-- Whether a clause takes a call: its patterns match, and no guard refuses what they bind. -/
def Accepts (satisfies : Regex → String → Bool) (c : Clause α) (args : List Value) : Prop :=
  c.Matches satisfies args ∧ ∀ guard, c.guard = some guard → guard (c.bindings args) = true

theorem bindWith?_of_matches {c : Clause α} (h : c.Matches satisfies args) :
    c.pattern.bindWith? satisfies (.list args) = some (c.bindings args) := by
  have hlist : Pattern.Matches satisfies c.pattern (.list args) := ⟨args, rfl, h⟩
  rw [Pattern.bindWith?_of_matches hlist]
  rfl

theorem bindWith?_of_not_matches {c : Clause α} (h : ¬ c.Matches satisfies args) :
    c.pattern.bindWith? satisfies (.list args) = none := by
  apply Pattern.bindWith?_of_not_matches
  rintro ⟨items, hitems, hmatch⟩
  obtain rfl := Value.list.inj hitems
  exact h hmatch

end Clause

open Classical in
/-- The questions to the guards of those clauses whose patterns match, in order; `position` counts
the clauses before them. -/
noncomputable def questions (satisfies : Regex → String → Bool) (args : List Value)
    (clauses : List (Clause α)) (position : Nat) : List Consultation :=
  ((clauses.zipIdx position).filter fun c => c.1.isGuarded ∧ c.1.Matches satisfies args).map
    fun c => ⟨c.2, c.1.bindings args⟩

/-- How first match runs a call. -/
inductive FirstMatch (satisfies : Regex → String → Bool) (args : List Value) :
    List (Clause α) → DispatchRun α → Prop where
  /-- The first clause that accepts is called on its own bindings, and no other one is. -/
  | handled {before after : List (Clause α)} {c : Clause α}
      (rejected : ∀ earlier ∈ before, ¬ earlier.Accepts satisfies args)
      (accepted : c.Accepts satisfies args) :
      FirstMatch satisfies args (before ++ c :: after)
        ⟨questions satisfies args (before ++ [c]) 0, [⟨before.length, c.bindings args⟩],
          .ok (c.handler (c.bindings args))⟩
  /-- If no clause accepts, no handler is called and the error shows the arguments. -/
  | unhandled {clauses : List (Clause α)} (rejected : ∀ c ∈ clauses, ¬ c.Accepts satisfies args) :
      FirstMatch satisfies args clauses
        ⟨questions satisfies args clauses 0, [], .error (NoMatch.ofArguments args)⟩

/-! ## Questions -/

theorem questions_append (before after : List (Clause α)) (position : Nat) :
    questions satisfies args (before ++ after) position =
      questions satisfies args before position ++
        questions satisfies args after (position + before.length) := by
  simp [questions, List.zipIdx_append]

theorem questions_of_guarded {c : Clause α} {guard : Bindings → Bool} (position : Nat)
    (hmatch : c.Matches satisfies args) (hguard : c.guard = some guard) :
    questions satisfies args [c] position = [⟨position, c.bindings args⟩] := by
  simp [questions, hmatch, Clause.isGuarded, hguard]

/-- Clauses without a guard are not asked. -/
theorem questions_of_unguarded {clauses : List (Clause α)} (position : Nat)
    (hguard : ∀ c ∈ clauses, c.guard = none) : questions satisfies args clauses position = [] := by
  induction clauses generalizing position with
  | nil => rfl
  | cons c rest ih =>
    have hrest : questions satisfies args rest (position + 1) = [] :=
      ih (position + 1) fun d hd => hguard d (List.mem_cons_of_mem c hd)
    rw [← List.singleton_append, questions_append, List.length_singleton, hrest]
    simp [questions, Clause.isGuarded, hguard c List.mem_cons_self]

theorem questions_of_not_matches {c : Clause α} (position : Nat) (h : ¬ c.Matches satisfies args) :
    questions satisfies args [c] position = [] := by
  simp [questions, h]

/-! ## Trying clauses -/

namespace Dispatcher

theorem tryClauses_of_accepts {c : Clause α} (h : c.Accepts satisfies args)
    (rest : List (Clause α)) (position : Nat) (consulted : List Consultation) :
    tryClauses satisfies args (c :: rest) position consulted =
      ⟨consulted.reverse ++ questions satisfies args [c] position, [⟨position, c.bindings args⟩],
        .ok (c.handler (c.bindings args))⟩ := by
  obtain ⟨hmatch, haccept⟩ := h
  cases hguard : c.guard with
  | none =>
    rw [questions_of_unguarded position (List.forall_mem_singleton.mpr hguard)]
    simp [tryClauses, Clause.bindWith?_of_matches hmatch, hguard, Clause.handle]
  | some guard =>
    rw [questions_of_guarded position hmatch hguard]
    simp [tryClauses, Clause.bindWith?_of_matches hmatch, hguard, haccept guard hguard,
      Clause.handle]

theorem tryClauses_of_not_accepts {c : Clause α} (h : ¬ c.Accepts satisfies args)
    (rest : List (Clause α)) (position : Nat) (consulted : List Consultation) :
    tryClauses satisfies args (c :: rest) position consulted =
      tryClauses satisfies args rest (position + 1)
        ((questions satisfies args [c] position).reverse ++ consulted) := by
  -- Either the patterns fail and no guard is asked, or the guard is asked and refuses.
  by_cases hmatch : c.Matches satisfies args
  · cases hguard : c.guard with
    | none => exact absurd ⟨hmatch, by simp [hguard]⟩ h
    | some guard =>
      have hrefuse : guard (c.bindings args) = false := by
        rw [← Bool.not_eq_true]
        intro haccept
        refine h ⟨hmatch, fun other hother => ?_⟩
        obtain rfl : guard = other := Option.some.inj (hguard ▸ hother)
        exact haccept
      rw [questions_of_guarded position hmatch hguard]
      simp [tryClauses, Clause.bindWith?_of_matches hmatch, hguard, hrefuse]
  · rw [questions_of_not_matches position hmatch]
    simp [tryClauses, Clause.bindWith?_of_not_matches hmatch]

/-- Clauses that do not accept are passed over: only the questions to their guards stay. -/
theorem tryClauses_append_of_not_accepts {before : List (Clause α)}
    (h : ∀ c ∈ before, ¬ c.Accepts satisfies args) (rest : List (Clause α)) (position : Nat)
    (consulted : List Consultation) :
    tryClauses satisfies args (before ++ rest) position consulted =
      tryClauses satisfies args rest (position + before.length)
        ((questions satisfies args before position).reverse ++ consulted) := by
  induction before generalizing position consulted with
  | nil => simp [questions]
  | cons c before ih =>
    have hrest : ∀ earlier ∈ before, ¬ earlier.Accepts satisfies args := fun earlier hearlier =>
      h earlier (List.mem_cons_of_mem c hearlier)
    have hquestions : questions satisfies args (c :: before) position =
        questions satisfies args [c] position ++ questions satisfies args before (position + 1) :=
      questions_append [c] before position
    rw [List.cons_append, tryClauses_of_not_accepts (h c List.mem_cons_self), ih hrest,
      hquestions, List.length_cons, List.reverse_append, List.append_assoc, Nat.add_right_comm,
      Nat.add_assoc]

/-- The result of a call does not depend on what is recorded. -/
theorem tryClauses_result (clauses : List (Clause α)) (position position' : Nat)
    (consulted consulted' : List Consultation) :
    (tryClauses satisfies args clauses position consulted).result =
      (tryClauses satisfies args clauses position' consulted').result := by
  induction clauses generalizing position position' consulted consulted' with
  | nil => rfl
  | cons c rest ih =>
    by_cases h : c.Accepts satisfies args
    · simp only [tryClauses_of_accepts h]
    · simp only [tryClauses_of_not_accepts h]
      exact ih _ _ _ _

/-! ## Calls -/

theorem exists_first_accepting {clauses : List (Clause α)}
    (h : ∃ c ∈ clauses, c.Accepts satisfies args) :
    ∃ before c after, clauses = before ++ c :: after ∧
      (∀ earlier ∈ before, ¬ earlier.Accepts satisfies args) ∧ c.Accepts satisfies args := by
  induction clauses with
  | nil => simp at h
  | cons c rest ih =>
    by_cases hc : c.Accepts satisfies args
    · exact ⟨[], c, rest, rfl, by simp, hc⟩
    · obtain ⟨before, d, after, rfl, hbefore, hd⟩ := ih (by simpa [hc] using h)
      exact ⟨c :: before, d, after, rfl, by simpa [hc] using hbefore, hd⟩

/-- The first clause that accepts handles the call. -/
theorem runWith_of_accepts {before after : List (Clause α)} {c : Clause α}
    (hbefore : ∀ earlier ∈ before, ¬ earlier.Accepts satisfies args)
    (hc : c.Accepts satisfies args) :
    (Dispatcher.mk (before ++ c :: after)).runWith satisfies args =
      ⟨questions satisfies args (before ++ [c]) 0, [⟨before.length, c.bindings args⟩],
        .ok (c.handler (c.bindings args))⟩ := by
  rw [runWith, tryClauses_append_of_not_accepts hbefore, tryClauses_of_accepts hc, questions_append]
  simp

theorem runWith_of_not_accepts {clauses : List (Clause α)}
    (h : ∀ c ∈ clauses, ¬ c.Accepts satisfies args) :
    (Dispatcher.mk clauses).runWith satisfies args =
      ⟨questions satisfies args clauses 0, [], .error (NoMatch.ofArguments args)⟩ := by
  have hall := tryClauses_append_of_not_accepts h [] 0 []
  rw [List.append_nil] at hall
  rw [runWith, hall]
  simp [tryClauses]

theorem runWith_firstMatch (satisfies : Regex → String → Bool) (d : Dispatcher α)
    (args : List Value) :
    FirstMatch satisfies args d.clauses (d.runWith satisfies args) := by
  obtain ⟨clauses⟩ := d
  by_cases h : ∃ c ∈ clauses, c.Accepts satisfies args
  · obtain ⟨before, c, after, rfl, hbefore, hc⟩ := exists_first_accepting h
    rw [runWith_of_accepts hbefore hc]
    exact .handled hbefore hc
  · have hnone : ∀ c ∈ clauses, ¬ c.Accepts satisfies args := fun c hmem hc => h ⟨c, hmem, hc⟩
    rw [runWith_of_not_accepts hnone]
    exact .unhandled hnone

theorem dispatchWith_append_of_accepts {clauses : List (Clause α)}
    (h : ∃ c ∈ clauses, c.Accepts satisfies args) (more : List (Clause α)) :
    (Dispatcher.mk (clauses ++ more)).dispatchWith satisfies args =
      (Dispatcher.mk clauses).dispatchWith satisfies args := by
  obtain ⟨before, c, after, rfl, hbefore, hc⟩ := exists_first_accepting h
  simp only [dispatchWith, runWith, List.append_assoc, List.cons_append,
    tryClauses_append_of_not_accepts hbefore, tryClauses_of_accepts hc]

theorem dispatchWith_append_of_not_accepts {clauses : List (Clause α)}
    (h : ∀ c ∈ clauses, ¬ c.Accepts satisfies args) (more : List (Clause α)) :
    (Dispatcher.mk (clauses ++ more)).dispatchWith satisfies args =
      (Dispatcher.mk more).dispatchWith satisfies args := by
  simp only [dispatchWith, runWith, tryClauses_append_of_not_accepts h]
  exact tryClauses_result more _ _ _ _

theorem dispatchWith_eq_error_iff {d : Dispatcher α} :
    (∃ e, d.dispatchWith satisfies args = .error e) ↔
      ∀ c ∈ d.clauses, ¬ c.Accepts satisfies args := by
  have hrun := runWith_firstMatch satisfies d args
  simp only [dispatchWith]
  generalize d.clauses = clauses, d.runWith satisfies args = run at hrun
  cases hrun with
  | @handled before after c rejected accepted =>
    constructor
    · rintro ⟨e, he⟩
      cases he
    · intro hnone
      exact absurd accepted (hnone c (by simp))
  | unhandled rejected => simpa using rejected

open Classical in
/-- Whichever texts satisfy an expression, every call runs as first match prescribes. It fails only
if no clause accepts the arguments, and the clauses of a longer dispatcher are tried only after
those before them. -/
theorem run_is_first_match (satisfies : Regex → String → Bool) (args : List Value) :
    (∀ d : Dispatcher α, FirstMatch satisfies args d.clauses (d.runWith satisfies args)) ∧
      (∀ d : Dispatcher α,
        (∃ e, d.dispatchWith satisfies args = .error e) ↔
          ∀ c ∈ d.clauses, ¬ c.Accepts satisfies args) ∧
      ∀ clauses more : List (Clause α),
        (Dispatcher.mk (clauses ++ more)).dispatchWith satisfies args =
          if ∃ c ∈ clauses, c.Accepts satisfies args then
            (Dispatcher.mk clauses).dispatchWith satisfies args
          else (Dispatcher.mk more).dispatchWith satisfies args := by
  refine ⟨fun d => runWith_firstMatch satisfies d args, fun d => dispatchWith_eq_error_iff, ?_⟩
  intro clauses more
  by_cases h : ∃ c ∈ clauses, c.Accepts satisfies args
  · rw [if_pos h, dispatchWith_append_of_accepts h]
  · rw [if_neg h]
    exact dispatchWith_append_of_not_accepts (fun c hmem hc => h ⟨c, hmem, hc⟩) more

end Dispatcher

end ClauseMatch
