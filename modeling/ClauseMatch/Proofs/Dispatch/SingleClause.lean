import ClauseMatch.Proofs.Dispatch.FirstMatch

/-!
# One pattern and one value

A pattern is tried on a value by itself, under a guard, on several values in turn, or as the only
clause of a dispatcher that is called with the value alone. The dispatcher matches a list of one
item against a list of one pattern; this matches when the item does, binds the same, and fails with
the same error, so that all these ways agree for every pattern and every value, lists included.
-/

namespace ClauseMatch

variable {α : Type} {satisfies : Regex → String → Bool} {p : Pattern} {v : Value}

/-! ## The only clause -/

namespace Clause

variable {c : Clause α}

theorem matches_singleton_iff (hc : c.patterns = [p]) :
    c.Matches satisfies [v] ↔ Pattern.Matches satisfies p v := by
  rw [Clause.Matches, hc]
  simp only [Pattern.ItemsMatch, and_true]

theorem bindings_singleton (hc : c.patterns = [p]) :
    c.bindings [v] = (Pattern.bindings p v).toArray := by
  rw [Clause.bindings, hc]
  simp only [Pattern.itemBindings, List.append_nil]

/-- Without a guard the pattern alone decides. -/
theorem accepts_ofPatterns_iff {handler : Bindings → α} :
    (ofPatterns [p] handler).Accepts satisfies [v] ↔ Pattern.Matches satisfies p v := by
  rw [Accepts, matches_singleton_iff rfl]
  refine and_iff_left fun guard hguard => ?_
  cases hguard

end Clause

/-- The error for one argument is that for the value by itself. -/
theorem NoMatch.ofArguments_singleton (v : Value) : ofArguments [v] = ofValue v := rfl

namespace Dispatcher

variable {c : Clause α}

theorem runWith_singleton_of_accepts (hc : c.Accepts satisfies [v]) :
    (Dispatcher.mk [c]).runWith satisfies [v] =
      ⟨questions satisfies [v] [c] 0, [⟨0, c.bindings [v]⟩], .ok (c.handler (c.bindings [v]))⟩ := by
  have hbefore : ∀ d ∈ ([] : List (Clause α)), ¬ d.Accepts satisfies [v] := List.forall_mem_nil _
  exact runWith_of_accepts hbefore hc

theorem runWith_singleton_of_not_accepts (hc : ¬ c.Accepts satisfies [v]) :
    (Dispatcher.mk [c]).runWith satisfies [v] =
      ⟨questions satisfies [v] [c] 0, [], .error (NoMatch.ofValue v)⟩ := by
  rw [runWith_of_not_accepts (List.forall_mem_singleton.mpr hc), NoMatch.ofArguments_singleton]

end Dispatcher

namespace Pattern

/-- The dispatcher whose only clause matches one argument, without a guard. -/
def soleDispatcher (p : Pattern) (handler : Bindings → α) : Dispatcher α :=
  ⟨[Clause.ofPatterns [p] handler]⟩

/-! ## A single match -/

theorem bindWith?_eq_some_iff {bs : Bindings} :
    p.bindWith? satisfies v = some bs ↔ Matches satisfies p v ∧ bs = (bindings p v).toArray := by
  by_cases h : Matches satisfies p v
  · simp [bindWith?_of_matches h, h, eq_comm]
  · simp [bindWith?_of_not_matches h, h]

theorem bindWith_eq_ok_iff {bs : Bindings} :
    p.bindWith satisfies v = .ok bs ↔ p.bindWith? satisfies v = some bs := by
  rw [bindWith]
  cases p.bindWith? satisfies v <;> simp

theorem bindWith_eq_error_iff {e : NoMatch} :
    p.bindWith satisfies v = .error e ↔ p.bindWith? satisfies v = none ∧ e = NoMatch.ofValue v := by
  rw [bindWith]
  cases p.bindWith? satisfies v <;> simp [eq_comm]

/-! ## A dispatcher around it -/

theorem runWith_soleDispatcher_of_matches (h : Matches satisfies p v) (handler : Bindings → α) :
    (p.soleDispatcher handler).runWith satisfies [v] =
      ⟨[], [⟨0, (bindings p v).toArray⟩], .ok (handler (bindings p v).toArray)⟩ := by
  rw [soleDispatcher, Dispatcher.runWith_singleton_of_accepts (Clause.accepts_ofPatterns_iff.mpr h),
    Clause.bindings_singleton rfl, questions_of_unguarded 0 (List.forall_mem_singleton.mpr rfl)]
  rfl

theorem runWith_soleDispatcher_of_not_matches (h : ¬ Matches satisfies p v)
    (handler : Bindings → α) :
    (p.soleDispatcher handler).runWith satisfies [v] = ⟨[], [], .error (NoMatch.ofValue v)⟩ := by
  rw [soleDispatcher,
    Dispatcher.runWith_singleton_of_not_accepts (mt Clause.accepts_ofPatterns_iff.mp h),
    questions_of_unguarded 0 (List.forall_mem_singleton.mpr rfl)]

/-! ## A guard -/

section

variable (guard : Bindings → Bool)

/-- The clause that matches one argument under a guard. -/
def guardedClause (p : Pattern) : Clause Unit :=
  (Clause.ofPatterns [p] fun _ => ()).withGuard guard

theorem guardedClause_accepts_iff :
    (guardedClause guard p).Accepts satisfies [v] ↔
      Matches satisfies p v ∧ guard (bindings p v).toArray = true := by
  have hpatterns : (guardedClause guard p).patterns = [p] := rfl
  have hguard : (guardedClause guard p).guard = some guard := rfl
  rw [Clause.Accepts, Clause.matches_singleton_iff hpatterns, Clause.bindings_singleton hpatterns,
    hguard]
  refine and_congr_right fun _ => ⟨fun h => h guard rfl, fun h other hother => ?_⟩
  rwa [← Option.some.inj hother]

/-- The guard is asked about the bindings if the pattern matches, whatever it answers. -/
theorem consulted_guardedDispatcher :
    ((guardedDispatcher p guard).runWith satisfies [v]).consulted =
      questions satisfies [v] [guardedClause guard p] 0 := by
  by_cases h : (guardedClause guard p).Accepts satisfies [v]
  · exact congrArg DispatchRun.consulted (Dispatcher.runWith_singleton_of_accepts h)
  · exact congrArg DispatchRun.consulted (Dispatcher.runWith_singleton_of_not_accepts h)

theorem isMatchGuardedWith_iff :
    p.isMatchGuardedWith satisfies v guard = true ↔
      Matches satisfies p v ∧ guard (bindings p v).toArray = true := by
  rw [← guardedClause_accepts_iff, isMatchGuardedWith]
  have hdispatch : (guardedDispatcher p guard).dispatchWith satisfies [v] =
      ((Dispatcher.mk [guardedClause guard p]).runWith satisfies [v]).result := rfl
  rw [hdispatch]
  by_cases h : (guardedClause guard p).Accepts satisfies [v]
  · simp [Dispatcher.runWith_singleton_of_accepts h, h, Except.isOk, Except.toBool]
  · simp [Dispatcher.runWith_singleton_of_not_accepts h, h, Except.isOk, Except.toBool]

end

/-! ## All of them -/

/-- Whichever texts satisfy an expression, all ways of trying a pattern agree. Binding succeeds when
the matcher does, on the same bindings, which are those of the pattern's meaning; a guard is asked
once, about these bindings, and only if the pattern matches; several values contain a match if one
of them is one; and the dispatcher around the pattern calls its handler on these bindings, or else
fails with the error that binding gives. -/
theorem entry_points_agree (satisfies : Regex → String → Bool) (p : Pattern) (v : Value)
    (values : List Value) (guard : Bindings → Bool) (handler : Bindings → α) :
    (∀ bs, (p.bindWith satisfies v = .ok bs ↔ p.runWith satisfies v #[] = ⟨true, bs⟩) ∧
      (p.bindWith satisfies v = .ok bs ↔ Matches satisfies p v ∧ bs = (bindings p v).toArray)) ∧
    (p.isMatchWith satisfies v = true ↔ ∃ bs, p.bindWith satisfies v = .ok bs) ∧
    (p.isMatchGuardedWith satisfies v guard = true ↔
      ∃ bs, p.bindWith satisfies v = .ok bs ∧ guard bs = true) ∧
    (∀ bs, p.bindWith satisfies v = .ok bs →
      ((guardedDispatcher p guard).runWith satisfies [v]).consulted = [⟨0, bs⟩] ∧
      (p.soleDispatcher handler).runWith satisfies [v] = ⟨[], [⟨0, bs⟩], .ok (handler bs)⟩) ∧
    (∀ e, p.bindWith satisfies v = .error e →
      ((guardedDispatcher p guard).runWith satisfies [v]).consulted = [] ∧
      (p.soleDispatcher handler).runWith satisfies [v] = ⟨[], [], .error e⟩) ∧
    (p.matchesAnyWith satisfies values = true ↔
      ∃ x ∈ values, p.isMatchWith satisfies x = true) := by
  have hok : ∀ bs, p.bindWith satisfies v = .ok bs ↔
      Matches satisfies p v ∧ bs = (bindings p v).toArray := fun bs =>
    bindWith_eq_ok_iff.trans bindWith?_eq_some_iff
  refine ⟨fun bs => ⟨(hok bs).trans ?_, hok bs⟩, ?_, ?_, fun bs hbs => ?_, fun e he => ?_,
    List.any_eq_true⟩
  · have hempty : (#[] : Bindings) ++ bindings p v = (bindings p v).toArray := by simp
    rw [runWith_eq_true_iff, hempty]
  · rw [isMatchWith_iff]
    simp only [hok, exists_and_left, exists_eq, and_true]
  · rw [isMatchGuardedWith_iff]
    simp only [hok, and_assoc, exists_and_left, exists_eq_left]
  · obtain ⟨hmatches, rfl⟩ := (hok bs).mp hbs
    have hpatterns : (guardedClause guard p).patterns = [p] := rfl
    refine ⟨?_, runWith_soleDispatcher_of_matches hmatches handler⟩
    rw [consulted_guardedDispatcher, questions_of_guarded 0
      ((Clause.matches_singleton_iff hpatterns).mpr hmatches) rfl,
      Clause.bindings_singleton hpatterns]
  · obtain ⟨hnone, rfl⟩ := bindWith_eq_error_iff.mp he
    have hfails : ¬ Matches satisfies p v := fun hmatches => by
      rw [bindWith?_of_matches hmatches] at hnone
      cases hnone
    refine ⟨?_, runWith_soleDispatcher_of_not_matches hfails handler⟩
    rw [consulted_guardedDispatcher, questions_of_not_matches]
    exact fun hmatches => hfails ((Clause.matches_singleton_iff rfl).mp hmatches)

/-- The pattern of a list of two items, on such a list and on a number. -/
theorem entry_points_agree_on_lists :
    (Pattern.array [.parameter, .wildcard]).bindWith Regex.isMatch (.list [.int 1, .list []]) =
      .ok #[.int 1] ∧
    ((guardedDispatcher (.array [.parameter, .wildcard]) fun _ => false).runWith Regex.isMatch
      [.list [.int 1, .list []]]).consulted = [⟨0, #[.int 1]⟩] ∧
    (soleDispatcher (.array [.parameter, .wildcard]) Array.size).runWith Regex.isMatch
      [.list [.int 1, .list []]] = ⟨[], [⟨0, #[.int 1]⟩], .ok 1⟩ ∧
    (soleDispatcher (.array [.parameter, .wildcard]) Array.size).runWith Regex.isMatch [.int 1] =
      ⟨[], [], .error (NoMatch.ofValue (.int 1))⟩ := by
  obtain ⟨-, -, -, hok, -, -⟩ := entry_points_agree Regex.isMatch
    (.array [.parameter, .wildcard]) (.list [.int 1, .list []]) [] (fun _ => false) Array.size
  obtain ⟨-, -, -, -, herror, -⟩ := entry_points_agree Regex.isMatch
    (.array [.parameter, .wildcard]) (.int 1) [] (fun _ => false) Array.size
  have hmatch : (Pattern.array [.parameter, .wildcard]).bindWith Regex.isMatch
      (.list [.int 1, .list []]) = .ok #[.int 1] := rfl
  obtain ⟨hconsulted, hhandled⟩ := hok _ hmatch
  exact ⟨hmatch, hconsulted, hhandled, (herror _ rfl).2⟩

end Pattern

end ClauseMatch
