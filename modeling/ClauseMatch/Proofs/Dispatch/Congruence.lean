import ClauseMatch.Proofs.Dispatch.FirstMatch
import ClauseMatch.Proofs.Pattern.Congruence

/-!
# Dispatch respects deep equality

On pairwise equal arguments the patterns of a clause match alike and bind pairwise equal values. If
its guard does not tell such bindings apart either, the clause accepts both lists of arguments or
neither, and so the first clause that accepts is the same for both.
-/

namespace ClauseMatch

open Value

variable {α : Type} {satisfies : Regex → String → Bool} {args args' : List Value}

/-- The two buffers hold as many values, and these are pairwise equal. -/
def Bindings.Alike (bs bs' : Bindings) : Prop := List.Forall₂ DeepEqual bs.toList bs'.toList

/-- A guard that gives the same answer on pairwise equal bindings. -/
def GuardRespectsEquality (guard : Bindings → Bool) : Prop :=
  ∀ bs bs' : Bindings, (∀ v ∈ bs, Built v) → (∀ v ∈ bs', Built v) → bs.Alike bs' →
    guard bs = guard bs'

/-- The same guard or handler was called, on pairwise equal bindings. -/
structure Consultation.Alike (call call' : Consultation) : Prop where
  clause : call.clause = call'.clause
  bindings : call.bindings.Alike call'.bindings

/-- Two runs that ask the same guards, in the same order, and in which the same clause handles the
call or none does. -/
inductive SameSelection (clauses : List (Clause α)) : DispatchRun α → DispatchRun α → Prop where
  | handled {consulted consulted' : List Consultation} {position : Nat} {c : Clause α}
      {bs bs' : Bindings} (questions : List.Forall₂ Consultation.Alike consulted consulted')
      (clause : clauses[position]? = some c) (bindings : bs.Alike bs') :
      SameSelection clauses ⟨consulted, [⟨position, bs⟩], .ok (c.handler bs)⟩
        ⟨consulted', [⟨position, bs'⟩], .ok (c.handler bs')⟩
  | unhandled {consulted consulted' : List Consultation} {e e' : NoMatch}
      (questions : List.Forall₂ Consultation.Alike consulted consulted') :
      SameSelection clauses ⟨consulted, [], .error e⟩ ⟨consulted', [], .error e'⟩

/-! ## Clauses -/

namespace Clause

variable {c : Clause α}

theorem matches_congr (satisfies : Regex → String → Bool) (c : Clause α)
    (hargs : ∀ v ∈ args, Built v) (h : List.Forall₂ DeepEqual args args') :
    c.Matches satisfies args ↔ c.Matches satisfies args' :=
  (Pattern.matchesAlike_items (fun p _ => Pattern.respectsEquality _ p) hargs h).matched_iff

theorem bindings_alike (hargs : ∀ v ∈ args, Built v) (h : List.Forall₂ DeepEqual args args')
    (hmatch : c.Matches satisfies args) : (c.bindings args).Alike (c.bindings args') :=
  (Pattern.matchesAlike_items (fun p _ => Pattern.respectsEquality _ p) hargs h).bindings hmatch

theorem built_of_mem_bindings (c : Clause α) (hargs : ∀ v ∈ args, Built v) :
    ∀ v ∈ c.bindings args, Built v := by
  intro v hv
  have hmem : v ∈ Pattern.itemBindings c.patterns args := by simpa [bindings] using hv
  exact Pattern.built_of_mem_itemBindings
    (fun p _ w hw x hx => Pattern.built_of_mem_bindings hw hx) hargs hmem

theorem accepts_congr (hargs : ∀ v ∈ args, Built v) (hargs' : ∀ v ∈ args', Built v)
    (h : List.Forall₂ DeepEqual args args')
    (hguard : ∀ guard, c.guard = some guard → GuardRespectsEquality guard) :
    c.Accepts satisfies args ↔ c.Accepts satisfies args' := by
  have hmatches := c.matches_congr satisfies hargs h
  -- Once the patterns match, every guard is asked about pairwise equal bindings.
  have hanswer : c.Matches satisfies args → ∀ guard, c.guard = some guard →
      guard (c.bindings args) = guard (c.bindings args') := by
    intro hmatch guard hsome
    exact hguard guard hsome _ _ (c.built_of_mem_bindings hargs)
      (c.built_of_mem_bindings hargs') (bindings_alike hargs h hmatch)
  constructor
  · rintro ⟨hmatch, haccept⟩
    refine ⟨hmatches.mp hmatch, fun guard hsome => ?_⟩
    rw [← hanswer hmatch guard hsome]
    exact haccept guard hsome
  · rintro ⟨hmatch', haccept⟩
    have hmatch : c.Matches satisfies args := hmatches.mpr hmatch'
    refine ⟨hmatch, fun guard hsome => ?_⟩
    rw [hanswer hmatch guard hsome]
    exact haccept guard hsome

end Clause

/-! ## Questions -/

theorem questions_alike (clauses : List (Clause α)) (hargs : ∀ v ∈ args, Built v)
    (h : List.Forall₂ DeepEqual args args') (position : Nat) :
    List.Forall₂ Consultation.Alike (questions satisfies args clauses position)
      (questions satisfies args' clauses position) := by
  induction clauses generalizing position with
  | nil => exact .nil
  | cons c rest ih =>
    rw [← List.singleton_append, questions_append, questions_append]
    refine List.rel_append ?_ (ih _)
    cases hguard : c.guard with
    | none =>
      have hunguarded : ∀ d ∈ [c], d.guard = none := List.forall_mem_singleton.mpr hguard
      rw [questions_of_unguarded position hunguarded, questions_of_unguarded position hunguarded]
      exact .nil
    | some guard =>
      by_cases hmatch : c.Matches satisfies args
      · have hmatch' : c.Matches satisfies args' := (c.matches_congr satisfies hargs h).mp hmatch
        rw [questions_of_guarded position hmatch hguard,
          questions_of_guarded position hmatch' hguard]
        exact .cons ⟨rfl, Clause.bindings_alike hargs h hmatch⟩ .nil
      · have hmatch' : ¬ c.Matches satisfies args' := fun hm =>
          hmatch ((c.matches_congr satisfies hargs h).mpr hm)
        rw [questions_of_not_matches position hmatch, questions_of_not_matches position hmatch']
        exact .nil

/-! ## Calls -/

namespace Dispatcher

theorem runWith_sameSelection {d : Dispatcher α} (hargs : ∀ v ∈ args, Built v)
    (hargs' : ∀ v ∈ args', Built v) (h : List.Forall₂ DeepEqual args args')
    (hguards : ∀ c ∈ d.clauses, ∀ guard, c.guard = some guard → GuardRespectsEquality guard) :
    SameSelection d.clauses (d.runWith satisfies args) (d.runWith satisfies args') := by
  obtain ⟨clauses⟩ := d
  have haccepts : ∀ c ∈ clauses, (c.Accepts satisfies args ↔ c.Accepts satisfies args') :=
    fun c hc => Clause.accepts_congr hargs hargs' h (hguards c hc)
  by_cases hsome : ∃ c ∈ clauses, c.Accepts satisfies args
  · obtain ⟨before, c, after, rfl, hbefore, hc⟩ := exists_first_accepting hsome
    have hbefore' : ∀ earlier ∈ before, ¬ earlier.Accepts satisfies args' := by
      intro earlier hearlier haccept
      exact hbefore earlier hearlier
        ((haccepts earlier (List.mem_append_left _ hearlier)).mpr haccept)
    have hc' : c.Accepts satisfies args' := (haccepts c (by simp)).mp hc
    rw [runWith_of_accepts hbefore hc, runWith_of_accepts hbefore' hc']
    exact .handled (questions_alike _ hargs h 0) (by simp) (Clause.bindings_alike hargs h hc.1)
  · have hnone : ∀ c ∈ clauses, ¬ c.Accepts satisfies args := fun c hmem hc => hsome ⟨c, hmem, hc⟩
    have hnone' : ∀ c ∈ clauses, ¬ c.Accepts satisfies args' := fun c hmem hc =>
      hnone c hmem ((haccepts c hmem).mpr hc)
    rw [runWith_of_not_accepts hnone, runWith_of_not_accepts hnone']
    exact .unhandled (questions_alike _ hargs h 0)

/-- Whichever texts satisfy an expression, no pattern tells equal values apart: on both it succeeds
or on both it fails, and in either case it appends pairwise equal values to the buffer. Hence on
pairwise equal arguments the same clause is selected, if the guards do not tell pairwise equal
bindings apart. -/
theorem selection_respects_deep_equality :
    (∀ (satisfies : Regex → String → Bool) (p : Pattern) (v w : Value),
      Built v → Built w → DeepEqual v w →
      ∃ (verdict : Bool) (added added' : List Value),
        (∀ out, p.runWith satisfies v out = ⟨verdict, out ++ added⟩) ∧
        (∀ out, p.runWith satisfies w out = ⟨verdict, out ++ added'⟩) ∧
        List.Forall₂ DeepEqual added added') ∧
    ∀ (satisfies : Regex → String → Bool) (α : Type) (d : Dispatcher α) (args args' : List Value),
      (∀ v ∈ args, Built v) → (∀ v ∈ args', Built v) → List.Forall₂ DeepEqual args args' →
      (∀ c ∈ d.clauses, ∀ guard, c.guard = some guard → GuardRespectsEquality guard) →
      SameSelection d.clauses (d.runWith satisfies args) (d.runWith satisfies args') := by
  refine ⟨?_, ?_⟩
  · intro satisfies p v w hv _ hvw
    exact Pattern.exists_runs_alike satisfies p hv hvw
  · intro satisfies α d args args' hargs hargs' h hguards
    exact runWith_sameSelection hargs hargs' h hguards

/-- Fields in two orders, the two zeros, and NaN: an integer literal sees a zero in both objects,
and a guard that counts the bindings takes both calls. -/
theorem selection_respects_deep_equality_zeros :
    (∃ (verdict : Bool) (added added' : List Value),
      (∀ out, (Pattern.map [(⟨"x"⟩, .literal (.int 0)), (⟨"y"⟩, .parameter)]).runWith
        Regex.isMatch (.map [(⟨"x"⟩, .float ⟨0⟩), (⟨"y"⟩, .float ⟨0x7ff8000000000000⟩)]) out =
          ⟨verdict, out ++ added⟩) ∧
      (∀ out, (Pattern.map [(⟨"x"⟩, .literal (.int 0)), (⟨"y"⟩, .parameter)]).runWith
        Regex.isMatch (.map [(⟨"y"⟩, .float ⟨0x7ff8000000000001⟩),
          (⟨"x"⟩, .float ⟨0x8000000000000000⟩)]) out = ⟨verdict, out ++ added'⟩) ∧
      List.Forall₂ DeepEqual added added') ∧
    SameSelection
      [Clause.mk [.map [(⟨"x"⟩, .literal (.int 0)), (⟨"y"⟩, .parameter)]]
        (some fun bs => bs.size == 1) fun bs => bs.size]
      ((Dispatcher.mk [Clause.mk [.map [(⟨"x"⟩, .literal (.int 0)), (⟨"y"⟩, .parameter)]]
        (some fun bs => bs.size == 1) fun bs => bs.size]).runWith Regex.isMatch
          [.map [(⟨"x"⟩, .float ⟨0⟩), (⟨"y"⟩, .float ⟨0x7ff8000000000000⟩)]])
      ((Dispatcher.mk [Clause.mk [.map [(⟨"x"⟩, .literal (.int 0)), (⟨"y"⟩, .parameter)]]
        (some fun bs => bs.size == 1) fun bs => bs.size]).runWith Regex.isMatch
          [.map [(⟨"y"⟩, .float ⟨0x7ff8000000000001⟩), (⟨"x"⟩, .float ⟨0x8000000000000000⟩)]]) := by
  obtain ⟨hpattern, hdispatch⟩ := selection_respects_deep_equality
  have hv : Built (.map [(⟨"x"⟩, .float ⟨0⟩), (⟨"y"⟩, .float ⟨0x7ff8000000000000⟩)]) := by
    refine .ofFields ?_
    simp only [List.forall_mem_cons]
    exact ⟨.float _, .float _, by simp⟩
  have hw : Built (.map [(⟨"y"⟩, .float ⟨0x7ff8000000000001⟩),
      (⟨"x"⟩, .float ⟨0x8000000000000000⟩)]) := by
    refine .ofFields ?_
    simp only [List.forall_mem_cons]
    exact ⟨.float _, .float _, by simp⟩
  have hvw : DeepEqual (.map [(⟨"x"⟩, .float ⟨0⟩), (⟨"y"⟩, .float ⟨0x7ff8000000000000⟩)])
      (.map [(⟨"y"⟩, .float ⟨0x7ff8000000000001⟩), (⟨"x"⟩, .float ⟨0x8000000000000000⟩)]) := by
    decide +kernel
  have hguard : GuardRespectsEquality fun bs => bs.size == 1 := by
    intro bs bs' _ _ halike
    have hsize : bs.size = bs'.size := halike.length_eq
    simp only [hsize]
  refine ⟨hpattern _ _ _ _ hv hw hvw, hdispatch Regex.isMatch Nat _ _ _
    (List.forall_mem_singleton.mpr hv) (List.forall_mem_singleton.mpr hw) (.cons hvw .nil) ?_⟩
  intro c hc guard hsome
  obtain rfl := List.mem_singleton.mp hc
  obtain rfl := Option.some.inj hsome
  exact hguard

end Dispatcher

end ClauseMatch
