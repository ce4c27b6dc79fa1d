import ClauseMatch.Dispatch.NoMatch
import ClauseMatch.Pattern.Matching
import ClauseMatch.Pattern.Text

/-!
# Dispatch by clauses

A clause has patterns for the arguments of a call, an optional guard over what they bind, and a
handler. A dispatcher tries its clauses in order; the first whose patterns match and whose guard
accepts handles the call. A run also records which guards were asked and which handlers were
called, and about what. Which texts satisfy an expression is a parameter, as it is of matching.
-/

namespace ClauseMatch

/-- One alternative of a dispatcher, with one pattern for each argument. -/
structure Clause (α : Type) where
  patterns : List Pattern
  guard : Option (Bindings → Bool)
  handler : Bindings → α

namespace Clause

variable {α : Type}

/-- A clause without a guard. -/
def ofPatterns (patterns : List Pattern) (handler : Bindings → α) : Clause α :=
  ⟨patterns, none, handler⟩

/-- The pattern of a clause, which describes the list of all arguments. -/
def pattern (c : Clause α) : Pattern := .array c.patterns

/-- Gives a clause a guard, in place of any it had. -/
def withGuard (c : Clause α) (guard : Bindings → Bool) : Clause α := { c with guard := some guard }

/-- Whether a clause has a guard. -/
def isGuarded (c : Clause α) : Bool := c.guard.isSome

/-- The text of a clause. -/
def debugText (c : Clause α) : String :=
  "Clause \x7b pattern: " ++ c.pattern.text ++ ", guarded: " ++ boolText c.isGuarded ++ ", .. \x7d"

end Clause

/-- One call of a guard or a handler: the position of its clause and the bindings it saw. -/
structure Consultation where
  clause : Nat
  bindings : Bindings

/-- A call as it went: the guards asked and the handlers called, in order, and the result. -/
structure DispatchRun (α : Type) where
  consulted : List Consultation
  handled : List Consultation
  result : Except NoMatch α

/-- The run in which a clause handles the call; `consulted` holds the questions so far, latest
first. -/
def Clause.handle {α : Type} (c : Clause α) (position : Nat) (bindings : Bindings)
    (consulted : List Consultation) : DispatchRun α :=
  ⟨consulted.reverse, [⟨position, bindings⟩], .ok (c.handler bindings)⟩

/-- Clauses in the order in which they are tried. -/
structure Dispatcher (α : Type) where
  clauses : List (Clause α)

namespace Dispatcher

variable {α : Type}

section

variable (satisfies : Regex → String → Bool)

/-- Tries clauses on arguments; `position` counts the clauses before them, and `consulted` holds
the questions so far, latest first. -/
def tryClauses (args : List Value) :
    List (Clause α) → Nat → List Consultation → DispatchRun α
  | [], _, consulted => ⟨consulted.reverse, [], .error (NoMatch.ofArguments args)⟩
  | c :: rest, position, consulted =>
    match c.pattern.bindWith? satisfies (.list args), c.guard with
    | none, _ => tryClauses args rest (position + 1) consulted
    | some bindings, none => c.handle position bindings consulted
    | some bindings, some guard =>
      let consulted := ⟨position, bindings⟩ :: consulted
      if guard bindings then c.handle position bindings consulted
      else tryClauses args rest (position + 1) consulted

/-- A call with the given arguments. -/
def runWith (d : Dispatcher α) (args : List Value) : DispatchRun α :=
  tryClauses satisfies args d.clauses 0 []

/-- The result of a call: that of the first clause that accepts the arguments. -/
def dispatchWith (d : Dispatcher α) (args : List Value) : Except NoMatch α :=
  (d.runWith satisfies args).result

end

/-- The text of a dispatcher. -/
def debugText (d : Dispatcher α) : String :=
  "[" ++ ", ".intercalate (d.clauses.map Clause.debugText) ++ "]"

end Dispatcher

namespace Pattern

variable (satisfies : Regex → String → Bool)

/-- The bindings of a single match. -/
def bindWith (p : Pattern) (v : Value) : Except NoMatch Bindings :=
  match p.bindWith? satisfies v with
  | some bindings => .ok bindings
  | none => .error (NoMatch.ofValue v)

/-- The dispatcher whose only clause matches one argument against a pattern under a guard. -/
def guardedDispatcher (p : Pattern) (guard : Bindings → Bool) : Dispatcher Unit :=
  ⟨[(Clause.ofPatterns [p] fun _ => ()).withGuard guard]⟩

/-- Whether a value matches and a guard accepts the bindings. -/
def isMatchGuardedWith (p : Pattern) (v : Value) (guard : Bindings → Bool) : Bool :=
  ((guardedDispatcher p guard).dispatchWith satisfies [v]).isOk

end Pattern

end ClauseMatch
