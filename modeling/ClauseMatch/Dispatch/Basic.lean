import ClauseMatch.Dispatch.Clause
import ClauseMatch.Regex.Parser

/-!
# Matching and dispatch with the built-in engine

Matching and dispatch leave open how expressions are read and what satisfies them. To be run they
need both: here these are the reader and the engine of this library. Nothing is proved about matching
with this engine that does not hold with every other one.
-/

namespace ClauseMatch

namespace Pattern

/-- The pattern of the texts in which an expression has a match. -/
def ofRegexSource? (source : String) : Option Pattern := ofRegexSourceWith? Regex.ofSource? source

/-- Matches a value, appending to a buffer. -/
def run (p : Pattern) (v : Value) (out : Bindings) : Attempt := p.runWith Regex.isMatch v out

/-- The bindings of a single match. -/
def bind (p : Pattern) (v : Value) : Except NoMatch Bindings := p.bindWith Regex.isMatch v

/-- Whether a value matches. -/
def isMatch (p : Pattern) (v : Value) : Bool := p.isMatchWith Regex.isMatch v

/-- Whether a value matches and a guard accepts the bindings. -/
def isMatchGuarded (p : Pattern) (v : Value) (guard : Bindings → Bool) : Bool :=
  p.isMatchGuardedWith Regex.isMatch v guard

/-- Whether any of some values matches. -/
def matchesAny (p : Pattern) (vs : List Value) : Bool := p.matchesAnyWith Regex.isMatch vs

end Pattern

namespace Dispatcher

variable {α : Type}

/-- A call with the given arguments. -/
def run (d : Dispatcher α) (args : List Value) : DispatchRun α := d.runWith Regex.isMatch args

/-- The result of a call: that of the first clause that accepts the arguments. -/
def dispatch (d : Dispatcher α) (args : List Value) : Except NoMatch α :=
  d.dispatchWith Regex.isMatch args

end Dispatcher

end ClauseMatch
