import ClauseMatch.Regex.Basic
import ClauseMatch.Value.Text

/-!
# Patterns

A pattern describes a set of values and which parts of a matching value are bound. A plain value
becomes a pattern that asks for that value: atoms become symbols, lists and tuples become patterns
of their items, objects become patterns of their fields, and every other value a literal. What
reads expressions is a parameter.
-/

namespace ClauseMatch

/-- What a value is matched against. -/
inductive Pattern where
  /-- Matches anything and binds nothing. -/
  | wildcard
  /-- Matches a deeply equal value and binds it. -/
  | bound (expected : Value)
  /-- Matches anything and binds it. -/
  | parameter
  /-- Matches a list of at least two items; binds its head and then its tail. -/
  | headTail
  /-- Matches a text that goes on after the given beginning; binds what follows. -/
  | startsWith (beginning : String)
  /-- Binds what the inner pattern binds and then the whole value. -/
  | capture (inner : Pattern)
  /-- Matches an equal literal and binds nothing. -/
  | literal (expected : Value)
  /-- Matches a text that satisfies the expression; binds nothing. -/
  | regex (expression : Regex)
  /-- Matches any value with the given constructor and binds it. -/
  | typeTag (tag : TypeTag)
  /-- Matches a list of exactly this length, position by position. -/
  | array (items : List Pattern)
  /-- Matches an object with this tag that has every listed key, field by field. -/
  | object (tag : Atom) (fields : List (Atom × Pattern))
  /-- Matches this atom and binds nothing. -/
  | symbol (name : Atom)
  /-- Matches a tuple of exactly this length, position by position. -/
  | tuple (items : List Pattern)

namespace Pattern

/-- A pattern of plain objects. -/
def map (fields : List (Atom × Pattern)) : Pattern := .object Atom.object fields

/-- The pattern of the texts that satisfy an expression, if its source can be read. -/
def ofRegexSourceWith? (read? : String → Option Regex) (source : String) : Option Pattern :=
  (read? source).map .regex

mutual

/-- The pattern that asks for a given value. -/
def ofValue : Value → Pattern
  | .atom a => .symbol a
  | .list items => .array (ofItems items [])
  | .tuple items => .tuple (ofItems items [])
  | .object tag fields => .object tag (ofFields fields [])
  | .nil => .literal .nil
  | .bool b => .literal (.bool b)
  | .int n => .literal (.int n)
  | .float x => .literal (.float x)
  | .str text => .literal (.str text)
  | .bitstring bits => .literal (.bitstring bits)

/-- The patterns of items; `done` holds those before, latest first. -/
def ofItems : List Value → List Pattern → List Pattern
  | [], done => done.reverse
  | v :: vs, done => ofItems vs (ofValue v :: done)

/-- The patterns of fields; `done` holds those before, latest first. -/
def ofFields : List (Atom × Value) → List (Atom × Pattern) → List (Atom × Pattern)
  | [], done => done.reverse
  | (key, v) :: fields, done => ofFields fields ((key, ofValue v) :: done)

end

theorem ofItems_eq (items : List Value) (done : List Pattern) :
    ofItems items done = done.reverse ++ items.map ofValue := by
  induction items generalizing done with
  | nil => simp [ofItems]
  | cons v vs ih => simp [ofItems, ih]

theorem ofFields_eq (fields : List (Atom × Value)) (done : List (Atom × Pattern)) :
    ofFields fields done = done.reverse ++ fields.map fun field => (field.1, ofValue field.2) := by
  induction fields generalizing done with
  | nil => simp [ofFields]
  | cons field fields ih => simp [ofFields, ih]

/-- A list becomes the array of its items' patterns. -/
theorem ofValue_list (items : List Value) : ofValue (.list items) = .array (items.map ofValue) := by
  simp [ofValue, ofItems_eq]

/-- A tuple becomes the tuple of its items' patterns. -/
theorem ofValue_tuple (items : List Value) :
    ofValue (.tuple items) = .tuple (items.map ofValue) := by
  simp [ofValue, ofItems_eq]

/-- An object becomes the pattern of all its fields. -/
theorem ofValue_object (tag : Atom) (fields : List (Atom × Value)) :
    ofValue (.object tag fields) =
      .object tag (fields.map fun field => (field.1, ofValue field.2)) := by
  simp [ofValue, ofFields_eq]

end Pattern

end ClauseMatch
