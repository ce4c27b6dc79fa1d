import Std.Data.HashMap

/-!
# Atoms

An atom is a name, and atoms are equal exactly when their names are. An atom table gives every name
that is entered into it a small number of its own; six names have fixed numbers. Entering a name
takes two steps, a search and an insertion that searches again, so that other names may be entered
between the two without a name ever receiving two numbers.
-/

namespace ClauseMatch

/-- A symbol that stands for its own name. -/
structure Atom where
  name : String
deriving DecidableEq, Inhabited

namespace Atom

/-- The tag of plain objects. -/
def object : Atom := ⟨"Object"⟩

/-- Marks a success. -/
def ok : Atom := ⟨"ok"⟩

/-- Marks a failure. -/
def error : Atom := ⟨"error"⟩

/-- The names with fixed numbers, in the order of their numbers. -/
def predefined : List String := ["Object", "ok", "error", "nil", "true", "false"]

/-- An atom as the name of its constructor shows it. -/
def debugText (a : Atom) : String := "Atom(" ++ a.name ++ ")"

end Atom

/-- Names numbered in the order in which they were entered, and the number of each name. -/
structure AtomTable where
  names : Array String
  numbers : Std.HashMap String Nat

namespace AtomTable

/-- The number of a name that has been entered. -/
def number? (t : AtomTable) (name : String) : Option Nat := t.numbers[name]?

/-- The name with the given number. -/
def name? (t : AtomTable) (number : Nat) : Option String := t.names[number]?

/-- Inserts a name unless it is already there, and gives its number. -/
def insert (t : AtomTable) (name : String) : AtomTable × Nat :=
  match t.number? name with
  | some number => (t, number)
  | none => (⟨t.names.push name, t.numbers.insert name t.names.size⟩, t.names.size)

/-- The number of a name, which is entered if the table does not hold it. -/
def intern (t : AtomTable) (name : String) : AtomTable × Nat :=
  match t.number? name with
  | some number => (t, number)
  | none => t.insert name

/-- The table that holds the predefined names alone. -/
def initial : AtomTable :=
  Atom.predefined.foldl (fun t name => (t.insert name).1) ⟨#[], ∅⟩

end AtomTable

end ClauseMatch
