import ClauseMatch.Value.Atom

/-!
# Fields

The fields of an object are kept in a list. Every key occurs in it once, at the place of its first
mention, with the value of its last mention.
-/

namespace ClauseMatch

variable {α : Type}

/-- Sets the value of a key: in place if the key is there, at the end otherwise. -/
def putField (key : Atom) (value : α) : List (Atom × α) → List (Atom × α)
  | [] => [(key, value)]
  | (k, v) :: rest => if k = key then (k, value) :: rest else (k, v) :: putField key value rest

/-- The fields of an object, from a list in which keys may repeat. -/
def distinctFields (fields : List (Atom × α)) : List (Atom × α) :=
  fields.foldl (fun done field => putField field.1 field.2 done) []

/-- The keys of fields, in order. -/
def fieldKeys (fields : List (Atom × α)) : List Atom := fields.map (·.1)

/-- The position of a key. -/
def fieldIndex? (fields : List (Atom × α)) (key : Atom) : Option Nat :=
  (fieldKeys fields).idxOf? key

/-- The value of a key. -/
def getField? (fields : List (Atom × α)) (key : Atom) : Option α := fields.lookup key

/-- Whether there is a field with the given key. -/
def hasField (fields : List (Atom × α)) (key : Atom) : Bool := (getField? fields key).isSome

end ClauseMatch
