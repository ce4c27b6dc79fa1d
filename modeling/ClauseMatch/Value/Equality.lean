import ClauseMatch.Value.Basic

/-!
# Deep equality

Values are equal if they have the same shape and equal contents. Floats are compared as numbers,
with NaN equal to itself; integers and floats are never equal; the fields of objects are compared
by key, whatever their order; bitstrings are compared by what they encode to.
-/

namespace ClauseMatch

namespace Value

mutual

/-- Deep equality of values. -/
def equals : Value → Value → Bool
  | .nil, .nil => true
  | .bool a, .bool b => a == b
  | .int a, .int b => a == b
  | .float a, .float b => a.sameNumber b
  | .atom a, .atom b => a == b
  | .str a, .str b => a == b
  | .list as, .list bs => equalItems as bs
  | .tuple as, .tuple bs => equalItems as bs
  | .object s as, .object t bs => s == t && as.length == bs.length && fieldsWithin as bs
  | .bitstring a, .bitstring b => a == b
  | _, _ => false

/-- Deep equality of items, position by position. -/
def equalItems : List Value → List Value → Bool
  | [], [] => true
  | a :: as, b :: bs => equals a b && equalItems as bs
  | _, _ => false

/-- Whether every field on the left has an equal field with the same key on the right. -/
def fieldsWithin : List (Atom × Value) → List (Atom × Value) → Bool
  | [], _ => true
  | (key, a) :: as, bs =>
    (match getField? bs key with
      | some b => equals a b
      | none => false) && fieldsWithin as bs

end

instance : BEq Value := ⟨equals⟩

/-- Equality of a literal with a value: deep equality, except that an integer and a float are
equal if the integer, rounded to a double, is numerically equal to the float. -/
def literalEquals : Value → Value → Bool
  | .int n, .float x => (Binary64.ofInt n.toInt).numericEq x
  | .float x, .int n => (Binary64.ofInt n.toInt).numericEq x
  | expected, value => equals expected value

end Value

end ClauseMatch
