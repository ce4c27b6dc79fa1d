import ClauseMatch.Bitstring.Encoding
import ClauseMatch.Value.Fields

/-!
# Values

Dynamically typed values: scalars, atoms, texts, bitstrings, lists, tuples and objects. An object
has a nominal tag and fields with distinct keys in the order of their first mention; it is built
from a list of fields in which the last mention of a key gives its value.
-/

namespace ClauseMatch

/-- A dynamically typed value. -/
inductive Value where
  | nil
  | bool (b : Bool)
  | int (n : Int64)
  | float (x : Binary64)
  | atom (a : Atom)
  | str (text : String)
  | list (items : List Value)
  | tuple (items : List Value)
  | object (tag : Atom) (fields : List (Atom × Value))
  | bitstring (bits : Bitstring)
deriving Inhabited

/-- The constructor of a value; objects are told apart by their nominal tag. -/
inductive TypeTag where
  | nil
  | bool
  | int
  | float
  | str
  | atom
  | list
  | tuple
  | bitstring
  | object (tag : Atom)
deriving DecidableEq, Inhabited

namespace TypeTag

/-- The name of the constructor. -/
def name : TypeTag → String
  | nil => "nil"
  | bool => "bool"
  | int => "int"
  | float => "float"
  | str => "str"
  | atom => "atom"
  | list => "list"
  | tuple => "tuple"
  | bitstring => "bitstring"
  | object _ => "object"

/-- The tag as patterns show it: objects by their nominal tag, all others by their name. -/
def text : TypeTag → String
  | object tag => "%" ++ tag.name
  | other => other.name

end TypeTag

namespace Value

/-- An object with the given tag. -/
def ofFields (tag : Atom) (fields : List (Atom × Value)) : Value :=
  .object tag (distinctFields fields)

/-- A plain object. -/
def map (fields : List (Atom × Value)) : Value := ofFields Atom.object fields

/-- The pair that reports a success. -/
def ok (v : Value) : Value := .tuple [.atom Atom.ok, v]

/-- The pair that reports a failure. -/
def error (reason : Value) : Value := .tuple [.atom Atom.error, reason]

/-- The constructor of a value. -/
def typeTag : Value → TypeTag
  | nil => .nil
  | bool _ => .bool
  | int _ => .int
  | float _ => .float
  | atom _ => .atom
  | str _ => .str
  | list _ => .list
  | tuple _ => .tuple
  | object tag _ => .object tag
  | bitstring _ => .bitstring

/-- Everything but `nil` and `false` counts as true. -/
def isTruthy : Value → Bool
  | nil => false
  | bool b => b
  | _ => true

/-- The number in an integer value. -/
def asInt? : Value → Option Int64
  | int n => some n
  | _ => none

/-- The number in a float value. -/
def asFloat? : Value → Option Binary64
  | float x => some x
  | _ => none

/-- The truth value in a boolean value. -/
def asBool? : Value → Option Bool
  | bool b => some b
  | _ => none

/-- The atom in an atom value. -/
def asAtom? : Value → Option Atom
  | atom a => some a
  | _ => none

/-- The text in a text value. -/
def asStr? : Value → Option String
  | str text => some text
  | _ => none

/-- The items of a list. -/
def asList? : Value → Option (List Value)
  | list items => some items
  | _ => none

/-- The items of a tuple. -/
def asTuple? : Value → Option (List Value)
  | tuple items => some items
  | _ => none

/-- The tag and the fields of an object. -/
def asObject? : Value → Option (Atom × List (Atom × Value))
  | object tag fields => some (tag, fields)
  | _ => none

/-- The bitstring in a bitstring value. -/
def asBitstring? : Value → Option Bitstring
  | bitstring bits => some bits
  | _ => none

end Value

end ClauseMatch
