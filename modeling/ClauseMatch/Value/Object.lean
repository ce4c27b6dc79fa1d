import ClauseMatch.Value.Equality

/-!
# Objects in parts

An object is kept in three parts: its keys in the order of their first mention, the place of each
key among them, and the values at these places. Setting a key that is there overwrites the value at
its place, and any other key gets the next place. To overwrite a value at a place that there is not
has no result.
-/

namespace ClauseMatch

deriving instance Hashable for Atom

/-- The keys of an object in order, and the place of each key. -/
structure ObjectLayout where
  keys : Array Atom
  indices : Std.HashMap Atom Nat

namespace ObjectLayout

/-- The layout without keys. -/
def empty : ObjectLayout := ⟨#[], ∅⟩

/-- The place of a key, if it is there. -/
def index? (l : ObjectLayout) (key : Atom) : Option Nat := l.indices[key]?

/-- The number of keys. -/
def size (l : ObjectLayout) : Nat := l.keys.size

/-- Whether there is no key. -/
def isEmpty (l : ObjectLayout) : Bool := l.keys.isEmpty

/-- Gives a new key the next place. -/
def push (l : ObjectLayout) (key : Atom) : ObjectLayout :=
  ⟨l.keys.push key, l.indices.insert key l.keys.size⟩

end ObjectLayout

/-- An object as it is kept: its tag, the layout of its keys, and its values. -/
structure ObjectRecord where
  tag : Atom
  layout : ObjectLayout
  values : Array Value

namespace ObjectRecord

/-- The object with the given tag and no fields. -/
def empty (tag : Atom) : ObjectRecord := ⟨tag, .empty, #[]⟩

/-- Overwrites the value at a place, if there is such a place. -/
def overwrite? (o : ObjectRecord) (index : Nat) (value : Value) : Option ObjectRecord :=
  if h : index < o.values.size then some { o with values := o.values.set index value h } else none

/-- Sets the value of a key. -/
def set? (o : ObjectRecord) (key : Atom) (value : Value) : Option ObjectRecord :=
  match o.layout.index? key with
  | some index => o.overwrite? index value
  | none => some { o with layout := o.layout.push key, values := o.values.push value }

/-- The object of fields in which keys may repeat. -/
def ofFields? (tag : Atom) (fields : List (Atom × Value)) : Option ObjectRecord :=
  fields.foldlM (fun o field => o.set? field.1 field.2) (empty tag)

/-- The keys in order. -/
def keys (o : ObjectRecord) : List Atom := o.layout.keys.toList

/-- The value of a key. -/
def get? (o : ObjectRecord) (key : Atom) : Option Value :=
  (o.layout.index? key).bind fun index => o.values[index]?

/-- Whether there is a field with the given key. -/
def hasKey (o : ObjectRecord) (key : Atom) : Bool := (o.layout.index? key).isSome

/-- The fields in the order of their keys. -/
def fields (o : ObjectRecord) : List (Atom × Value) := o.keys.zip o.values.toList

/-- The number of fields. -/
def size (o : ObjectRecord) : Nat := o.values.size

/-- Whether there is no field. -/
def isEmpty (o : ObjectRecord) : Bool := o.values.isEmpty

/-- Deep equality: the same tag, as many fields, and under every key of the left object an equal
value in the right one. -/
def equals (o p : ObjectRecord) : Bool :=
  o.tag == p.tag && o.size == p.size &&
    o.fields.all fun field => (p.get? field.1).any field.2.equals

/-- The object as a value. -/
def value (o : ObjectRecord) : Value := .object o.tag o.fields

end ObjectRecord

end ClauseMatch
