import ClauseMatch.Value.Equality

/-!
# Shared storage

Texts, lists and tuples live in allocations, and a value holds handles on these. Two handles on one
allocation count as equal without a look at what it holds, so that equality of stored values depends
on addresses as well as on contents. A memory gives every address what its allocation holds.
-/

namespace ClauseMatch

/-- A handle on an allocation, with what the allocation holds. -/
structure Heap (α : Type) where
  address : Nat
  payload : α

/-- Equality of handles: the same allocation, or equal contents. -/
def Heap.equalsBy {α : Type} (eq : α → α → Bool) (a b : Heap α) : Bool :=
  a.address == b.address || eq a.payload b.payload

/-- A value as it is stored. -/
inductive StoredValue where
  | nil
  | bool (b : Bool)
  | int (n : Int64)
  | float (x : Binary64)
  | atom (a : Atom)
  | str (text : Heap String)
  | list (items : Heap (List StoredValue))
  | tuple (items : Heap (List StoredValue))
  | object (tag : Atom) (fields : List (Atom × StoredValue))
  | bitstring (bits : Bitstring)

namespace StoredValue

mutual

/-- The value without its addresses. -/
def value : StoredValue → Value
  | .nil => .nil
  | .bool b => .bool b
  | .int n => .int n
  | .float x => .float x
  | .atom a => .atom a
  | .str text => .str text.payload
  | .list ⟨_, items⟩ => .list (itemValues items)
  | .tuple ⟨_, items⟩ => .tuple (itemValues items)
  | .object tag fields => .object tag (fieldValues fields)
  | .bitstring bits => .bitstring bits

/-- The values of items. -/
def itemValues : List StoredValue → List Value
  | [] => []
  | v :: vs => value v :: itemValues vs

/-- The values of fields. -/
def fieldValues : List (Atom × StoredValue) → List (Atom × Value)
  | [] => []
  | (key, v) :: fields => (key, value v) :: fieldValues fields

end

mutual

/-- Deep equality of stored values. Texts of the same length are compared as handles; lists and
tuples are compared item by item. -/
def equals : StoredValue → StoredValue → Bool
  | .nil, .nil => true
  | .bool a, .bool b => a == b
  | .int a, .int b => a == b
  | .float a, .float b => a.sameNumber b
  | .atom a, .atom b => a == b
  | .str a, .str b =>
    a.payload.utf8ByteSize == b.payload.utf8ByteSize && a.equalsBy (fun s t => s == t) b
  | .list ⟨_, as⟩, .list ⟨_, bs⟩ => equalItems as bs
  | .tuple ⟨_, as⟩, .tuple ⟨_, bs⟩ => equalItems as bs
  | .object s as, .object t bs => s == t && as.length == bs.length && fieldsWithin as bs
  | .bitstring a, .bitstring b => a == b
  | _, _ => false

/-- Deep equality of items, position by position. -/
def equalItems : List StoredValue → List StoredValue → Bool
  | [], [] => true
  | a :: as, b :: bs => equals a b && equalItems as bs
  | _, _ => false

/-- Whether every field on the left has an equal field with the same key on the right. -/
def fieldsWithin : List (Atom × StoredValue) → List (Atom × StoredValue) → Bool
  | [], _ => true
  | (key, a) :: as, bs =>
    (match getField? bs key with
      | some b => equals a b
      | none => false) && fieldsWithin as bs

end

end StoredValue

/-- What the allocations hold: texts and lists of items. -/
structure Memory where
  text : Nat → String
  items : Nat → List StoredValue

/-- Every handle in a value, at any depth, holds what the memory has at its address. -/
inductive StoredValue.In (m : Memory) : StoredValue → Prop where
  | nil : In m .nil
  | bool (b : Bool) : In m (.bool b)
  | int (n : Int64) : In m (.int n)
  | float (x : Binary64) : In m (.float x)
  | atom (a : Atom) : In m (.atom a)
  | str (address : Nat) : In m (.str ⟨address, m.text address⟩)
  | list (address : Nat) : (∀ v ∈ m.items address, In m v) → In m (.list ⟨address, m.items address⟩)
  | tuple (address : Nat) : (∀ v ∈ m.items address, In m v) →
      In m (.tuple ⟨address, m.items address⟩)
  | object {tag : Atom} {fields : List (Atom × StoredValue)} :
      (∀ field ∈ fields, In m field.2) → In m (.object tag fields)
  | bitstring (bits : Bitstring) : In m (.bitstring bits)

end ClauseMatch
