import ClauseMatch.Value.Atom

/-!
# Interning by several callers

Atoms are handed out as 32-bit handles into one table on which several callers intern names at the
same time. A call searches the table first. If the name is not there, the call takes a second step
later on: it searches once more, because other calls may have taken steps in between, and inserts
the name if it is still missing. A table that has given away all handles takes no further name.
-/

namespace ClauseMatch

/-- The number of an atom, as it is handed out. -/
structure AtomHandle where
  raw : UInt32
deriving DecidableEq, Inhabited

/-- The handle of a number. -/
def AtomHandle.ofNumber (number : Nat) : AtomHandle := ⟨UInt32.ofNat number⟩

/-- The predefined names with their fixed handles. -/
def AtomHandle.predefined : List (String × AtomHandle) :=
  [("Object", ⟨0⟩), ("ok", ⟨1⟩), ("error", ⟨2⟩), ("nil", ⟨3⟩), ("true", ⟨4⟩), ("false", ⟨5⟩)]

/-- Why a name cannot be interned. -/
inductive AtomError where
  | tableOverflow (count : Nat)
deriving DecidableEq, Inhabited

/-- The wording of a failure to intern. -/
def AtomError.message : AtomError → String
  | tableOverflow count =>
    "atom table exceeded capacity: " ++ toString count ++ " atoms, max is " ++
      toString (UInt32.size - 1)

namespace AtomTable

/-- The handle of a name that has been entered. -/
def handle? (t : AtomTable) (name : String) : Option AtomHandle :=
  (t.number? name).map AtomHandle.ofNumber

/-- Inserts a name unless it is already there, and gives its handle. A table without handles left
refuses a name that is not there. -/
def enter (t : AtomTable) (name : String) : AtomTable × Except AtomError AtomHandle :=
  match t.handle? name with
  | some handle => (t, .ok handle)
  | none =>
    if t.names.size < UInt32.size then
      ((t.insert name).1, .ok (.ofNumber (t.insert name).2))
    else (t, .error (.tableOverflow t.names.size))

/-- The name that a handle stands for, empty if the table has not given it away. -/
def lookup (t : AtomTable) (handle : AtomHandle) : String :=
  (t.name? handle.raw.toNat).getD ""

end AtomTable

/-- Where a call stands: it has not found its name and still has to insert it, or it has ended. -/
inductive InternStage where
  | waiting
  | ended (result : Except AtomError AtomHandle)

/-- A call that interns a name. -/
structure InternCall where
  name : String
  stage : InternStage

/-- A table with the calls that have been made on it, in the order of their searches. -/
structure Interning where
  table : AtomTable
  calls : List InternCall

/-- A step of some call: the search with which it begins, or the insertion of the call at a position
of the list. -/
inductive InternStep where
  | search (name : String)
  | insert (position : Nat)

namespace Interning

/-- The table of predefined names, before any call. -/
def initial : Interning := ⟨.initial, []⟩

/-- What the search of a call finds. -/
def found (t : AtomTable) (name : String) : InternStage :=
  match t.handle? name with
  | some handle => .ended (.ok handle)
  | none => .waiting

/-- One step. Only a waiting call can insert. -/
def step (s : Interning) : InternStep → Interning
  | .search name => { s with calls := s.calls ++ [⟨name, found s.table name⟩] }
  | .insert position =>
    match s.calls[position]? with
    | some ⟨name, .waiting⟩ =>
      ⟨(s.table.enter name).1,
        s.calls.set position ⟨name, .ended (s.table.enter name).2⟩⟩
    | _ => s

/-- Steps of any calls, in the order in which they are taken. -/
def run (s : Interning) (steps : List InternStep) : Interning := steps.foldl step s

end Interning

end ClauseMatch
