import ClauseMatch.Pattern.Basic
import ClauseMatch.Value.Equality

/-!
# Matching

Matching a value against a pattern appends the bound parts to a buffer, in the order in which the
parts of the pattern are met. Sub-patterns are matched in order up to the first that fails, and
what has been bound by then stays in the buffer. Which texts satisfy an expression is a parameter
of the matcher and of everything that is built on it.
-/

namespace ClauseMatch

/-- Bound values in the order in which they were bound. -/
abbrev Bindings := Array Value

/-- The outcome of matching: whether the value matched, and the buffer afterwards. -/
structure Attempt where
  matched : Bool
  bindings : Bindings

/-- The text after a given beginning, if there is any. -/
def restAfter? (beginning text : List Char) : Option (List Char) :=
  match beginning, text with
  | [], [] => none
  | [], rest => some rest
  | b :: bs, c :: cs => if b = c then restAfter? bs cs else none
  | _ :: _, [] => none

namespace Pattern

section

variable (satisfies : Regex → String → Bool)

mutual

/-- Matches a value, appending to a buffer. -/
def runWith : Pattern → Value → Bindings → Attempt
  | .wildcard, _, out => ⟨true, out⟩
  | .bound expected, v, out => if v.equals expected then ⟨true, out.push v⟩ else ⟨false, out⟩
  | .parameter, v, out => ⟨true, out.push v⟩
  | .headTail, v, out =>
    match v with
    | .list (head :: next :: rest) => ⟨true, (out.push head).push (.list (next :: rest))⟩
    | _ => ⟨false, out⟩
  | .startsWith beginning, v, out =>
    match v with
    | .str text =>
      match restAfter? beginning.toList text.toList with
      | some rest => ⟨true, out.push (.str (String.ofList rest))⟩
      | none => ⟨false, out⟩
    | _ => ⟨false, out⟩
  | .capture inner, v, out =>
    match runWith inner v out with
    | ⟨true, out⟩ => ⟨true, out.push v⟩
    | ⟨false, out⟩ => ⟨false, out⟩
  | .literal expected, v, out => ⟨Value.literalEquals expected v, out⟩
  | .regex expression, v, out =>
    match v with
    | .str text => ⟨satisfies expression text, out⟩
    | _ => ⟨false, out⟩
  | .typeTag tag, v, out => if v.typeTag = tag then ⟨true, out.push v⟩ else ⟨false, out⟩
  | .array patterns, v, out =>
    match v with
    | .list items =>
      if items.length = patterns.length then runItemsWith patterns items out else ⟨false, out⟩
    | _ => ⟨false, out⟩
  | .object tag patterns, v, out =>
    match v with
    | .object tag' fields =>
      if tag' = tag ∧ patterns.all (fun p => hasField fields p.1) then
        runFieldsWith patterns fields out
      else ⟨false, out⟩
    | _ => ⟨false, out⟩
  | .symbol name, v, out =>
    match v with
    | .atom a => ⟨a == name, out⟩
    | _ => ⟨false, out⟩
  | .tuple patterns, v, out =>
    match v with
    | .tuple items =>
      if items.length = patterns.length then runItemsWith patterns items out else ⟨false, out⟩
    | _ => ⟨false, out⟩

/-- Matches items position by position, up to the first that fails. -/
def runItemsWith : List Pattern → List Value → Bindings → Attempt
  | p :: ps, v :: vs, out =>
    match runWith p v out with
    | ⟨true, out⟩ => runItemsWith ps vs out
    | ⟨false, out⟩ => ⟨false, out⟩
  | [], [], out => ⟨true, out⟩
  | _, _, out => ⟨false, out⟩

/-- Matches the fields that the patterns name, up to the first that fails. -/
def runFieldsWith : List (Atom × Pattern) → List (Atom × Value) → Bindings → Attempt
  | [], _, out => ⟨true, out⟩
  | (key, p) :: ps, fields, out =>
    match getField? fields key with
    | none => ⟨false, out⟩
    | some v =>
      match runWith p v out with
      | ⟨true, out⟩ => runFieldsWith ps fields out
      | ⟨false, out⟩ => ⟨false, out⟩

end

/-- The bindings of a match from an empty buffer. -/
def bindWith? (p : Pattern) (v : Value) : Option Bindings :=
  match p.runWith satisfies v #[] with
  | ⟨true, out⟩ => some out
  | ⟨false, _⟩ => none

/-- Whether a value matches. -/
def isMatchWith (p : Pattern) (v : Value) : Bool := (p.bindWith? satisfies v).isSome

/-- Whether any of some values matches. -/
def matchesAnyWith (p : Pattern) (vs : List Value) : Bool := vs.any (p.isMatchWith satisfies)

end

end Pattern

end ClauseMatch
