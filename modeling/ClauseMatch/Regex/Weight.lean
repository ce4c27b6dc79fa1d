import ClauseMatch.Regex.Basic

/-!
# The weight of regular expressions

An expression is refused if the automaton for it would take more than ten megabytes. The weight is
an estimate of that memory in bytes. Every state takes a fixed amount, and a counted repetition
copies its body, so only large counts matter.
-/

namespace ClauseMatch

/-- The bytes that one state of an automaton takes. -/
def stateWeight : Nat := 32

/-- How many separate ranges the characters of some categories form. -/
def categoryRangeCount (cs : List Category) : Nat :=
  let count (sofar : Nat × Nat) (range : CodeRange Category) : Nat × Nat :=
    if cs.contains range.label then
      (if range.first = sofar.2 then sofar.1 else sofar.1 + 1, range.last + 1)
    else sofar
  (Category.table.foldl count (0, 0x110000)).1

namespace CharSet

/-- About how many ranges a set consists of. A complement has the planes beyond its ranges. -/
def rangeCount : CharSet → Nat
  | ranges rs => rs.length
  | categories cs => categoryRangeCount cs
  | blank => 10
  | word => categoryRangeCount Category.ofWords
  | union a b => a.rangeCount + b.rangeCount
  | inter a b => max a.rangeCount b.rangeCount
  | diff a b => a.rangeCount + b.rangeCount
  | symmDiff a b => a.rangeCount + b.rangeCount
  | complement a => a.rangeCount + 14
  | caseClosure a => a.rangeCount + min a.rangeCount 50
  | asciiCaseClosure a => a.rangeCount + 1

/-- Whether a set is seen at once to hold ASCII characters only. -/
def isAscii : CharSet → Bool
  | ranges rs => rs.all fun r => r.2 < 0x80
  | union a b => a.isAscii && b.isAscii
  | inter a b => a.isAscii || b.isAscii
  | diff a _ => a.isAscii
  | symmDiff a b => a.isAscii && b.isAscii
  | caseClosure a => a.isAscii
  | asciiCaseClosure a => a.isAscii
  | _ => false

/-- The weight of a set: a character has a state for each of its bytes, an ASCII set has two states
and a transition for each range, and any other range takes about two states. -/
def weight (set : CharSet) : Nat :=
  match set with
  | ranges [(first, last)] =>
    if first = last then stateWeight * (Char.ofNat first).utf8Size
    else if last < 0x80 then 2 * stateWeight + 8
    else 4 * stateWeight
  | set =>
    if set.isAscii then 2 * stateWeight + 8 * set.rangeCount
    else 2 * stateWeight * (set.rangeCount + 1)

end CharSet

namespace Expr

/-- Whether an expression can match more than the empty text. -/
def consumes : Expr → Bool
  | empty => false
  | chars _ => true
  | look _ => false
  | seq first second => first.consumes || second.consumes
  | alt first second => first.consumes || second.consumes
  | rep body _ most => most != some 0 && body.consumes
  | capture body => body.consumes

/-- The weight of an expression. What matches only the empty text is never copied. -/
def weight : Expr → Nat
  | empty => stateWeight
  | chars set => set.weight
  | look _ => stateWeight
  | seq first second => first.weight + second.weight
  | alt first second => first.weight + second.weight + 40
  | rep body least most =>
    if !body.consumes then body.weight
    else
      match most with
      | none => max least 1 * body.weight + 40
      | some most => most * body.weight + (most - least) * 40
  | capture body => body.weight + 2 * stateWeight

/-- The greatest weight of an expression: ten megabytes. -/
def weightLimit : Nat := 10 * 1024 * 1024

end Expr

end ClauseMatch
