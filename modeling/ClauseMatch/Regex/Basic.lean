import ClauseMatch.Regex.CharSet

/-!
# Regular expressions

The expressions themselves, and an engine that says when a text matches one. Patterns refer to
expressions but leave open what satisfies them: an engine is any function of an expression and a
text, also one that goes by the source of the expression alone.

The engine given here is the one that the program runs with. It seeks a match anywhere in the text.
Sets of text positions are bit masks: an expression takes the set of positions where a match may
begin to the set of positions where it may then end, so whether a match is greedy plays no part.
-/

namespace ClauseMatch

/-- A condition on the characters around a position. -/
inductive Look where
  | textStart
  | textEnd
  | lineStart (crlf : Bool)
  | lineEnd (crlf : Bool)
  | wordBoundary (unicode : Bool)
  | noWordBoundary (unicode : Bool)
  | wordStart (unicode : Bool)
  | wordEnd (unicode : Bool)
  | wordStartHalf (unicode : Bool)
  | wordEndHalf (unicode : Bool)
deriving DecidableEq, Inhabited

/-- A regular expression. A repetition without `most` is unbounded, and what a group captures is not
kept. -/
inductive Expr where
  | empty
  | chars (set : CharSet)
  | look (condition : Look)
  | seq (first second : Expr)
  | alt (first second : Expr)
  | rep (body : Expr) (least : Nat) (most : Option Nat)
  | capture (body : Expr)
deriving Inhabited

/-- A regular expression with the source it was read from. -/
structure Regex where
  source : String
  expr : Expr

/-- Whether there is a word character. -/
def isWordSide (unicode : Bool) (c : Option Char) : Bool :=
  c.any fun c => if unicode then isWordChar c else CharSet.asciiWord.mem c

/-- Whether a condition holds between two characters; at an end of the text one is missing. -/
def Look.holds (before after : Option Char) : Look → Bool
  | textStart => before.isNone
  | textEnd => after.isNone
  | lineStart false => before.all (· == '\n')
  | lineStart true => before.all fun c => c == '\n' || (c == '\r' && after != some '\n')
  | lineEnd false => after.all (· == '\n')
  | lineEnd true => after.all fun c => c == '\r' || (c == '\n' && before != some '\r')
  | wordBoundary u => isWordSide u before != isWordSide u after
  | noWordBoundary u => isWordSide u before == isWordSide u after
  | wordStart u => !isWordSide u before && isWordSide u after
  | wordEnd u => isWordSide u before && !isWordSide u after
  | wordStartHalf u => !isWordSide u before
  | wordEndHalf u => !isWordSide u after

/-- The positions of a text at which a condition holds, as a bit mask; `before` is the character
before the text. -/
def lookMask (condition : Look) : Option Char → List Char → Nat → Nat → Nat
  | before, [], position, mask =>
    if condition.holds before none then mask ||| 1 <<< position else mask
  | before, c :: rest, position, mask =>
    lookMask condition (some c) rest (position + 1)
      (if condition.holds before (some c) then mask ||| 1 <<< position else mask)

/-- The positions of a text at which a member of a set stands, as a bit mask. -/
def setMask (set : CharSet) : List Char → Nat → Nat → Nat
  | [], _, mask => mask
  | c :: rest, position, mask =>
    setMask set rest (position + 1) (if set.mem c then mask ||| 1 <<< position else mask)

/-- Applies a step on position sets until it changes nothing, at most `count` times. -/
def iterateStep (step : Nat → Nat) : Nat → Nat → Nat
  | 0, starts => starts
  | count + 1, starts =>
    let ends := step starts
    if ends = starts then starts else iterateStep step count ends

/-- The positions reached by at most `count` steps: `frontier` was reached last and `seen` holds
everything reached. -/
def spread (step : Nat → Nat) : Nat → Nat → Nat → Nat
  | 0, _, seen => seen
  | count + 1, frontier, seen =>
    let ends := step frontier
    let fresh := ends ^^^ (ends &&& seen)
    if fresh = 0 then seen else spread step count fresh (seen ||| fresh)

/-- A regular expression over one text: sets of characters and conditions have become the masks of
the positions where they hold. -/
inductive Plan where
  | empty
  | advance (mask : Nat)
  | stay (mask : Nat)
  | seq (first second : Plan)
  | alt (first second : Plan)
  | rep (body : Plan) (least most : Nat)

/-- The plan of an expression over a text. More than `text.length + 1` repetitions reach nothing
new. -/
def Expr.plan (text : List Char) : Expr → Plan
  | empty => .empty
  | chars set => .advance (setMask set text 0 0)
  | look condition => .stay (lookMask condition none text 0 0)
  | seq first second => .seq (first.plan text) (second.plan text)
  | alt first second => .alt (first.plan text) (second.plan text)
  | rep body least most =>
    let rounds := text.length + 1
    .rep (body.plan text) (min least rounds)
      ((most.map fun n => min (n - least) rounds).getD rounds)
  | capture body => body.plan text

/-- The positions where matches that begin in a set of positions may end. A repetition runs its
least number of rounds and then up to `most` more. -/
def Plan.reach : Plan → Nat → Nat
  | empty, starts => starts
  | advance mask, starts => (starts &&& mask) <<< 1
  | stay mask, starts => starts &&& mask
  | seq first second, starts => second.reach (first.reach starts)
  | alt first second, starts => first.reach starts ||| second.reach starts
  | rep body least most, starts =>
    let step := fun positions => body.reach positions
    let reached := iterateStep step least starts
    spread step most reached reached

/-- Whether a text contains a match, for the engine of this library. -/
def Regex.isMatch (r : Regex) (text : String) : Bool :=
  let chars := text.toList
  (r.expr.plan chars).reach (1 <<< (chars.length + 1) - 1) != 0

end ClauseMatch
