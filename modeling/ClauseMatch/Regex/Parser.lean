import ClauseMatch.Regex.Bracket
import ClauseMatch.Regex.Weight
import ClauseMatch.Text.Alphabetic

/-!
# Reading regular expressions

An expression is a list of alternatives, each a sequence of items; groups nest. The reader keeps
the groups that are still open in a list. Expressions whose syntax nests too deeply are refused, as
are look-around and back references, which are not part of the language, and properties of
characters for which there is no table here.
-/

namespace ClauseMatch.RegexSyntax

/-- The greatest height of an expression. -/
def heightLimit : Nat := 250

/-- One item of a sequence: its expression, its height, and whether it can be repeated. -/
structure Item where
  expr : Expr
  height : Nat
  repeatable : Bool

/-- The expression of a group or of the whole text with its height. -/
structure HeightExpr where
  expr : Expr
  height : Nat

/-- The part of a group read so far, latest first: finished alternatives, and the items of the
alternative that is being read. -/
structure Partial where
  alternatives : List HeightExpr
  items : List Item

/-- Nothing read yet. -/
def Partial.start : Partial := ⟨[], []⟩

/-- Adds an item. -/
def Partial.add (p : Partial) (item : Item) : Partial := { p with items := item :: p.items }

/-- The sequence of items that are given latest first; `last` follows them. -/
def sequenceOf : List Item → Expr → Expr
  | [], last => last
  | item :: before, last => sequenceOf before (.seq item.expr last)

/-- An alternative as one expression. -/
def alternativeOf : List Item → HeightExpr
  | [] => ⟨.empty, 0⟩
  | [item] => ⟨item.expr, item.height⟩
  | last :: before =>
    ⟨sequenceOf before last.expr,
      (last :: before).foldl (fun height item => max height item.height) 0 + 1⟩

/-- Ends the alternative that is being read. -/
def Partial.nextAlternative (p : Partial) : Partial :=
  ⟨alternativeOf p.items :: p.alternatives, []⟩

/-- Everything read as one expression. -/
def Partial.finish (p : Partial) : HeightExpr :=
  let last := alternativeOf p.items
  match p.alternatives with
  | [] => last
  | alternatives =>
    ⟨alternatives.foldl (fun expr before => .alt before.expr expr) last.expr,
      alternatives.foldl (fun height before => max height before.height) last.height + 1⟩

/-- A group that is still open: what was read before it, the flags to return to, and whether it
captures what it matches. -/
structure OpenGroup where
  before : Partial
  flags : Flags
  captures : Bool

/-- Reads flag letters up to a colon or a closing parenthesis. `used` holds the letters so far and
`negating` says whether a dash came before; `fresh` says that nothing followed the dash yet. -/
def readFlags : List Char → Flags → List Char → Bool → Bool → Option (Flags × List Char × List Char)
  | [], _, _, _, _ => none
  | c :: rest, flags, used, negating, fresh =>
    if c = ':' ∨ c = ')' then
      if fresh then none else some (flags, used, c :: rest)
    else if used.contains c then none
    else if c = '-' then readFlags rest flags (c :: used) true true
    else
      match flags.set? c (!negating) with
      | some flags => readFlags rest flags (c :: used) negating false
      | none => none

/-- Whether a character can stand in the name of a group, or at its start. -/
def isGroupNameChar (atStart : Bool) (c : Char) : Bool :=
  if atStart then c == '_' || isAlphabetic c
  else c == '_' || c == '.' || c == '[' || c == ']' || isAlphanumeric c

/-- Reads the name of a group and the angle bracket after it. -/
def readGroupName (source : List Char) : Option (String × List Char) :=
  let name := source.takeWhile (· ≠ '>')
  match name, source.dropWhile (· ≠ '>') with
  | first :: more, _ :: rest =>
    if isGroupNameChar true first && more.all (isGroupNameChar false) then
      some (String.ofList name, rest)
    else none
  | _, _ => none

/-- What an opening parenthesis begins. A group with a name captures what it matches. -/
inductive Opening where
  | group (flags : Flags) (captures : Bool) (name : Option String)
  | flags (flags : Flags)

/-- Reads the beginning of a group; the source begins after its parenthesis. -/
def readOpening (flags : Flags) (source : List Char) : Option (Opening × List Char) :=
  match flags.skip source with
  | '?' :: '=' :: _ => none
  | '?' :: '!' :: _ => none
  | '?' :: '<' :: '=' :: _ => none
  | '?' :: '<' :: '!' :: _ => none
  | '?' :: 'P' :: '<' :: rest => do
    let (name, rest) ← readGroupName rest
    some (.group flags true (some name), rest)
  | '?' :: '<' :: rest => do
    let (name, rest) ← readGroupName rest
    some (.group flags true (some name), rest)
  | '?' :: rest => do
    let (changed, used, rest) ← readFlags rest flags [] false false
    match rest with
    | ':' :: rest => some (.group changed false none, rest)
    | _ :: rest => if used.isEmpty then none else some (.flags changed, rest)
    | [] => none
  | rest => some (.group flags true none, rest)

/-- The character as an item, in either case if the flags say so. Without Unicode a byte beyond
ASCII is no character. -/
def charItem (flags : Flags) (c : Char) (isByte : Bool) : Option Item :=
  if !flags.unicode && c.toNat ≥ 0x80 && isByte then none
  else some ⟨.chars (flags.fold (.single c)), 0, true⟩

/-- The item of an unescaped character other than brackets and repetitions. -/
def plainItem (flags : Flags) (c : Char) : Option Item :=
  let look (condition : Look) : Option Item := some ⟨.look condition, 0, true⟩
  match c with
  | '^' => look (if flags.multiLine then .lineStart flags.crlf else .textStart)
  | '$' => look (if flags.multiLine then .lineEnd flags.crlf else .textEnd)
  | '.' =>
    if !flags.unicode then none
    else
      let set : CharSet :=
        if flags.dotAll then .all
        else if flags.crlf then .complement (.union (.single '\r') (.single '\n'))
        else .complement (.single '\n')
      some ⟨.chars set, 0, true⟩
  | c => charItem flags c false

/-- The item of an escape. -/
def escapedItem (flags : Flags) : Escaped → Option Item
  | .char c isByte => charItem flags c isByte
  | .set set => some ⟨.chars set, 0, true⟩
  | .look condition => some ⟨.look condition, 0, true⟩

/-- Repeats the item read last. -/
def Partial.repeatLast (p : Partial) (least : Nat) (most : Option Nat) : Option Partial :=
  match p.items with
  | [] => none
  | item :: before =>
    if item.repeatable then
      some { p with items := ⟨.rep item.expr least most, item.height + 1, true⟩ :: before }
    else none

/-- The source after a question mark, which makes a repetition lazy. -/
def skipLazy : List Char → List Char
  | '?' :: rest => rest
  | rest => rest

/-- Reads digits, between which blanks and comments may stand in verbose mode; `done` holds those
before, latest first, and `fuel` is at least the length of the source. -/
def readDigits (flags : Flags) : Nat → List Char → List Char → List Char × List Char
  | 0, source, done => (done.reverse, source)
  | fuel + 1, source, done =>
    match source with
    | [] => (done.reverse, [])
    | c :: rest =>
      if c.isDigit then readDigits flags fuel (flags.skip rest) (c :: done)
      else (done.reverse, source)

/-- Reads a 32-bit number with blanks around it allowed; gives none if there are no digits. -/
def readBound (flags : Flags) (source : List Char) : Option (Option Nat × List Char) :=
  let source := skipBlank source
  let (digits, rest) := readDigits flags source.length source []
  let rest := skipBlank rest
  if digits.isEmpty then some (none, rest)
  else
    let n := natOfDigits 10 digits
    if n < UInt32.size then some (some n, rest) else none

/-- Reads the bounds of a repetition; the source begins after the opening brace. -/
def readBounds (flags : Flags) (source : List Char) :
    Option (Nat × Option Nat × List Char) := do
  let (least?, rest) ← readBound flags (flags.skip source)
  let least ← least?
  let (most, rest) ←
    match rest with
    | ',' :: rest =>
      match flags.skip rest with
      | '\x7d' :: rest => some (none, '\x7d' :: rest)
      | rest => do
        let (most?, rest) ← readBound flags rest
        let most ← most?
        some (some most, rest)
    | rest => some (some least, rest)
  match rest with
  | '\x7d' :: rest => if most.all (least ≤ ·) then some (least, most, rest) else none
  | _ => none

/-- Reads an expression from inside the groups `outer`, nearest first. `names` holds the group
names in use, and `fuel` is at least the length of the source. -/
def readExpr : Nat → Flags → Partial → List OpenGroup → List String → List Char →
    Option HeightExpr
  | 0, _, _, _, _, _ => none
  | fuel + 1, flags, current, outer, names, source =>
    let repeatWith (least : Nat) (most : Option Nat) (rest : List Char) : Option HeightExpr :=
      match current.repeatLast least most with
      | none => none
      | some current => readExpr fuel flags current outer names (skipLazy rest)
    let continueWith (item : Option Item) (rest : List Char) : Option HeightExpr :=
      match item with
      | none => none
      | some item => readExpr fuel flags (current.add item) outer names rest
    match flags.skip source with
    | [] => if outer.isEmpty then some current.finish else none
    | '(' :: rest =>
      match readOpening flags rest with
      | none => none
      | some (.flags changed, rest) =>
        readExpr fuel changed (current.add ⟨.empty, 0, false⟩) outer names rest
      | some (.group inside captures name, rest) =>
        if outer.length ≥ heightLimit ∨ name.any names.contains then none
        else
          readExpr fuel inside .start (⟨current, flags, captures⟩ :: outer) (name.toList ++ names)
            rest
    | ')' :: rest =>
      match outer with
      | [] => none
      | group :: outer =>
        let inside := current.finish
        let expr := if group.captures then .capture inside.expr else inside.expr
        let item : Item := ⟨expr, inside.height + 1, true⟩
        readExpr fuel group.flags (group.before.add item) outer names rest
    | '|' :: rest => readExpr fuel flags current.nextAlternative outer names rest
    | '[' :: rest =>
      match readBracket flags rest with
      | none => none
      | some (whole, rest) => continueWith (some ⟨.chars whole.set, whole.height, true⟩) rest
    | '?' :: rest => repeatWith 0 (some 1) rest
    | '*' :: rest => repeatWith 0 none rest
    | '+' :: rest => repeatWith 1 none rest
    | '\x7b' :: rest =>
      match readBounds flags rest with
      | none => none
      | some (least, most, rest) => repeatWith least most (flags.skip rest)
    | '\\' :: rest =>
      match readEscape flags rest with
      | none => none
      | some (escaped, rest) => continueWith (escapedItem flags escaped) rest
    | c :: rest => continueWith (plainItem flags c) rest

end ClauseMatch.RegexSyntax

namespace ClauseMatch

/-- Reads a regular expression; malformed ones are refused, and so are those that nest too deeply,
would take too much memory or name a property without a table. -/
def Regex.ofSource? (source : String) : Option Regex :=
  let chars := source.toList
  match RegexSyntax.readExpr (chars.length + 1) .initial .start [] [] chars with
  | some whole =>
    if whole.height ≤ RegexSyntax.heightLimit ∧ whole.expr.weight ≤ Expr.weightLimit then
      some ⟨source, whole.expr⟩
    else none
  | none => none

end ClauseMatch
