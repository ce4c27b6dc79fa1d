import ClauseMatch.Regex.Escape

/-!
# Bracketed character classes

A class in brackets lists characters, ranges and other classes, and may combine such lists by
intersection, difference and symmetric difference, from left to right. Reading a class also gives
its height, the depth to which its syntax nests.
-/

namespace ClauseMatch.RegexSyntax

/-- A set with the height of its syntax. -/
structure HeightSet where
  set : CharSet
  height : Nat

/-- The items of a class listed so far. -/
structure ClassItems where
  set : CharSet
  count : Nat
  height : Nat

/-- No items. -/
def ClassItems.none : ClassItems := ⟨.empty, 0, 0⟩

/-- Adds an item. -/
def ClassItems.add (items : ClassItems) (set : CharSet) (height : Nat) : ClassItems :=
  ⟨.union items.set set, items.count + 1, max items.height height⟩

/-- The list as one operand; a list of several items is one level higher than they are. -/
def ClassItems.operand (items : ClassItems) : HeightSet :=
  ⟨items.set, if items.count < 2 then items.height else items.height + 1⟩

/-- A way to combine two sets. -/
inductive ClassOp where
  | inter
  | diff
  | symmDiff

/-- Combines two sets. -/
def ClassOp.apply : ClassOp → CharSet → CharSet → CharSet
  | inter => .inter
  | diff => .diff
  | symmDiff => .symmDiff

/-- Completes a pending combination, both sides closed under case if the flags say so. -/
def combine (flags : Flags) (pending : Option (ClassOp × HeightSet)) (items : ClassItems) :
    HeightSet :=
  let right := items.operand
  match pending with
  | none => right
  | some (op, left) =>
    ⟨op.apply (flags.fold left.set) (flags.fold right.set), max left.height right.height + 1⟩

/-- Reads a named ASCII class; the source begins after its opening bracket. -/
def readAsciiClass (flags : Flags) (source : List Char) :
    Option (Option CharSet × List Char) :=
  match source with
  | ':' :: rest =>
    let (negated, rest) :=
      match rest with
      | '^' :: rest => (true, rest)
      | _ => (false, rest)
    match rest.dropWhile (· ≠ ':') with
    | ':' :: ']' :: after =>
      (CharSet.asciiClasses.lookup (String.ofList (rest.takeWhile (· ≠ ':')))).map fun set =>
        let set := flags.fold set
        (if negated then flags.complement? set else some set, after)
    | _ => none
  | _ => none

/-- Whether a character written in a class is allowed: without Unicode only ASCII is. -/
def Flags.allowsInClass (flags : Flags) (c : Char) : Bool := flags.unicode || c.toNat < 0x80

/-- Reads one character or class of a list. -/
def readClassItem (flags : Flags) (source : List Char) : Option (Escaped × List Char) :=
  match source with
  | [] => none
  | '\\' :: rest => readEscape flags rest
  | c :: rest => some (.char c false, rest)

/-- What stands after a dash and so decides whether it makes a range. In verbose mode blanks are
passed over, and so is the number sign of a comment, but the text of the comment is not. -/
def Flags.peek? (flags : Flags) (source : List Char) : Option Char :=
  if flags.verbose then
    let visible :=
      match source.dropWhile isBlank with
      | '#' :: rest => rest.dropWhile isBlank
      | rest => rest
    visible.head?.or source.head?
  else source.head?

/-- Reads a character, a range or an escaped class of a list. -/
def readClassRange (flags : Flags) (source : List Char) : Option (CharSet × List Char) := do
  let (first, rest) ← readClassItem flags source
  let rest := flags.skip rest
  let isRange :=
    match rest with
    | '-' :: after => flags.peek? after != some ']' && flags.peek? after != some '-'
    | _ => false
  match rest with
  | [] => none
  | _ :: after =>
    if isRange then
      let (last, rest) ← readClassItem flags (flags.skip after)
      match first, last with
      | .char a _, .char b _ =>
        if a ≤ b && flags.allowsInClass a && flags.allowsInClass b then
          some (.ranges [(a.toNat, b.toNat)], rest)
        else none
      | _, _ => none
    else
      match first with
      | .char c _ => if flags.allowsInClass c then some (.single c, rest) else none
      | .set set => some (set, rest)
      | .look _ => none

/-- Reads leading dashes, which stand for themselves. -/
def readDashes (flags : Flags) : Nat → ClassItems → List Char → ClassItems × List Char
  | 0, items, source => (items, source)
  | fuel + 1, items, source =>
    match source with
    | '-' :: rest => readDashes flags fuel (items.add (.single '-') 0) (flags.skip rest)
    | _ => (items, source)

/-- Reads the beginning of a class: a caret that negates it, dashes, or a closing bracket that
stands for itself. -/
def openClass (flags : Flags) (source : List Char) : Bool × ClassItems × List Char :=
  let source := flags.skip source
  let (negated, source) :=
    match source with
    | '^' :: rest => (true, flags.skip rest)
    | _ => (false, source)
  let (items, source) := readDashes flags source.length .none source
  match items.count, source with
  | 0, ']' :: rest => (negated, items.add (.single ']') 0, flags.skip rest)
  | _, _ => (negated, items, source)

/-- A class that is still open: whether it is negated, the combination that waits for its right
side, and the items listed since. -/
structure OpenClass where
  negated : Bool
  pending : Option (ClassOp × HeightSet)
  items : ClassItems

/-- The set of a class that closes. -/
def OpenClass.close (flags : Flags) (c : OpenClass) : Option HeightSet := do
  let whole := combine flags c.pending c.items
  let folded := flags.fold whole.set
  let set ← if c.negated then flags.complement? folded else some folded
  some ⟨set, whole.height + 1⟩

/-- Reads on inside the open class `current`, which lies in the open classes `outer`, nearest
first; `fuel` is at least the length of the source. -/
def readClass (flags : Flags) : Nat → OpenClass → List OpenClass → List Char →
    Option (HeightSet × List Char)
  | 0, _, _, _ => none
  | fuel + 1, current, outer, source =>
    let combineWith (op : ClassOp) (rest : List Char) : Option (HeightSet × List Char) :=
      let left := combine flags current.pending current.items
      readClass flags fuel { current with pending := some (op, left), items := .none } outer rest
    match flags.skip source with
    | [] => none
    | '[' :: rest =>
      match readAsciiClass flags rest with
      | some (set?, rest) =>
        match set? with
        | none => none
        | some set =>
          readClass flags fuel { current with items := current.items.add set 0 } outer rest
      | none =>
        let (negated, items, rest) := openClass flags rest
        readClass flags fuel ⟨negated, none, items⟩ (current :: outer) rest
    | ']' :: rest =>
      match current.close flags, outer with
      | none, _ => none
      | some whole, [] => some (whole, rest)
      | some whole, parent :: outer =>
        let parent := { parent with items := parent.items.add whole.set whole.height }
        readClass flags fuel parent outer rest
    | '&' :: '&' :: rest => combineWith .inter rest
    | '-' :: '-' :: rest => combineWith .diff rest
    | '~' :: '~' :: rest => combineWith .symmDiff rest
    | source =>
      match readClassRange flags source with
      | none => none
      | some (set, rest) =>
        readClass flags fuel { current with items := current.items.add set 0 } outer rest

/-- Reads a class; the source begins after its opening bracket. -/
def readBracket (flags : Flags) (source : List Char) : Option (HeightSet × List Char) :=
  let (negated, items, rest) := openClass flags source
  readClass flags (rest.length + 1) ⟨negated, none, items⟩ [] rest

end ClauseMatch.RegexSyntax
