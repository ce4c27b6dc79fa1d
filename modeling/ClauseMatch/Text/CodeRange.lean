/-!
# Tables of code point ranges

Properties of characters are kept as sorted tables of labelled code point ranges. A table is
written as text, one range per word: the first code point in hexadecimal, a dash and the last one
unless the range has a single member, and then the label.
-/

namespace ClauseMatch

/-- The code points from `first` to `last`, with what the table says about them. -/
structure CodeRange (α : Type) where
  first : Nat
  last : Nat
  label : α
deriving Inhabited

/-- Splits off the lower-case hexadecimal number at the head of a text. -/
def hexHead : List Char → Nat → Nat × List Char
  | [], n => (n, [])
  | c :: rest, n =>
    if '0' ≤ c ∧ c ≤ '9' then hexHead rest (n * 16 + (c.toNat - '0'.toNat))
    else if 'a' ≤ c ∧ c ≤ 'f' then hexHead rest (n * 16 + (c.toNat - 'a'.toNat + 10))
    else (n, c :: rest)

namespace CodeRange

variable {α : Type}

/-- Reads one word of a table, given what a written label means. -/
def ofWord (readLabel : String → α) (word : String) : CodeRange α :=
  let (first, rest) := hexHead word.toList 0
  match rest with
  | '-' :: rest =>
    let (last, label) := hexHead rest 0
    ⟨first, last, readLabel (String.ofList label)⟩
  | label => ⟨first, first, readLabel (String.ofList label)⟩

/-- Reads a whole table, given its lines. -/
def tableOfLines (readLabel : String → α) (lines : List String) : Array (CodeRange α) :=
  ((lines.flatMap fun line => line.splitOn " ").map (ofWord readLabel)).toArray

/-- The range of a sorted table that holds `n`, looked for between two indices. -/
def findBetween? (table : Array (CodeRange α)) (n low high : Nat) : Option (CodeRange α) :=
  if _h : low < high then
    let middle := low + (high - low) / 2
    match table[middle]? with
    | none => none
    | some range =>
      if n < range.first then findBetween? table n low middle
      else if range.last < n then findBetween? table n (middle + 1) high
      else some range
  else none
termination_by high - low
decreasing_by all_goals omega

/-- The range of a sorted table that holds `n`. -/
def find? (table : Array (CodeRange α)) (n : Nat) : Option (CodeRange α) :=
  findBetween? table n 0 table.size

end CodeRange

end ClauseMatch
