import ClauseMatch.Regex.Repertoire
import ClauseMatch.Text.Blank

/-!
# Sets of characters

The sets that regular expressions are built from: ranges, classes of Unicode and their
combinations, and the closure of a set under case.
-/

namespace ClauseMatch

/-- A set of characters. -/
inductive CharSet where
  | ranges (rs : List (Nat × Nat))
  | categories (cs : List Category)
  | blank
  | word
  | union (a b : CharSet)
  | inter (a b : CharSet)
  | diff (a b : CharSet)
  | symmDiff (a b : CharSet)
  | complement (a : CharSet)
  /-- Everything that differs from a member only by case. -/
  | caseClosure (a : CharSet)
  /-- Everything that differs from a member only by the case of an ASCII letter. -/
  | asciiCaseClosure (a : CharSet)
deriving Inhabited

namespace Category

/-- The categories whose characters all belong to words. -/
def ofWords : List Category :=
  letters ++ marks ++ [.letterNumber, .decimalNumber, .connectorPunctuation]

end Category

/-- Alphabetic symbols and joiners: what belongs to words beyond the categories that do. -/
def extraWordRanges : List (Nat × Nat) :=
  [(0x200C, 0x200D), (0x24B6, 0x24E9), (0x1F130, 0x1F149), (0x1F150, 0x1F169),
   (0x1F170, 0x1F189)]

/-- Whether a code point lies in one of some ranges. -/
def inRanges (rs : List (Nat × Nat)) (n : Nat) : Bool := rs.any fun r => r.1 ≤ n && n ≤ r.2

/-- Whether a character belongs to words: letters, marks, decimal digits, connectors, alphabetic
symbols and joiners. -/
def isWordChar (c : Char) : Bool :=
  Category.ofWords.contains (knownCategory c) || inRanges extraWordRanges c.toNat

/-- The ASCII letter that differs by case, or the character itself. -/
def swapAsciiCase (c : Char) : Char :=
  if c.isLower then c.toUpper else c.toLower

namespace CharSet

/-- The set of one character. -/
def single (c : Char) : CharSet := ranges [(c.toNat, c.toNat)]

/-- The set without members. -/
def empty : CharSet := ranges []

/-- All characters. -/
def all : CharSet := ranges [(0, 0x10FFFF)]

/-- Membership. -/
def mem : CharSet → Char → Bool
  | ranges rs, c => inRanges rs c.toNat
  | categories cs, c => cs.contains (knownCategory c)
  | blank, c => isBlank c
  | word, c => isWordChar c
  | union a b, c => a.mem c || b.mem c
  | inter a b, c => a.mem c && b.mem c
  | diff a b, c => a.mem c && !b.mem c
  | symmDiff a b, c => a.mem c != b.mem c
  | complement a, c => !a.mem c
  | caseClosure a, c => (knownCaseClass c.toNat).any fun n => a.mem (Char.ofNat n)
  | asciiCaseClosure a, c => a.mem c || a.mem (swapAsciiCase c)

/-- The ASCII digits. -/
def asciiDigit : CharSet := ranges [(0x30, 0x39)]

/-- The ASCII white space of regular expressions. -/
def asciiBlank : CharSet := ranges [(0x09, 0x0D), (0x20, 0x20)]

/-- The ASCII letters, digits and underscore. -/
def asciiWord : CharSet := ranges [(0x30, 0x39), (0x41, 0x5A), (0x5F, 0x5F), (0x61, 0x7A)]

/-- The named ASCII classes. -/
def asciiClasses : List (String × CharSet) :=
  [("alnum", ranges [(0x30, 0x39), (0x41, 0x5A), (0x61, 0x7A)]),
   ("alpha", ranges [(0x41, 0x5A), (0x61, 0x7A)]),
   ("ascii", ranges [(0x00, 0x7F)]),
   ("blank", ranges [(0x09, 0x09), (0x20, 0x20)]),
   ("cntrl", ranges [(0x00, 0x1F), (0x7F, 0x7F)]),
   ("digit", asciiDigit),
   ("graph", ranges [(0x21, 0x7E)]),
   ("lower", ranges [(0x61, 0x7A)]),
   ("print", ranges [(0x20, 0x7E)]),
   ("punct", ranges [(0x21, 0x2F), (0x3A, 0x40), (0x5B, 0x60), (0x7B, 0x7E)]),
   ("space", asciiBlank),
   ("upper", ranges [(0x41, 0x5A)]),
   ("word", asciiWord),
   ("xdigit", ranges [(0x30, 0x39), (0x41, 0x46), (0x61, 0x66)])]

end CharSet

end ClauseMatch
