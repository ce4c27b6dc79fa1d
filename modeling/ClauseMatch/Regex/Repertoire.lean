import ClauseMatch.Text.CaseFolding
import ClauseMatch.Text.Category

/-!
# The repertoire of regular expressions

Texts are shown by version 17 of the Unicode character database, but regular expressions go by
version 16. The characters that version 17 added are unassigned for them: such a character is
no letter, mark or digit, and it has no other case.
-/

namespace ClauseMatch

/-- The ranges that version 17 of the character database assigned. -/
def laterLines : List String :=
  ["88f c5c cdc 1acf-1add 1ae0-1aeb 20c1 2b96 a7ce-a7cf a7d2 a7d4 a7f1 fbc3-fbd2 fd90-fd91",
   "fdc8-fdce 10940-10959 10ec5-10ec7 10ed0-10ed8 10efa-10efb 11b60-11b67 11db0-11ddb",
   "11de0-11de9 16ea0-16eb8 16ebb-16ed3 16ff2-16ff6 187f8-187ff 18d09-18d1e 18d80-18df2",
   "1ccfa-1ccfc 1ceba-1ced0 1cee0-1cef0 1e6c0-1e6de 1e6e0-1e6f5 1e6fe-1e6ff 1f6d8 1f777-1f77a",
   "1f8d0-1f8d8 1fa54-1fa57 1fa8a 1fa8e 1fac8 1facd 1faea 1faef 1fbfa 2b73a-2b73f 2cea2-2cead",
   "323b0-33479"]

/-- The ranges that version 17 assigned in ascending order. -/
def laterTable : Array (CodeRange Unit) := CodeRange.tableOfLines (fun _ => ()) laterLines

/-- Whether a code point was assigned too late for regular expressions. -/
def isLater (n : Nat) : Bool := (CodeRange.find? laterTable n).isSome

/-- The category of a character for regular expressions. The letter `ʕ` ceased to count as lower
case only when a pair of letters with case was added beside it. -/
def knownCategory (c : Char) : Category :=
  if isLater c.toNat then .unassigned
  else if c = 'ʕ' then .lowercaseLetter
  else Category.of c

/-- The case class of a code point for regular expressions. -/
def knownCaseClass (n : Nat) : List Nat :=
  if isLater n then [n] else (caseClass n).filter fun m => !isLater m

end ClauseMatch
