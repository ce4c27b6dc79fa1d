import ClauseMatch.Text.Category
import ClauseMatch.Text.GraphemeExtend

/-!
# Quoted text

A text is shown between double quotes. Tabs, line breaks, NUL, quotes and backslashes have short
escapes; a character that would not be seen or would attach to its neighbour is written as its
code point in hexadecimal; every other character stands for itself.
-/

namespace ClauseMatch

namespace Category

/-- Whether the characters of a category leave no mark of their own. -/
def isInvisible : Category → Bool
  | control | format | surrogate | privateUse | unassigned => true
  | spaceSeparator | lineSeparator | paragraphSeparator => true
  | _ => false

end Category

/-- Whether a character is a Hangul filler, a letter that is shown as nothing. -/
def isHangulFiller (c : Char) : Bool :=
  c == '\u115f' || c == '\u1160' || c == '\u3164' || c == '\uffa0'

/-- Whether a character would merge with the one before it. Modifier letters, such as the
halfwidth sound marks, extend a grapheme but have a width of their own. -/
def attaches (c : Char) : Bool :=
  isGraphemeExtend c && Category.of c != .modifierLetter

/-- Whether a character is shown by its code point: the printable part of ASCII never is. -/
def needsCodePoint (c : Char) : Bool :=
  if ' ' ≤ c ∧ c ≤ '~' then false
  else (Category.of c).isInvisible || isHangulFiller c || attaches c

/-- The code point escape of a character. -/
def codePointEscape (c : Char) : List Char :=
  '\\' :: 'u' :: '\x7b' :: (Nat.toDigits 16 c.toNat ++ ['\x7d'])

/-- How a character is written inside quotes. -/
def quotedChar (c : Char) : List Char :=
  match c with
  | '\t' => ['\\', 't']
  | '\r' => ['\\', 'r']
  | '\n' => ['\\', 'n']
  | '\x00' => ['\\', '0']
  | '"' => ['\\', '"']
  | '\\' => ['\\', '\\']
  | c => if needsCodePoint c then codePointEscape c else [c]

/-- A text between double quotes. -/
def quoted (text : String) : String :=
  String.ofList ('"' :: (text.toList.flatMap quotedChar ++ ['"']))

end ClauseMatch
