import ClauseMatch.Pattern.Basic

/-!
# The text of patterns

Patterns are written like the values they match, with signs for what they bind.
-/

namespace ClauseMatch

namespace Pattern

mutual

/-- Appends a pattern to a text. -/
def write : Pattern → String → String
  | .wildcard, out => out ++ "_"
  | .bound expected, out => expected.write .plain (out ++ "^")
  | .parameter, out => out ++ "$"
  | .headTail, out => out ++ "[$ | $]"
  | .startsWith beginning, out => out ++ quoted beginning ++ " <> $"
  | .capture inner, out => write inner (out ++ "(") ++ ") = $"
  | .literal expected, out => expected.write .plain out
  | .regex expression, out => out ++ "~r/" ++ expression.source ++ "/"
  | .typeTag tag, out => out ++ tag.text ++ "()"
  | .array items, out => writeItems items (out ++ "[") ++ "]"
  | .object tag fields, out => writeFields fields (out ++ objectBracket tag) ++ "\x7d"
  | .symbol name, out => out ++ ":" ++ name.name
  | .tuple items, out => writeItems items (out ++ "\x7b") ++ "\x7d"

/-- Appends patterns to a text, separated by commas. -/
def writeItems : List Pattern → String → String
  | [], out => out
  | [p], out => write p out
  | p :: ps, out => writeItems ps (write p out ++ ", ")

/-- Appends fields to a text, separated by commas. -/
def writeFields : List (Atom × Pattern) → String → String
  | [], out => out
  | [(key, p)], out => write p (out ++ key.name ++ ": ")
  | (key, p) :: fields, out => writeFields fields (write p (out ++ key.name ++ ": ") ++ ", ")

end

/-- The text of a pattern. -/
def text (p : Pattern) : String := write p ""

/-- The text of a pattern as that of the matcher it stands for. -/
def matcherText (p : Pattern) : String := "Matcher(" ++ p.text ++ ")"

end Pattern

end ClauseMatch
