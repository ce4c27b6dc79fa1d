import ClauseMatch.Value.Basic

/-!
# The text of values

Values are written in two styles that differ only in their words and brackets: one for readers,
and one that names the constructors. Items and fields are separated by commas. Writing appends to
the text written so far.
-/

namespace ClauseMatch

/-- The words and brackets of a style of writing values. `scalar` is asked only about values
without items or fields. -/
structure ValueStyle where
  scalar : Value → String
  listOpen : String
  listClose : String
  tupleOpen : String
  tupleClose : String
  objectOpen : Atom → String
  objectClose : String
  key : Atom → String

/-- The opening bracket of an object, which names the tag unless the object is plain. -/
def objectBracket (tag : Atom) : String :=
  if tag = Atom.object then "%\x7b" else "%" ++ tag.name ++ "\x7b"

/-- The words `true` and `false`. -/
def boolText (b : Bool) : String := if b then "true" else "false"

namespace ValueStyle

/-- The style for readers. -/
def plain : ValueStyle where
  scalar
    | .nil => "nil"
    | .bool b => boolText b
    | .int n => toString n.toInt
    | .float x => x.text
    | .atom a => ":" ++ a.name
    | .str text => quoted text
    | .bitstring bits => bits.text
    | _ => ""
  listOpen := "["
  listClose := "]"
  tupleOpen := "\x7b"
  tupleClose := "\x7d"
  objectOpen := objectBracket
  objectClose := "\x7d"
  key a := a.name ++ ": "

/-- The style that names constructors. -/
def constructors : ValueStyle where
  scalar
    | .nil => "Nil"
    | .bool b => "Bool(" ++ boolText b ++ ")"
    | .int n => "Int(" ++ toString n.toInt ++ ")"
    | .float x => "Float(" ++ x.text ++ ")"
    | .atom a => a.debugText
    | .str text => "Str(" ++ quoted text ++ ")"
    | .bitstring bits => "Bitstring(" ++ bits.text ++ ")"
    | _ => ""
  listOpen := "List(["
  listClose := "])"
  tupleOpen := "Tuple(["
  tupleClose := "])"
  objectOpen tag := "Object(" ++ tag.name ++ ", \x7b"
  objectClose := "\x7d)"
  key a := a.debugText ++ ": "

end ValueStyle

namespace Value

mutual

/-- Appends a value to a text. -/
def write (style : ValueStyle) : Value → String → String
  | .list items, out => writeItems style items (out ++ style.listOpen) ++ style.listClose
  | .tuple items, out => writeItems style items (out ++ style.tupleOpen) ++ style.tupleClose
  | .object tag fields, out =>
    writeFields style fields (out ++ style.objectOpen tag) ++ style.objectClose
  | .nil, out => out ++ style.scalar .nil
  | .bool b, out => out ++ style.scalar (.bool b)
  | .int n, out => out ++ style.scalar (.int n)
  | .float x, out => out ++ style.scalar (.float x)
  | .atom a, out => out ++ style.scalar (.atom a)
  | .str text, out => out ++ style.scalar (.str text)
  | .bitstring bits, out => out ++ style.scalar (.bitstring bits)

/-- Appends items to a text, separated by commas. -/
def writeItems (style : ValueStyle) : List Value → String → String
  | [], out => out
  | [v], out => write style v out
  | v :: vs, out => writeItems style vs (write style v out ++ ", ")

/-- Appends fields to a text, separated by commas. -/
def writeFields (style : ValueStyle) : List (Atom × Value) → String → String
  | [], out => out
  | [(key, v)], out => write style v (out ++ style.key key)
  | (key, v) :: fields, out =>
    writeFields style fields (write style v (out ++ style.key key) ++ ", ")

end

/-- The text of a value for readers. -/
def text (v : Value) : String := write .plain v ""

/-- The text of a value that names its constructors. -/
def debugText (v : Value) : String := write .constructors v ""

end Value

end ClauseMatch
