import ClauseMatch.Bitstring.Encoding
import ClauseMatch.Text.Blank

/-!
# Errors of bitstring literals

What can be wrong with a literal, where it is wrong, and how that is said. While a literal is
read, a fault is located by the source that remains from it on; a parse error gives the same place
as a byte offset.
-/

namespace ClauseMatch.Literal

/-- The names of segment types. Some conversions have two names. -/
inductive TypeName where
  | integer
  | float
  | bits
  | bitstring
  | binary
  | bytes
  | utf8
  | utf16
  | utf32
deriving DecidableEq, Inhabited

/-- The kinds of segment value that a source can spell. -/
inductive ValueKind where
  | integer
  | float
  | string
  | bits
deriving DecidableEq, Inhabited

/-- What a reader expected to find. -/
inductive Expectation where
  | opening
  | closing
  | closingParenthesis
  | segmentValue
  | segmentOption
deriving DecidableEq, Inhabited

/-- What is wrong with a literal. -/
inductive Fault where
  | expected (what : Expectation)
  | unterminatedText
  | invalidNumber (spelling : String)
  | unknownOption (option : String)
  | duplicateType
  | typeMismatch (value : ValueKind) (type : TypeName)
  | invalidCodePoint (code : Int64)
  | nested (cause : EncodeError)
  | trailingInput
deriving DecidableEq, Inhabited

/-- A fault and the source from its place on. -/
structure Failure where
  fault : Fault
  rest : List Char

/-- A fault and its byte offset in the source. -/
structure ParseError where
  fault : Fault
  pos : Nat
deriving DecidableEq, Inhabited

/-- The number of bytes of a text in UTF-8. -/
def byteLength (text : List Char) : Nat := text.foldl (fun n c => n + c.utf8Size) 0

/-- Gives the place of a failure as an offset from the start of the source. -/
def Failure.toParseError (source : List Char) (f : Failure) : ParseError :=
  ⟨f.fault, byteLength source - byteLength f.rest⟩

/-- Every type name with its spelling. -/
def TypeName.spellings : List (String × TypeName) :=
  [("integer", .integer), ("float", .float), ("bits", .bits), ("bitstring", .bitstring),
   ("binary", .binary), ("bytes", .bytes), ("utf8", .utf8), ("utf16", .utf16),
   ("utf32", .utf32)]

/-- The type with the given spelling. -/
def TypeName.ofText? (name : String) : Option TypeName := spellings.lookup name

/-- The spelling of a type name. -/
def TypeName.text : TypeName → String
  | integer => "integer"
  | float => "float"
  | bits => "bits"
  | bitstring => "bitstring"
  | binary => "binary"
  | bytes => "bytes"
  | utf8 => "utf8"
  | utf16 => "utf16"
  | utf32 => "utf32"

/-- How a kind of value is called. -/
def ValueKind.text : ValueKind → String
  | integer => "integer"
  | float => "float"
  | string => "string"
  | bits => "bitstring"

/-- How an expectation is called. -/
def Expectation.text : Expectation → String
  | opening => "<<"
  | closing => ">>"
  | closingParenthesis => ")"
  | segmentValue => "segment value"
  | segmentOption => "segment option"

/-- The wording of a parse error. -/
def ParseError.message (e : ParseError) : String :=
  let pos := toString e.pos
  match e.fault with
  | .expected what => "expected " ++ what.text ++ " at byte " ++ pos
  | .unterminatedText => "unterminated string starting at byte " ++ pos
  | .invalidNumber spelling => "invalid number `" ++ spelling ++ "` at byte " ++ pos
  | .unknownOption option => "unknown segment option `" ++ option ++ "` at byte " ++ pos
  | .duplicateType => "segment at byte " ++ pos ++ " declares more than one type"
  | .typeMismatch value type =>
    "a " ++ value.text ++ " value cannot be encoded as " ++ type.text ++ " (segment at byte " ++
      pos ++ ")"
  | .invalidCodePoint code =>
    toString code.toInt ++ " is not a valid codepoint (segment at byte " ++ pos ++ ")"
  | .nested cause => "nested bitstring at byte " ++ pos ++ ": " ++ cause.message
  | .trailingInput => "unexpected trailing input at byte " ++ pos

end ClauseMatch.Literal
