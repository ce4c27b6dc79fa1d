import ClauseMatch.Command.Options
import ClauseMatch.Literal.Parser

/-!
# Encoding a literal

The encode command reads a literal, encodes it, and prints the encoded sequence, after a line for
each segment if the listing is asked for.
-/

namespace ClauseMatch.Command

/-- Why a literal could not be printed encoded. -/
inductive EncodeFailure where
  | parse (cause : Literal.ParseError)
  | encode (cause : EncodeError)
deriving DecidableEq, Inhabited

/-- The wording of a failure, which names its stage. -/
def EncodeFailure.message : EncodeFailure → String
  | parse cause => "parse error: " ++ cause.message
  | encode cause => "encode error: " ++ cause.message

/-- Two lower-case hexadecimal digits. -/
def hexByte (byte : UInt8) : String :=
  let digits := Nat.toDigits 16 byte.toNat
  String.ofList (List.replicate (2 - digits.length) '0' ++ digits)

/-- A bitstring in an output format. Only bytes can be shown in hexadecimal. -/
def render (format : OutputFormat) (bits : Bitstring) : Except EncodeError String :=
  match format with
  | .decimal => .ok bits.text
  | .hex => bits.toBytes.map fun bytes => " ".intercalate (bytes.map hexByte)

/-- The line that lists one segment and its own encoding. -/
def segmentLine (format : OutputFormat) (index : Nat) (s : Segment) :
    Except EncodeError String := do
  let bits ← Bitstring.ofSegments [s]
  let shown ← render format bits
  .ok (toString index ++ ": " ++ s.text ++ " => " ++ shown ++ "\n")

/-- The lines that list segments, counted from `index`, after what has been printed. -/
def listSegments (format : OutputFormat) :
    Nat → List Segment → String → Except EncodeError String
  | _, [], out => .ok out
  | index, s :: rest, out =>
    match segmentLine format index s with
    | .error cause => .error cause
    | .ok line => listSegments format (index + 1) rest (out ++ line)

/-- The output for the segments of a literal. -/
def encodeSegments (config : EncodeConfig) (segments : List Segment) :
    Except EncodeError String := do
  let listing ← if config.showSegments then listSegments config.output 0 segments "" else .ok ""
  let bits ← Bitstring.ofSegments segments
  let shown ← render config.output bits
  .ok (listing ++ shown)

/-- The output for the source of a literal. -/
def encodeLiteral (config : EncodeConfig) (source : String) : Except EncodeFailure String :=
  match Literal.parse source with
  | .error cause => .error (.parse cause)
  | .ok segments => (encodeSegments config segments).mapError .encode

end ClauseMatch.Command
