/-!
# Options of the encode command

The arguments of the encode command are a literal and options in any order. The first argument
that is no option is the literal. Unknown options, unknown formats and further arguments are
ignored with a warning.
-/

namespace ClauseMatch.Command

/-- How an encoded sequence is printed. -/
inductive OutputFormat where
  | decimal
  | hex
deriving DecidableEq, Inhabited

/-- The format with the given name. -/
def OutputFormat.ofName? (name : String) : Option OutputFormat :=
  match name with
  | "decimal" => some .decimal
  | "dec" => some .decimal
  | "hex" => some .hex
  | _ => none

/-- The name of a format. -/
def OutputFormat.name : OutputFormat → String
  | decimal => "decimal"
  | hex => "hex"

/-- How the encode command prints. -/
structure EncodeConfig where
  output : OutputFormat
  showSegments : Bool
deriving DecidableEq, Inhabited

/-- Decimal output without a listing of segments. -/
def EncodeConfig.default : EncodeConfig := ⟨.decimal, false⟩

/-- What the encode command was asked to do, and what it ignored. -/
structure EncodeRequest where
  literal : Option String
  config : EncodeConfig
  warnings : List String
deriving Inhabited

/-- The role of one argument. -/
inductive Argument where
  | format (chosen : OutputFormat)
  | unknownFormat (name : String)
  | segments
  | unknownOption
  | positional
deriving DecidableEq, Inhabited

/-- The text after a given beginning. -/
def textAfter? (beginning text : String) : Option String :=
  if beginning.toList.isPrefixOf text.toList then
    some (String.ofList (text.toList.drop beginning.length))
  else none

/-- The role that an argument has by its spelling. -/
def Argument.ofText (text : String) : Argument :=
  if text = "--hex" ∨ text = "-x" then .format .hex
  else
    match textAfter? "--format=" text with
    | some name =>
      match OutputFormat.ofName? name with
      | some chosen => .format chosen
      | none => .unknownFormat name
    | none =>
      if text = "--segments" ∨ text = "-s" then .segments
      else if (textAfter? "--" text).isSome then .unknownOption
      else .positional

namespace EncodeRequest

/-- The request of an empty argument list. -/
def initial : EncodeRequest := ⟨none, .default, []⟩

/-- Takes in one more argument. -/
def addArgument (r : EncodeRequest) (text : String) : EncodeRequest :=
  let warn (warning : String) : EncodeRequest := { r with warnings := r.warnings ++ [warning] }
  match Argument.ofText text with
  | .format chosen => { r with config := { r.config with output := chosen } }
  | .unknownFormat name =>
    warn ("warning: unknown output format '" ++ name ++ "', options: decimal, hex")
  | .segments => { r with config := { r.config with showSegments := true } }
  | .unknownOption => warn ("warning: unknown option '" ++ text ++ "'")
  | .positional =>
    match r.literal with
    | none => { r with literal := some text }
    | some _ => warn ("warning: ignoring extra argument '" ++ text ++ "'")

/-- The request of an argument list. -/
def ofArguments (args : List String) : EncodeRequest := args.foldl addArgument initial

end EncodeRequest

end ClauseMatch.Command
