import ClauseMatch.Command.Encode

/-!
# The command line

What a run of the program prints and how it exits, as a function of its arguments.
-/

namespace ClauseMatch.Command

/-- The effect of a run: its exit code and what it writes. -/
structure Outcome where
  exitCode : Nat
  stdout : String
  stderr : String
deriving DecidableEq, Inhabited

/-- Lines of text, each ended by a line break. -/
def unlines (lines : List String) : String := String.join (lines.map (· ++ "\n"))

/-- The version of the program. -/
def version : String := "0.1.0-alpha.1"

/-- The help text. -/
def usage : String :=
  unlines
    ["Elx bitstring tool",
     "",
     "Usage: elx <command> [options]",
     "",
     "Commands:",
     "  encode '<<...>>'     Encode a bitstring literal",
     "  help                 Show this help message",
     "  version              Show version information",
     "",
     "Encode options:",
     "  --hex, -x           Print bytes as hex",
     "  --format=<fmt>      Output format: decimal, hex",
     "  --segments, -s      List each segment's encoding",
     "",
     "Logging:",
     "  ELX_LOG=<filter>    Enable tracing output (falls back to RUST_LOG)"]

/-- The help text of the encode command. -/
def encodeUsage : String :=
  unlines
    ["Usage: elx encode '<<segment, ...>>' [options]",
     "",
     "Options:",
     "  --hex, -x              Print bytes as hex",
     "  --format=<fmt>         Output format: decimal, hex",
     "  --segments, -s         List each segment's encoding"]

/-- A run of the encode command. -/
def runEncode (args : List String) : Outcome :=
  let request := EncodeRequest.ofArguments args
  let warnings := unlines request.warnings
  match request.literal with
  | none => ⟨1, "", warnings ++ encodeUsage⟩
  | some source =>
    match encodeLiteral request.config source with
    | .ok out => ⟨0, out ++ "\n", warnings⟩
    | .error failure => ⟨1, "", warnings ++ "error: " ++ failure.message ++ "\n"⟩

/-- A run of the program. -/
def run : List String → Outcome
  | [] => ⟨0, usage, ""⟩
  | command :: args =>
    if command = "encode" then runEncode args
    else if command = "help" ∨ command = "--help" ∨ command = "-h" then ⟨0, usage, ""⟩
    else if command = "version" ∨ command = "--version" ∨ command = "-V" then
      ⟨0, "elx " ++ version ++ "\n", ""⟩
    else ⟨1, usage, "Unknown command: " ++ command ++ "\n\n"⟩

end ClauseMatch.Command
