import ClauseMatch.Value.Text

/-!
# Failing to match

The error of a value or a list of arguments that nothing matches. It keeps their text.
-/

namespace ClauseMatch

/-- Nothing matched; `rendered` shows what was to be matched, unless there was nothing. -/
structure NoMatch where
  rendered : Option String
deriving DecidableEq, Inhabited

namespace NoMatch

/-- The error for a single value. -/
def ofValue (v : Value) : NoMatch := ⟨some v.text⟩

/-- The error for the arguments of a call. -/
def ofArguments (args : List Value) : NoMatch :=
  if args.isEmpty then ⟨none⟩ else ⟨some (Value.writeItems .plain args "")⟩

/-- The wording of the error. -/
def message (e : NoMatch) : String :=
  match e.rendered with
  | some rendered => "no match for: " ++ rendered
  | none => "no match for arguments given"

end NoMatch

end ClauseMatch
