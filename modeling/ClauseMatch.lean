import ClauseMatch.Main
import ClauseMatch.Dispatch.Basic
import ClauseMatch.Proofs.Literal.CursorSafety
import ClauseMatch.Proofs.Literal.Surroundings
import ClauseMatch.Proofs.Literal.Joining
import ClauseMatch.Proofs.Literal.FloatText
import ClauseMatch.Proofs.Command.ListingFailure
import ClauseMatch.Proofs.Command.Arguments
import ClauseMatch.Proofs.Value.Interning
import ClauseMatch.Proofs.Value.Objects
import ClauseMatch.Proofs.Pattern.Rebuilding
import ClauseMatch.Proofs.Pattern.OfValue
import ClauseMatch.Proofs.Pattern.Extension
import ClauseMatch.Proofs.Pattern.NumberLiteral
import ClauseMatch.Proofs.Dispatch.Arity
import ClauseMatch.Proofs.Dispatch.Congruence
import ClauseMatch.Proofs.Dispatch.Recursion
import ClauseMatch.Proofs.Dispatch.Rendering
import ClauseMatch.Proofs.Bitstring.Construction
import ClauseMatch.Proofs.Bitstring.CodeUnits
