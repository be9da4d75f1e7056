import Lexing.Diagnostic.Code
import Lexing.Limits
import Lexing.Source.Position

/-!
# Scan errors

Classification never fails. A scan ends early when a token or the number of tokens outgrows the limits, or when the sink
refuses a token.
-/

namespace Lexing

/-- Why a scan ended early. -/
inductive ScanError where
  /-- A token would have this many characters; it starts at the position. -/
  | tokenTooLong (length : Nat) (start : Position)
  /-- The scan would deliver this many tokens. -/
  | tooManyTokens (count : Nat)
  /-- The sink refused a token, or could not finish. -/
  | sinkFailed (message : String)
deriving DecidableEq, Repr, Inhabited

namespace ScanError

/-- An error in words. -/
def message (limits : Limits) : ScanError → String
  | tokenTooLong length start =>
    s!"Token too long: {length} characters at line {start.line}, column {start.column} (max {limits.maxTokenLength})"
  | tooManyTokens count => s!"Too many tokens: {count} (max {limits.maxTokenCount})"
  | sinkFailed message => s!"Token sink failed: {message}"

/-- The code under which an error is reported. -/
def code : ScanError → String
  | tokenTooLong _ _ => Code.tokenTooLong
  | tooManyTokens _ => Code.tooManyTokens
  | sinkFailed _ => Code.sinkFailed

/-- The place in the text that an error points at, if it points at one. -/
def offset? : ScanError → Option Nat
  | tokenTooLong _ start => some start.offset
  | _ => none

end ScanError

end Lexing
