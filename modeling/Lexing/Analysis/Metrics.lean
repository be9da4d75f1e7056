import Lexing.Settings.Basic
import Lexing.Token.Basic
import Lexing.Token.Tally

/-!
# Metrics

What is counted while the tokens of one text pass by.
-/

namespace Lexing

/-- The counts of one analysis. -/
structure Metrics where
  /-- Every token that was taken, blank runs among them. -/
  total : Nat
  blanks : Nat
  signals : Nat
  literals : Nat
  /-- The length of the longest token, in characters. -/
  longest : Nat
  /-- The length of the whole text, in characters. -/
  characters : Nat
  /-- The counts by kind, if they are wanted. -/
  tally : Tally
deriving DecidableEq, Repr, Inhabited

namespace Metrics

/-- The counts in front of a text of a given length. -/
def start (characters : Nat) : Metrics := ⟨0, 0, 0, 0, 0, characters, .empty⟩

/-- One more when a condition holds. -/
def bump (count : Nat) (condition : Bool) : Nat := if condition then count + 1 else count

/-- Counts a token that was taken. -/
def record (settings : AnalysisSettings) (metrics : Metrics) (token : Token) : Metrics where
  total := metrics.total + 1
  blanks := bump metrics.blanks token.kind.isBlank
  signals := bump metrics.signals token.kind.isSignal
  literals := bump metrics.literals token.kind.isLiteral
  longest := max metrics.longest token.length
  characters := metrics.characters
  tally :=
    if settings.detailed && (!token.kind.isBlank || settings.countBlanks) then metrics.tally.record token.kind
    else metrics.tally

/-- The number of tokens that are not blank runs. -/
def significant (metrics : Metrics) : Except Fault Nat := checkedSub metrics.total metrics.blanks

end Metrics

end Lexing
