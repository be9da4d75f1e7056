/-!
# Faults

Some operations have no result on some arguments: a position past the largest offset, a slice that cuts a character in
two, a candidate with no characters. Each is written as an explicit outcome, so that "this never happens" is a statement
about a value and not about the machine that runs it.
-/

namespace Lexing

/-- Why an operation has no result. -/
inductive Fault where
  /-- A byte offset would not fit 64 bits. -/
  | offsetOverflow
  /-- A line number would not fit 32 bits. -/
  | lineOverflow
  /-- A column number would not fit 32 bits. -/
  | columnOverflow
  /-- A tab stop was asked for at column 0, which no text has. -/
  | columnUnderflow
  /-- A span would end before it starts. -/
  | reversedSpan
  /-- A slice was asked for at an offset that is past the end or inside a character. -/
  | offBoundary
  /-- A line was asked for that the text does not have. -/
  | missingLine
  /-- A candidate with no characters was to be classified. -/
  | emptyCandidate
  /-- A count would fall below zero. -/
  | countUnderflow
deriving DecidableEq, Repr, Inhabited

/-- Two operations in turn have a result when the first has one and the second has one on it. -/
theorem exists_of_bind_eq_ok {α β : Type} {x : Except Fault α} {f : α → Except Fault β} {b : β} (h : x >>= f = .ok b) :
    ∃ a, x = .ok a ∧ f a = .ok b := by
  cases x with
  | error fault => cases h
  | ok a => exact ⟨a, rfl, h⟩

/-- The difference of two counts, which must not be negative. -/
def checkedSub (a b : Nat) : Except Fault Nat :=
  if b ≤ a then .ok (a - b) else .error .countUnderflow

end Lexing
