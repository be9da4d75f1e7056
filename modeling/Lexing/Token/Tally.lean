import Lexing.Assoc
import Lexing.Token.Kind

/-!
# Tallies

How many tokens of each kind there are. A tally has an entry for the kinds that were counted, in the order of listings, and
the total beside them.
-/

namespace Lexing

/-- Counts by kind, and their total. -/
structure Tally where
  entries : List (Kind × Nat)
  total : Nat
deriving DecidableEq, Repr, Inhabited

namespace Tally

/-- The tally of no tokens. -/
def empty : Tally := ⟨[], 0⟩

/-- Counts one more token of a kind. -/
def record (tally : Tally) (kind : Kind) : Tally where
  entries := Assoc.alter Kind.compare kind (fun count => count.getD 0 + 1) tally.entries
  total := tally.total + 1

/-- The count of a kind. -/
def get (tally : Tally) (kind : Kind) : Nat := (Assoc.get? Kind.compare kind tally.entries).getD 0

/-- The count of the kinds that are signals. -/
def signals (tally : Tally) : Nat :=
  Assoc.total (fun kind count => if kind.isSignal then count else 0) tally.entries

/-- The total, and the count of each kind that occurs. -/
def render (tally : Tally) : String :=
  let parts := tally.entries.map fun (kind, count) => s!"{kind.name}: {count}"
  s!"{tally.total} tokens (" ++ ", ".intercalate parts ++ ")"

end Tally

end Lexing
