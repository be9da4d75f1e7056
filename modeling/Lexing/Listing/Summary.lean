import Lexing.Analysis.Metrics
import Lexing.Text.Slice

/-!
# Summary table

The counts of one analysis as a table: a row for each kind that occurs, one for all tokens that are not blank runs, and one
for the signals if there are any.
-/

namespace Lexing.Listing

/-- The width of the column of names. -/
def nameWidth : Nat := 20

/-- One row of the table. -/
def summaryRow (name : String) (count : Nat) : String := s!"  {Text.padRight nameWidth name} {count}\n"

/-- The rows of the table: the kinds that occur, in the order of listings, the total, and the signals if there are any. -/
def summaryRows (metrics : Metrics) (significant : Nat) : List (String × Nat) :=
  ((Kind.all.map fun kind => (kind.name, metrics.tally.get kind)).filter fun (_, count) => 0 < count) ++
    [("Total", significant)] ++ if 0 < metrics.signals then [("Error signals", metrics.signals)] else []

/-- The table of an analysis. -/
def summary (metrics : Metrics) : Except Fault String :=
  match metrics.significant with
  | .ok significant =>
    .ok ("Token summary:\n" ++ String.join ((summaryRows metrics significant).map fun (name, count) =>
      summaryRow name count))
  | .error fault => .error fault

end Lexing.Listing
