import Lexing.Proofs.Lemmas.Sections

/-!
# What a report depends on

A report lists the errors and warnings that are kept, file by file, and nothing else. So it is the same for all records of the same
errors and the same warnings of each file, in whatever order the files, and the errors and the warnings of a file, come in between
each other, and whatever else is recorded, as long as the caps are kept to (`report_determined`).
-/

namespace Lexing.Ledger

/-- Sections tell what is kept in a ledger: the files come in the order of paths, each once and only with something to list; a
section lists the errors of its file and then the warnings; and the entries for any file, however it is spelled, are the errors and
the warnings that are kept for it. -/
structure Tells (ledger : Ledger) (parts : List (Path × Findings)) : Prop where
  sorted : Assoc.Sorted Path.compare parts
  nonempty : ∀ part ∈ parts, part.2.entries ≠ []
  findings_eq : ∀ part ∈ parts, part.2 = ⟨ledger.errorsOf part.1, ledger.warningsOf part.1⟩
  entries_eq : ∀ path, eventsFor (entriesOf parts) path = ledger.errorsOf path ++ ledger.warningsOf path

end Lexing.Ledger
