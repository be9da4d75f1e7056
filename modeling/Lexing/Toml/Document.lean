import Lexing.Toml.Grammar

/-!
# TOML documents

From statements to one table. The pairs under a header belong to the header's table; the pairs in front of the first header
belong to the document itself. A header may name a table that another header implied, and no other that is there already.
-/

namespace Lexing.Toml

/-- A header and the pairs under it. -/
structure Block where
  /-- The header in brackets or, if the flag is set, in double brackets; the document itself has none. -/
  header : Option (List String × Bool)
  pairs : List (List String × Value)
deriving Repr, Inhabited

/-- The blocks of a document, in order; the first is that of the document itself. -/
def blocks : List Statement → Block × List Block
  | [] => (⟨none, []⟩, [])
  | .pair path value :: rest =>
    let (first, others) := blocks rest
    ({ first with pairs := (path, value) :: first.pairs }, others)
  | .table path :: rest =>
    let (first, others) := blocks rest
    (⟨none, []⟩, { first with header := some (path, false) } :: others)
  | .tableItem path :: rest =>
    let (first, others) := blocks rest
    (⟨none, []⟩, { first with header := some (path, true) } :: others)

/-- Changes what lies at the end of a header's key. The tables on the way are implied if they are not there; of tables that
share a header the last one is entered. -/
def atHeader (change : Option Value → Option Value) : List String → Entries → Option Entries
  | [], _ => none
  | [last], entries => (change (entries.get? last)).map fun value => entries.set last value
  | first :: second :: rest, entries =>
    match entries.get? first with
    | none => (atHeader change (second :: rest) []).map fun inner => entries.set first (.table .implied inner)
    | some (.table .inline _) => none
    | some (.table kind inner) =>
      (atHeader change (second :: rest) inner).map fun inner => entries.set first (.table kind inner)
    | some (.tables tables) =>
      (atHeader change (second :: rest) (tables.getLast?.getD [])).map fun inner =>
        entries.set first (.tables (tables.dropLast ++ [inner]))
    | some _ => none

/-- The table of a header in brackets, given what lies there. -/
def headed (found : List (List String × Value)) : Option Value → Option Value
  | none => (putAll [] found).map fun entries => .table .headed entries
  | some (.table .implied inner) => (putAll inner found).map fun entries => .table .headed entries
  | some _ => none

/-- The tables of a header in double brackets, given what lies there. -/
def headedItem (found : List (List String × Value)) : Option Value → Option Value
  | none => (putAll [] found).map fun entries => .tables [entries]
  | some (.tables tables) => (putAll [] found).map fun entries => .tables (tables ++ [entries])
  | some _ => none

/-- Adds a block to a document. -/
def addBlock (entries : Entries) (block : Block) : Option Entries :=
  match block.header with
  | none => putAll entries block.pairs
  | some (path, false) => atHeader (headed block.pairs) path entries
  | some (path, true) => atHeader (headedItem block.pairs) path entries

/-- The characters of a document behind its byte order mark. -/
def skipMark : List Char → List Char
  | '\ufeff' :: rest => rest
  | cs => cs

/-- The table that a document is, if it is well formed. -/
def parse? (document : String) : Option Entries := do
  let cs := skipMark document.toList
  let found ← statements (cs.length + 1) cs
  let (first, others) := blocks found
  (first :: others).foldlM addBlock []

end Lexing.Toml
