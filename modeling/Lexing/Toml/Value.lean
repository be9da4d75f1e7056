/-!
# TOML values

The values of a TOML document. A table remembers how it came about, because that decides what may still be added to it: a
table with a header of its own takes no dotted keys from outside, a table that only appears inside another header can still
get one, a table that dotted keys made takes more of them, and an inline table is complete.
-/

namespace Lexing.Toml

/-- How a table came about. -/
inductive TableKind where
  /-- It has a header, or is the document itself. -/
  | headed
  /-- It appears inside the header of another table. -/
  | implied
  /-- Dotted keys made it. -/
  | dotted
  /-- It was written between braces. -/
  | inline
deriving DecidableEq, Repr, Inhabited

/-- A value of a document. Of a number or a time only the sort is kept, since no setting takes one. -/
inductive Value where
  | string (text : String)
  | boolean (value : Bool)
  | number
  | time
  | array (items : List Value)
  | table (kind : TableKind) (entries : List (String × Value))
  /-- The tables that share a header in double brackets. -/
  | tables (items : List (List (String × Value)))
deriving Repr, Inhabited

/-- The keys of a table and their values. -/
abbrev Entries := List (String × Value)

namespace Entries

/-- The value of a key, if the table has it. -/
def get? (entries : Entries) (key : String) : Option Value := entries.lookup key

/-- Gives a key a value, in the place of the one it had. -/
def set (key : String) (value : Value) : Entries → Entries
  | [] => [(key, value)]
  | (k, v) :: rest => if k = key then (k, value) :: rest else (k, v) :: set key value rest

end Entries

/-- One line of a document that says something. -/
inductive Statement where
  | pair (path : List String) (value : Value)
  /-- A header in brackets. -/
  | table (path : List String)
  /-- A header in double brackets. -/
  | tableItem (path : List String)
deriving Repr, Inhabited

end Lexing.Toml
