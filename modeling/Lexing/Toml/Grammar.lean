import Lexing.Toml.Scalar

/-!
# Grammar of a TOML document

From characters to statements. Keys have parts, values hold values, and both only so deep.
-/

namespace Lexing.Toml

/-- The most parts of a key, and the deepest nesting of values. -/
def maxDepth : Nat := 79

/-- Whether a character may stand in a key without quotes. -/
def isBare (c : Char) : Bool := c.isAlphanum || c = '_' || c = '-'

/-- One part of a key. -/
def keyPart (cs : List Char) : Option (String × List Char) :=
  match cs with
  | '"' :: _ | '\'' :: _ => quotedText cs
  | _ =>
    let bare := cs.takeWhile isBare
    if bare.isEmpty then none else some (String.ofList bare, cs.dropWhile isBare)

/-- A key of at most so many parts, with dots between them. -/
def key : Nat → Reading (List String)
  | 0, _ => none
  | depth + 1, cs =>
    match keyPart (skipBlank cs) with
    | none => none
    | some (part, rest) =>
      match skipBlank rest with
      | '.' :: more => (key depth more).map fun (parts, rest) => (part :: parts, rest)
      | rest => some ([part], rest)

/-- A key and a value, with an equals sign between them. -/
def pair (value : Reading Value) (cs : List Char) : Option ((List String × Value) × List Char) :=
  match key maxDepth cs with
  | some (path, '=' :: rest) =>
    (value (skipBlank rest)).map fun (value, rest) => ((path, value), skipBlank rest)
  | _ => none

/-- The items of an array up to its closing bracket, in front of which a comma may stand. -/
def items (value : Reading Value) : Nat → Reading (List Value)
  | 0, _ => none
  | fuel + 1, cs =>
    match skipLayout false cs with
    | ']' :: rest => some ([], rest)
    | cs =>
      match value cs with
      | none => none
      | some (item, rest) =>
        match skipLayout false rest with
        | ',' :: rest => (items value fuel rest).map fun (others, rest) => (item :: others, rest)
        | ']' :: rest => some ([item], rest)
        | _ => none

/-- The pairs of an inline table up to its closing brace, at least one. -/
def pairs (value : Reading Value) : Nat → Reading (List (List String × Value))
  | 0, _ => none
  | fuel + 1, cs =>
    match pair value cs with
    | some (first, ',' :: rest) => (pairs value fuel rest).map fun (others, rest) => (first :: others, rest)
    | some (first, '}' :: rest) => some ([first], rest)
    | _ => none

/-- Puts a value at the end of a dotted key. The tables on the way are made if they are not there. One that has a header or
braces of its own is closed; one that another header implied can be passed through but not added to. -/
def put (value : Value) : List String → Entries → Option Entries
  | [], _ => none
  | [last], entries => if (entries.get? last).isSome then none else some (entries ++ [(last, value)])
  | first :: second :: rest, entries =>
    match entries.get? first with
    | none => (put value (second :: rest) []).map fun inner => entries ++ [(first, .table .dotted inner)]
    | some (.table .dotted inner) =>
      (put value (second :: rest) inner).map fun inner => entries.set first (.table .dotted inner)
    | some (.table .implied inner) =>
      if rest.isEmpty then none
      else (put value (second :: rest) inner).map fun inner => entries.set first (.table .implied inner)
    | some (.tables tables) =>
      if rest.isEmpty then none
      else
        (put value (second :: rest) (tables.getLast?.getD [])).map fun inner =>
          entries.set first (.tables (tables.dropLast ++ [inner]))
    | some _ => none

/-- Puts several values. -/
def putAll (entries : Entries) (found : List (List String × Value)) : Option Entries :=
  found.foldlM (fun entries (path, value) => put value path entries) entries

/-- A value in which values are nested at most so deep. -/
def value : Nat → Reading Value
  | 0, cs =>
    match cs with
    | '[' :: _ | '{' :: _ => none
    | _ => scalar cs
  | depth + 1, cs =>
    match cs with
    | '[' :: rest => (items (value depth) cs.length rest).map fun (found, rest) => (.array found, rest)
    | '{' :: rest =>
      match skipBlank rest with
      | '}' :: rest => some (.table .inline [], rest)
      | rest =>
        match pairs (value depth) cs.length rest with
        | none => none
        | some (found, rest) => (putAll [] found).map fun entries => (.table .inline entries, rest)
    | _ => scalar cs

/-- One statement at the start of a line, and the characters of the next line. -/
def statement (cs : List Char) : Option (Statement × List Char) :=
  match cs with
  | '[' :: '[' :: rest =>
    match key maxDepth rest with
    | some (path, ']' :: ']' :: rest) => (restOfLine rest).map fun rest => (.tableItem path, rest)
    | _ => none
  | '[' :: rest =>
    match key maxDepth rest with
    | some (path, ']' :: rest) => (restOfLine rest).map fun rest => (.table path, rest)
    | _ => none
  | _ =>
    match pair (value maxDepth) cs with
    | some ((path, value), rest) => (restOfLine rest).map fun rest => (.pair path value, rest)
    | none => none

/-- The statements of a document. -/
def statements : Nat → List Char → Option (List Statement)
  | 0, _ => none
  | fuel + 1, cs =>
    match skipBlank cs with
    | [] => some []
    | c :: rest =>
      if c = '#' || c = '\n' || c = '\r' then (restOfLine (c :: rest)).bind (statements fuel)
      else
        match statement (c :: rest) with
        | some (found, rest) => (statements fuel rest).map (found :: ·)
        | none => none

end Lexing.Toml
