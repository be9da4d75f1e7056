import Lexing.Source.Span

/-!
# Line index

The offsets at which the lines of a text start, kept to find the place of an offset and to quote the text around it.
-/

namespace Lexing

/-- A text and the offsets at which its lines start. -/
structure LineIndex where
  text : String
  starts : Array Nat
deriving Repr, Inhabited

namespace LineIndex

/-- One character of the walk that finds the line starts: the offset behind it, and a new start when it ends a line. -/
def walk (state : Nat × Array Nat) (c : Char) : Nat × Array Nat :=
  let next := state.1 + c.utf8Size
  (next, if c = '\n' then state.2.push next else state.2)

/-- The index of a text. -/
def ofText (text : String) : LineIndex := ⟨text, (text.foldl walk (0, #[0])).2⟩

/-- The number of lines; a text that ends in a line feed has an empty last line. -/
def lineCount (index : LineIndex) : Nat := index.starts.size

/-- The line that an offset lies in, counted from 0: as many starts lie behind the first and at or before the offset. -/
def lineOf (index : LineIndex) (offset : Nat) : Nat := index.starts.countP (· ≤ offset) - 1

/-- The place of an offset. One past the end counts as the end; one inside a character has none. -/
def positionAt (index : LineIndex) (offset : Nat) : Except Fault Position := do
  let offset := min offset index.text.utf8ByteSize
  let line := index.lineOf offset
  let start := index.starts.getD line 0
  let before ← Text.slice index.text start offset
  Position.advanceText ⟨start, line + 1, 1⟩ before

/-- The text of a line, counted from 1, without its line feed and without the carriage returns at its end. -/
def lineText (index : LineIndex) (line : Nat) : Except Fault (Option String) :=
  if line = 0 then .ok none
  else
    match index.starts[line - 1]? with
    | none => .ok none
    | some start =>
      let stop :=
        match index.starts[line]? with
        | some next => next - 1
        | none => index.text.utf8ByteSize
      match Text.slice index.text start stop with
      | .ok text => .ok (some (Text.dropTrailing (· = '\r') text))
      | .error fault => .error fault

/-- The text of a span. -/
def spanText (index : LineIndex) (span : Span) : Except Fault String := span.slice index.text

/-- Up to `count` characters from an offset to the end of its line. -/
def excerpt (index : LineIndex) (offset count : Nat) : Except Fault String := do
  let place ← index.positionAt offset
  match ← index.lineText place.line with
  | none => return ""
  | some line =>
    match index.starts[place.line - 1]? with
    | none => throw .missingLine
    | some start =>
      let rest ← Text.slice line (min (place.offset - start) line.utf8ByteSize) line.utf8ByteSize
      return Text.takeChars count rest

end LineIndex

end Lexing
