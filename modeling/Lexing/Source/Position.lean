import Lexing.Fault

/-!
# Positions

A position counts the bytes in front of it, from 0, and names its line and its column, from 1. A tab leads to the next
column of the form 4k + 1, a line feed to the first column of the next line, and every other character to the next column.
Offsets have 64 bits and lines and columns 32; a step past either bound is a fault.
-/

namespace Lexing

/-- A place in a text. -/
structure Position where
  offset : Nat
  line : Nat
  column : Nat
deriving DecidableEq, Repr, Inhabited

namespace Position

/-- The place in front of the first character. -/
def start : Position := ⟨0, 1, 1⟩

/-- Byte offsets stay below this bound. -/
def offsetBound : Nat := 18446744073709551616

/-- Line and column numbers stay below this bound. -/
def lineBound : Nat := 4294967296

/-- Tab stops are this many columns apart. -/
def tabWidth : Nat := 4

/-- The place right behind a character. -/
def after (p : Position) (c : Char) : Position :=
  if c = '\n' then ⟨p.offset + 1, p.line + 1, 1⟩
  else if c = '\t' then ⟨p.offset + 1, p.line, p.column + tabWidth - (p.column - 1) % tabWidth⟩
  else ⟨p.offset + c.utf8Size, p.line, p.column + 1⟩

/-- The place right behind a character, as far as numbers of bounded size can name it. A tab needs room for a whole tab
width and a column to measure from. -/
def advance (p : Position) (c : Char) : Except Fault Position :=
  let next := p.after c
  if offsetBound ≤ next.offset then .error .offsetOverflow
  else if c = '\n' then if lineBound ≤ next.line then .error .lineOverflow else .ok next
  else if c = '\t' then
    if lineBound ≤ p.column + tabWidth then .error .columnOverflow
    else if p.column = 0 then .error .columnUnderflow
    else .ok next
  else if lineBound ≤ next.column then .error .columnOverflow
  else .ok next

/-- The place behind some characters. -/
def advanceChars (p : Position) : List Char → Except Fault Position
  | [] => .ok p
  | c :: rest =>
    match p.advance c with
    | .ok next => next.advanceChars rest
    | .error fault => .error fault

/-- The place behind a text. -/
def advanceText (p : Position) (s : String) : Except Fault Position := p.advanceChars s.toList

/-- The order of places: by offset, then line, then column. -/
def compare (a b : Position) : Ordering :=
  ((Ord.compare a.offset b.offset).then (Ord.compare a.line b.line)).then (Ord.compare a.column b.column)

/-- Line and column, as diagnostics show them. -/
def render (p : Position) : String := s!"{p.line}:{p.column}"

end Position

end Lexing
