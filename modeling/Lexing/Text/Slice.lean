import Lexing.Fault

/-!
# Slices by byte offset

Positions in a text are byte offsets of its UTF-8 form. An offset is a boundary when it lies between two characters or at
an end; a slice exists only between two boundaries.
-/

namespace Lexing.Text

/-- Whether a byte offset lies between two characters of the text or at one of its ends. -/
def isBoundary (s : String) (offset : Nat) : Bool := (⟨offset⟩ : String.Pos.Raw).isValid s

/-- The characters between two byte offsets; there are none to give when the offsets are reversed or not boundaries. -/
def slice (s : String) (start stop : Nat) : Except Fault String :=
  if stop < start then .error .reversedSpan
  else if first : (⟨start⟩ : String.Pos.Raw).IsValid s then
    if last : (⟨stop⟩ : String.Pos.Raw).IsValid s then .ok (s.extract ⟨⟨start⟩, first⟩ ⟨⟨stop⟩, last⟩)
    else .error .offBoundary
  else .error .offBoundary

/-- The last boundary at or before an offset, looked for backwards. -/
def boundaryBefore (s : String) : Nat → Nat
  | 0 => 0
  | offset + 1 => if isBoundary s (offset + 1) then offset + 1 else boundaryBefore s offset

/-- The text without the characters at its end that the test accepts. -/
def dropTrailing (test : Char → Bool) (s : String) : String :=
  String.ofList (s.toList.reverse.dropWhile test).reverse

/-- The first `n` characters of a text, or all of it. -/
def takeChars (n : Nat) (s : String) : String := String.ofList (s.toList.take n)

/-- A text set left in a field of the given width, filled with spaces. -/
def padRight (width : Nat) (s : String) : String := s ++ String.ofList (List.replicate (width - s.length) ' ')

/-- One character of the walk that counts lines: the lines ended so far, and whether a line is open behind them. -/
def countLine (state : Nat × Bool) (c : Char) : Nat × Bool :=
  if c = '\n' then (state.1 + 1, false) else (state.1, true)

/-- The number of lines of a text: its line feeds, and one more when something follows the last of them. -/
def lineCount (s : String) : Nat :=
  let walked := s.foldl countLine (0, false)
  if walked.2 then walked.1 + 1 else walked.1

end Lexing.Text
