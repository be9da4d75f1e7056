import Lexing.Source.Position
import Lexing.Text.Slice

/-!
# Spans

A span is the part of a text from one place up to another. A value that was read from a text keeps its span beside it.
-/

namespace Lexing

/-- The part of a text from `start` up to `stop`. -/
structure Span where
  start : Position
  stop : Position
deriving DecidableEq, Repr, Inhabited

namespace Span

/-- The span between two places, the second of which must not lie before the first. -/
def between (start stop : Position) : Except Fault Span :=
  if start.offset ≤ stop.offset then .ok ⟨start, stop⟩ else .error .reversedSpan

/-- A span over two spans: it starts at the earlier start and stops at the later stop. Of two equal offsets, the second
span's place counts. -/
def merge (a b : Span) : Span where
  start := if a.start.offset < b.start.offset then a.start else b.start
  stop := if b.stop.offset < a.stop.offset then a.stop else b.stop

/-- The number of bytes of a span. -/
def length (span : Span) : Except Fault Nat := checkedSub span.stop.offset span.start.offset

/-- Whether a span has no bytes. -/
def isEmpty (span : Span) : Bool := span.start.offset = span.stop.offset

/-- The text that a span covers. -/
def slice (span : Span) (text : String) : Except Fault String := Text.slice text span.start.offset span.stop.offset

/-- Line and columns, or both places when the span runs over a line's end. -/
def render (span : Span) : String :=
  if span.start.line = span.stop.line then s!"{span.start.line}:{span.start.column}-{span.stop.column}"
  else s!"{span.start.render}-{span.stop.render}"

end Span

/-- A value and the span it was read from. -/
structure Located (α : Type) where
  value : α
  span : Span
deriving DecidableEq, Repr, Inhabited

namespace Located

variable {α β : Type}

/-- Changes the value and keeps the span. -/
def map (f : α → β) (x : Located α) : Located β := ⟨f x.value, x.span⟩

end Located

end Lexing
