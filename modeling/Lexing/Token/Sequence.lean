import Lexing.Token.Basic
import Lexing.Token.Tally

/-!
# Token sequences

The tokens of one scan, in order. Their texts, one behind another, give back what was scanned, and their spans lie end to end
from the start of the text.
-/

namespace Lexing

/-- The tokens of one scan, in order. -/
structure TokenSequence where
  tokens : List (Located Token)
deriving DecidableEq, Repr, Inhabited

/-- Why spans do not lie end to end. -/
inductive SpanDefect where
  /-- The token at an index does not stop where the next one starts. -/
  | gap (index : Nat) (stop start : Position)
  /-- The first token does not start at offset 0. -/
  | lateStart (offset : Nat)
deriving DecidableEq, Repr, Inhabited

namespace SpanDefect

/-- A defect in words. -/
def message : SpanDefect → String
  | gap index stop start =>
    s!"Token {index} ends at {stop.render} but token {index + 1} starts at {start.render}"
  | lateStart offset => s!"First token starts at offset {offset} instead of 0"

end SpanDefect

namespace TokenSequence

/-- The tokens that are not blank runs. -/
def significant (sequence : TokenSequence) : List (Located Token) :=
  sequence.tokens.filter fun token => !token.value.kind.isBlank

/-- The texts and kinds of the tokens. -/
def pairs (sequence : TokenSequence) : List (String × Kind) :=
  sequence.tokens.map fun token => (token.value.text, token.value.kind)

/-- The texts of the tokens, one behind another. -/
def reconstruct (sequence : TokenSequence) : String :=
  sequence.tokens.foldl (fun text token => text ++ token.value.text) ""

/-- Whether some texts, taken off the front of a source in order, use it up. -/
def coversChars : List (List Char) → List Char → Bool
  | [], source => source.isEmpty
  | text :: texts, source =>
    match text.isPrefixOf? source with
    | some rest => coversChars texts rest
    | none => false

/-- Whether the tokens account for every character of a source, in order. -/
def covers (sequence : TokenSequence) (source : String) : Bool :=
  coversChars (sequence.tokens.map fun token => token.value.text.toList) source.toList

/-- The counts of the tokens by kind. -/
def tally (sequence : TokenSequence) : Tally :=
  sequence.tokens.foldl (fun tally token => tally.record token.value.kind) .empty

/-- The first place where one token does not stop where the next one starts, looked for from an index on. -/
def findGap (index : Nat) : List (Located Token) → Option SpanDefect
  | first :: second :: rest =>
    if first.span.stop ≠ second.span.start then some (.gap index first.span.stop second.span.start)
    else findGap (index + 1) (second :: rest)
  | _ => none

/-- What keeps the spans from lying end to end from offset 0, if anything. -/
def checkSpans (sequence : TokenSequence) : Option SpanDefect :=
  match findGap 0 sequence.tokens with
  | some defect => some defect
  | none =>
    match sequence.tokens with
    | [] => none
    | first :: _ => if first.span.start.offset ≠ 0 then some (.lateStart first.span.start.offset) else none

end TokenSequence

end Lexing
