import Lexing.ScanError
import Lexing.Token.Basic

/-!
# Scanner

The scanner reads one character at a time and looks at none ahead. A character that stands alone closes the pending run and
is a token by itself. A blank character closes a run of other characters and any other character a blank run; both then join
the pending run. So every character that the scanner takes lands in exactly one token. A quotation mark is an ordinary
character: a quoted text ends at the first boundary behind it, even inside the quotes.

Tokens go to a sink as they are found, and the sink may refuse one. After a refusal the scanner goes on from where it
stands: a run that was refused is dropped.
-/

namespace Lexing

/-- What takes the tokens of a scan: it changes a state, and may refuse the token. -/
abbrev Sink (σ : Type) := σ → Located Token → σ × Option ScanError

/-- The characters read since the last token, which will be one token when they end. -/
structure PendingRun where
  text : String
  /-- The number of characters of the text. -/
  size : Nat
  /-- Whether the run is one of blank characters. -/
  blank : Bool
  start : Position
deriving DecidableEq, Repr, Inhabited

/-- The state of a scan. -/
structure Scanner where
  /-- The run that no boundary has closed yet. -/
  pending : Option PendingRun
  /-- The place behind the last character taken. -/
  position : Position
  /-- The number of tokens that the sink took. -/
  emitted : Nat
deriving DecidableEq, Repr, Inhabited

/-- What one action of the scanner leaves: its own state, the sink's, and the error that stopped the action, if any. -/
structure Step (σ : Type) where
  scanner : Scanner
  sink : σ
  error : Option ScanError

namespace Scanner

variable {σ : Type}

/-- A scanner in front of a text. -/
def fresh : Scanner := ⟨none, Position.start, 0⟩

/-- Hands a token to the sink, unless the sink has had as many as it may get. -/
def emit (limits : Limits) (accept : Sink σ) (scanner : Scanner) (state : σ) (token : Located Token) : Step σ :=
  if limits.maxTokenCount ≤ scanner.emitted then ⟨scanner, state, some (.tooManyTokens (scanner.emitted + 1))⟩
  else
    match accept state token with
    | (state, none) => ⟨{ scanner with emitted := scanner.emitted + 1 }, state, none⟩
    | (state, some error) => ⟨scanner, state, some error⟩

/-- The token of a run that stops at a place. -/
def closeRun (run : PendingRun) (stop : Position) : Except Fault (Located Token) := do
  let kind ← if run.blank then pure .blank else Classification.classify run.text
  let span ← Span.between run.start stop
  return ⟨⟨run.text, kind⟩, span⟩

/-- Closes the pending run, if there is one. -/
def flush (limits : Limits) (accept : Sink σ) (scanner : Scanner) (state : σ) : Except Fault (Step σ) :=
  match scanner with
  | ⟨none, position, emitted⟩ => .ok ⟨⟨none, position, emitted⟩, state, none⟩
  | ⟨some run, position, emitted⟩ =>
    match closeRun run position with
    | .error fault => .error fault
    | .ok token => .ok (emit limits accept ⟨none, position, emitted⟩ state token)

/-- Adds a character to the pending run, which is of the character's own sort or not there yet. -/
def append (limits : Limits) (scanner : Scanner) (state : σ) (c : Char) (blank : Bool) : Except Fault (Step σ) :=
  match scanner with
  | ⟨pending, position, emitted⟩ =>
    match pending.getD ⟨"", 0, blank, position⟩ with
    | ⟨text, size, blank, start⟩ =>
      if limits.maxTokenLength ≤ size then
        .ok ⟨⟨pending, position, emitted⟩, state, some (.tokenTooLong (size + 1) start)⟩
      else
        match position.advance c with
        | .error fault => .error fault
        | .ok position => .ok ⟨⟨some ⟨text.push c, size + 1, blank, start⟩, position, emitted⟩, state, none⟩

/-- Takes a character that is a token by itself. -/
def single (limits : Limits) (accept : Sink σ) (scanner : Scanner) (state : σ) (c : Char) : Except Fault (Step σ) := do
  let stop ← scanner.position.advance c
  let token ← Token.ofCandidate (String.singleton c)
  let span ← Span.between scanner.position stop
  return emit limits accept { scanner with position := stop } state ⟨token, span⟩

/-- Whether the pending run is one of blank characters. -/
def inBlank (scanner : Scanner) : Bool :=
  match scanner.pending with
  | some run => run.blank
  | none => false

/-- Takes one character. -/
def feed (limits : Limits) (accept : Sink σ) (scanner : Scanner) (state : σ) (c : Char) : Except Fault (Step σ) :=
  if CharClass.isBlank c then
    if scanner.inBlank then append limits scanner state c true
    else
      match flush limits accept scanner state with
      | .ok ⟨scanner, state, none⟩ => append limits scanner state c true
      | outcome => outcome
  else if CharClass.standsAlone c then
    match flush limits accept scanner state with
    | .ok ⟨scanner, state, none⟩ => single limits accept scanner state c
    | outcome => outcome
  else if scanner.inBlank then
    match flush limits accept scanner state with
    | .ok ⟨scanner, state, none⟩ => append limits scanner state c false
    | outcome => outcome
  else append limits scanner state c false

/-- Takes characters up to the first error. -/
def feedAll (limits : Limits) (accept : Sink σ) (scanner : Scanner) (state : σ) : List Char → Except Fault (Step σ)
  | [] => .ok ⟨scanner, state, none⟩
  | c :: rest =>
    match feed limits accept scanner state c with
    | .ok ⟨scanner, state, none⟩ => feedAll limits accept scanner state rest
    | outcome => outcome

/-- The outcome of a scan: the sink's state, and the number of tokens it took or the error that ended the scan. -/
structure Outcome (σ : Type) where
  sink : σ
  result : Except ScanError Nat

/-- Closes the last run and counts the tokens that the sink took. -/
def finish (limits : Limits) (accept : Sink σ) (scanner : Scanner) (state : σ) : Except Fault (Outcome σ) :=
  match flush limits accept scanner state with
  | .error fault => .error fault
  | .ok ⟨scanner, state, none⟩ => .ok ⟨state, .ok scanner.emitted⟩
  | .ok ⟨_, state, some error⟩ => .ok ⟨state, .error error⟩

/-- Scans a whole text. -/
def scan (limits : Limits) (accept : Sink σ) (state : σ) (source : String) : Except Fault (Outcome σ) :=
  match feedAll limits accept fresh state source.toList with
  | .error fault => .error fault
  | .ok ⟨scanner, state, none⟩ => finish limits accept scanner state
  | .ok ⟨_, state, some error⟩ => .ok ⟨state, .error error⟩

end Scanner

namespace Sink

/-- A sink that takes every token and keeps it. -/
def collect : Sink (Array (Located Token)) := fun tokens token => (tokens.push token, none)

end Sink

end Lexing
