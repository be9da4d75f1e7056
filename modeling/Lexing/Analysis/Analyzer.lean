import Lexing.Analysis.Metrics
import Lexing.Scanner
import Lexing.Session
import Lexing.Source.LineIndex
import Lexing.Token.Sequence

/-!
# Analyzer

An analysis is a scan that counts. Every token that the sink takes is counted, and a signal token that it takes is reported
when that is wanted; a token that it refuses is neither. The sink may log, so it works on its own state and the session's.
-/

namespace Lexing

/-- What an analysis keeps while it scans: the state of the sink, the session, and the counts. -/
structure Recorded (σ : Type) where
  sink : σ
  session : Session
  metrics : Metrics

/-- An analyzer: its settings, and the counts of its last analysis. -/
structure Analyzer where
  settings : AnalysisSettings
  metrics : Metrics
deriving DecidableEq, Repr, Inhabited

/-- What an analysis leaves: the analyzer, the state of the sink, the session, and the number of tokens or the error. -/
structure Analyzed (σ : Type) where
  analyzer : Analyzer
  sink : σ
  session : Session
  result : Except ScanError Nat

namespace Analyzer

variable {σ : Type}

/-- The number of characters that are quoted beside an error. -/
def excerptLength : Nat := 40

/-- The text that an error points at, as far as its line goes; nothing when it points at none. -/
def errorExcerpt (source : String) (error : ScanError) : Except Fault String :=
  match error.offset? with
  | some offset => (LineIndex.ofText source).excerpt offset excerptLength
  | none => .ok ""

/-- An analyzer that has analysed nothing. -/
def withSettings (settings : AnalysisSettings) : Analyzer := ⟨settings, .start 0⟩

/-- The sink that counts what another sink takes, and reports the signals among it. -/
def recording (limits : Limits) (settings : AnalysisSettings) (accept : Sink (σ × Session)) : Sink (Recorded σ) :=
  fun ⟨sink, session, metrics⟩ token =>
    match accept (sink, session) token with
    | ((sink, session), some error) => (⟨sink, session, metrics⟩, some error)
    | ((sink, session), none) =>
      let metrics := metrics.record settings token.value
      let session :=
        if settings.reportSignals && token.value.kind.isSignal then
          session.logWarning limits (some Code.signalToken) s!"{token.value.kind.name} token" (some token.span)
            [("text", token.value.text)]
        else session
      (⟨sink, session, metrics⟩, none)

/-- Analyses a text into a sink. -/
def analyze (limits : Limits) (accept : Sink (σ × Session)) (analyzer : Analyzer) (source : String) (sink : σ)
    (session : Session) : Except Fault (Analyzed σ) := do
  let metrics := Metrics.start source.length
  let session := session.trace limits "Starting lexical analysis"
    [ ("char_count", toString metrics.characters), ("max_tokens_allowed", toString limits.maxTokenCount),
      ("max_token_length", toString limits.maxTokenLength) ]
  let outcome ← Scanner.scan limits (recording limits analyzer.settings accept) ⟨sink, session, metrics⟩ source
  match outcome with
  | ⟨⟨sink, session, metrics⟩, .error error⟩ =>
    let excerpt ← errorExcerpt source error
    let session := session.logError limits error.code "Lexical analysis failed" none
      [("error", error.message limits), ("tokens_processed", toString metrics.total), ("source", excerpt)]
    return ⟨{ analyzer with metrics := metrics }, sink, session, .error error⟩
  | ⟨⟨sink, session, metrics⟩, .ok count⟩ =>
    let significant ← metrics.significant
    let session := session.logSuccess limits Code.analysisComplete "Lexical analysis completed successfully"
      [ ("token_count", toString count), ("significant_tokens", toString significant),
        ("error_signal_tokens", toString metrics.signals), ("literal_tokens", toString metrics.literals),
        ("longest_token", toString metrics.longest), ("chars_per_ms", Number.fixedText 2 0 1) ]
    return ⟨{ analyzer with metrics := metrics }, sink, session, .ok count⟩

/-- The sink that keeps every token, beside a session. -/
def keeping : Sink (Array (Located Token) × Session) := fun (tokens, session) token =>
  ((tokens.push token, session), none)

/-- The tokens of a text. -/
def tokenize (limits : Limits) (analyzer : Analyzer) (source : String) (session : Session) :
    Except Fault (Analyzer × Session × Except ScanError TokenSequence) := do
  let analyzed ← analyzer.analyze limits keeping source #[] session
  return (analyzed.analyzer, analyzed.session, analyzed.result.map fun _ => ⟨analyzed.sink.toList⟩)

end Analyzer

end Lexing
