import Lexing.Input.Processing
import Lexing.Listing.Summary
import Lexing.Listing.Writer

/-!
# Runs

A run takes one input through three stages: it is read, analysed, and listed as its tokens are found. The table of counts
follows the listing when that is wanted. While the run lasts, its input is the file that is worked on.
-/

namespace Lexing

/-- Why a run failed. -/
inductive RunError where
  | input (error : InputError)
  | scan (error : ScanError)
  | other (message : String)
deriving DecidableEq, Repr, Inhabited

namespace RunError

/-- An error in words. -/
def message (limits : Limits) : RunError → String
  | input error => s!"File processing failed: {error.message}"
  | scan error => s!"Lexical analysis failed: {error.message limits}"
  | other message => s!"Pipeline error: {message}"

/-- The code under which an error is reported. -/
def code : RunError → String
  | input error => error.code
  | scan error => error.code
  | other _ => Code.runFailed

/-- Whether the input could not be read. -/
def isInput : RunError → Bool
  | input _ => true
  | _ => false

end RunError

/-- What is known of an input that was run through all stages. -/
structure RunReport where
  metadata : Metadata
  metrics : Metrics
  /-- The number of tokens, blank runs among them. -/
  tokens : Nat
deriving DecidableEq, Repr, Inhabited

/-- What a run leaves: where it wrote to, and its report or the reason why it failed. -/
structure RunOutcome (ω : Type := Outlet) where
  outlet : ω
  result : Except RunError RunReport

/-- The reason why a run failed, if it did. -/
def RunOutcome.failure? {ω : Type} (outcome : RunOutcome ω) : Option RunError :=
  match outcome.result with
  | .error error => some error
  | .ok _ => none

namespace Run

variable {ω : Type} [Medium ω]

/-- The name of standard input. -/
def standardInput : String := "<stdin>"

/-- Writes the table of counts. -/
def writeSummary (outlet : ω) (metrics : Metrics) : Except Fault (ω × Option String) :=
  match Listing.summary metrics with
  | .error fault => .error fault
  | .ok table =>
    match Medium.write outlet table.toUTF8 with
    | (outlet, none) => .ok (Medium.flush outlet)
    | (outlet, some reason) => .ok (outlet, some reason)

/-- Logs that a run succeeded. -/
def logSuccess (limits : Limits) (name : String) (report : RunReport) (session : Session) : Session :=
  let facts :=
    [ ("file", name), ("tokens", toString report.tokens), ("error_signal_tokens", toString report.metrics.signals) ]
  let rates :=
    if session.settings.performance then
      [ ("duration_ms", Number.fixedText 2 0 1), ("processing_rate_bytes_per_sec", Number.fixedText 0 0 1),
        ("processing_rate_tokens_per_sec", Number.fixedText 0 0 1) ]
    else []
  session.logSuccess limits Code.runComplete "Lexical analysis pipeline succeeded" (facts ++ rates)

/-- Analyses and lists an input that was read. -/
def stages (limits : Limits) (settings : Settings) (name : String) (input : InputText) (outlet : ω)
    (session : Session) : Except Fault (RunOutcome ω × Session) := do
  let writer := ListingWriter.ofOutlet outlet settings.listing
  let analyzed ← (Analyzer.withSettings settings.analysis).analyze limits (ListingWriter.accept limits) input.source
    writer session
  match analyzed with
  | ⟨_, writer, session, .error error⟩ => return (⟨writer.outlet, .error (.scan error)⟩, session)
  | ⟨analyzer, writer, session, .ok tokens⟩ =>
    match writer.finish limits session with
    | (session, .error error) => return (⟨(Medium.flush writer.outlet).1, .error (.scan error)⟩, session)
    | (session, .ok outlet) =>
      let report : RunReport := ⟨input.metadata, analyzer.metrics, tokens⟩
      let (outlet, failure) ←
        if settings.listing.summary then writeSummary outlet analyzer.metrics else pure (outlet, none)
      match failure with
      | some reason =>
        let session := session.logError limits Code.writeFailed "Failed to write token summary" none [("error", reason)]
        return (⟨outlet, .error (.other s!"Failed to write token summary: {reason}")⟩, session)
      | none => return (⟨outlet, .ok report⟩, logSuccess limits name report session)

/-- Runs an input that is read in a given way, under its name. -/
def ofInput (limits : Limits) (settings : Settings) (label name : String) (read : Reading InputText) (outlet : ω)
    (session : Session) : Except Fault (RunOutcome ω × Session) :=
  let (id, session) := session.takeNumber
  session.withinFile ⟨name⟩ id fun session =>
    let session := session.logInfo limits "Starting lexical analysis pipeline" [(label, name)]
    match read.run session with
    | (.error error, session) => .ok (⟨outlet, .error (.input error)⟩, session)
    | (.ok input, session) => stages limits settings name input outlet session

/-- Runs a file. -/
def ofFile (limits : Limits) (settings : Settings) (files : FileSystem) (path : String) :
    ω → Session → Except Fault (RunOutcome ω × Session) :=
  ofInput limits settings "file" path (Input.ofFile limits settings.reading files path)

/-- Runs an input that is no file. -/
def ofReader (limits : Limits) (settings : Settings) (name : String) (reader : Reader) :
    ω → Session → Except Fault (RunOutcome ω × Session) :=
  ofInput limits settings "input" name (Input.ofReader limits settings.reading name reader)

/-- The tokens of a file, with nothing written. It is read with the built-in settings. -/
def tokenize (limits : Limits) (settings : AnalysisSettings) (files : FileSystem) (path : String) (session : Session) :
    Except Fault (Except RunError TokenSequence × Session) :=
  match (Input.ofFile limits .builtIn files path).run session with
  | (.error error, session) => .ok (.error (.input error), session)
  | (.ok input, session) => do
    let session := session.trace limits "Tokenizing file"
      [ ("file", input.metadata.path), ("file_size_bytes", toString input.metadata.size),
        ("line_count", toString input.metadata.lines) ]
    let (_, session, result) ← (Analyzer.withSettings settings).tokenize limits input.source session
    return (result.mapError .scan, session)

end Run

end Lexing
