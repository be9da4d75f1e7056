import Lexing.Diagnostic.Ledger
import Lexing.Diagnostic.Service
import Lexing.Number.Rounding
import Lexing.Settings.Basic

/-!
# Sessions

A session is the state that all diagnostics of one run share: the service that events go to, the ledger that errors and
warnings are recorded in, the settings that were installed, and the file that is worked on. An event built while a file is
worked on can name it. Errors and warnings are recorded under that file whether or not the service lets them through; nothing
else is recorded, and nothing at all before a service is installed or while no file is worked on.

A run takes no time that could be told: durations are zero and rates are not known.
-/

namespace Lexing

/-- The file that is worked on, and its number in the run. -/
structure FileContext where
  path : Path
  id : Nat
deriving DecidableEq, Repr, Inhabited

/-- The state that the diagnostics of a run share. -/
structure Session where
  /-- The settings that were installed for this run, once they are. -/
  installed : Option LoggingSettings
  /-- The settings that hold until then. -/
  initial : LoggingSettings
  service : Option Service
  ledger : Option Ledger
  context : Option FileContext
  /-- The number that the next file gets. -/
  nextFile : Nat
  /-- Every event handed to the service, oldest first. -/
  sent : Array Event
  /-- What was written to the error stream. -/
  errors : String
  /-- The time that structured events carry. -/
  stamp : String
deriving Inhabited

namespace Session

/-- A session in which nothing is installed. -/
def fresh (initial : LoggingSettings) (stamp : String) : Session :=
  ⟨none, initial, none, none, none, 0, #[], "", stamp⟩

/-! ## Settings in force -/

/-- The settings in force. -/
def settings (session : Session) : LoggingSettings := session.installed.getD session.initial

/-- The most verbose level in force: the user's, raised to the floor. -/
def minLevel (limits : Limits) (session : Session) : Level := session.settings.minLevel.max limits.floor

/-- Whether a service and a ledger are installed. -/
def isReady (session : Session) : Bool := session.service.isSome && session.ledger.isSome

/-- Installs settings, which can be done once. -/
def installSettings (session : Session) (settings : LoggingSettings) : Except String Session :=
  match session.installed with
  | some _ => .error "Runtime preferences already initialized"
  | none => .ok { session with installed := some settings }

/-- Installs a service and an empty ledger, which can be done once. -/
def installService (session : Session) (service : Service) : Except String Session :=
  match session.service with
  | some _ => .error "Global logger already initialized"
  | none =>
    match session.ledger with
    | some _ => .error "Global error collector already initialized"
    | none => .ok { session with service := some service, ledger := some .empty }

/-- The service that the settings in force ask for: one stream of lines, or none. -/
def configuredService (limits : Limits) (session : Session) : Service :=
  let level := session.minLevel limits
  let target := if session.settings.structured then Target.structured level else Target.console level
  ⟨level, some level, if session.settings.console then [target] else []⟩

/-! ## The file that is worked on -/

/-- Makes a file the one that is worked on. -/
def setContext (session : Session) (path : Path) (id : Nat) : Session :=
  { session with
    ledger := session.ledger.map (·.recordContext path id)
    context := some ⟨path, id⟩ }

/-- Ends the work on a file. -/
def clearContext (session : Session) : Session := { session with context := none }

/-- Works on a file: whatever the work was on before, it is on nothing afterwards. -/
def withinFile {α : Type} (path : Path) (id : Nat) (work : Session → Except Fault (α × Session)) (session : Session) :
    Except Fault (α × Session) :=
  match work (session.setContext path id) with
  | .ok (result, session) => .ok (result, session.clearContext)
  | .error fault => .error fault

/-- Takes the next file number. -/
def takeNumber (session : Session) : Nat × Session :=
  (session.nextFile, { session with nextFile := session.nextFile + 1 })

/-! ## Events -/

/-- Writes a text to the error stream. -/
def print (session : Session) (text : String) : Session := { session with errors := session.errors ++ text }

/-- Names the file that is worked on in an event, if that is wanted. -/
def attachFile (session : Session) (event : Event) : Event :=
  if session.settings.fileContext then
    match session.context with
    | some file => (event.withFact "file" file.path.text).withFact "file_id" (toString file.id)
    | none => event
  else event

/-- Hands an event to the service. -/
def send (session : Session) (event : Event) : Session :=
  match session.service with
  | none => session
  | some service =>
    (service.lines session.stamp event).foldl (fun session line => session.print (line ++ "\n"))
      { session with sent := session.sent.push event }

/-- Records an event under the file that is worked on. -/
def record (limits : Limits) (session : Session) (event : Event) : Session :=
  match session.context with
  | some file => { session with ledger := session.ledger.map fun ledger => ledger.record limits file.path event }
  | none => session

/-- Completes an event with its place, its facts and the file that is worked on. -/
def complete (session : Session) (event : Event) (span : Option Span) (facts : List (String × String)) : Event :=
  let event :=
    match span with
    | some span => event.withSpan span
    | none => event
  session.attachFile (event.withFacts facts)

/-- Logs an error: it is sent and recorded. -/
def logError (limits : Limits) (session : Session) (code message : String) (span : Option Span)
    (facts : List (String × String)) : Session :=
  let event := session.complete (.error limits code message) span facts
  (session.send event).record limits event

/-- Logs a warning: it is sent and recorded. -/
def logWarning (limits : Limits) (session : Session) (code : Option String) (message : String) (span : Option Span)
    (facts : List (String × String)) : Session :=
  let event := session.complete (.warning limits code message) span facts
  (session.send event).record limits event

/-- Logs a success. -/
def logSuccess (limits : Limits) (session : Session) (code message : String) (facts : List (String × String)) :
    Session :=
  session.send (session.complete (.success limits code message) none facts)

/-- Logs a piece of information. -/
def logInfo (limits : Limits) (session : Session) (message : String) (facts : List (String × String)) : Session :=
  session.send (session.complete (.info limits message) none facts)

/-- Logs a remark. -/
def logDebug (limits : Limits) (session : Session) (message : String) (facts : List (String × String)) : Session :=
  session.send (session.complete (.debug limits message) none facts)

/-- Logs a remark if remarks are wanted at all. -/
def trace (limits : Limits) (session : Session) (message : String) (facts : List (String × String)) : Session :=
  if Level.debug ≤ session.minLevel limits then session.logDebug limits message facts else session

/-- Logs an error even when no service is installed; it goes to the error stream then. -/
def logErrorSafely (limits : Limits) (session : Session) (code message : String) : Session :=
  match session.service with
  | some _ => session.send (.error limits code message)
  | none => session.print s!"[ERROR] FALLBACK: [{code}] {message}\n"

/-! ## Reports -/

/-- The errors recorded for a file. -/
def fileErrors (session : Session) (path : Path) : List Event :=
  match session.ledger with
  | some ledger => ledger.errorsOf path
  | none => []

/-- The totals over all files. -/
def summary (session : Session) : Except Fault LedgerSummary :=
  match session.ledger with
  | some ledger => ledger.summary
  | none => .ok ⟨0, 0, 0, 0, 0, 0⟩

/-- Prints the report, if it is wanted. -/
def printReport (session : Session) : Except Fault Session :=
  if session.settings.report then
    match session.ledger with
    | some ledger => ledger.report.map session.print
    | none => .ok session
  else .ok session

/-- The share of a whole that a number is, as a measured quantity. -/
def share (number whole : Nat) : Number.Fraction :=
  if h : 0 < whole then Number.roundBinary ⟨number, whole, h⟩ else ⟨0, 1, Nat.one_pos⟩

/-- The limits and settings in force, for a reader of the diagnostics. -/
def describeSettings (limits : Limits) (session : Session) : String :=
  let settings := session.settings
  "Logging Configuration:\n" ++
    "=== Compile-time Limits ===\n" ++
    s!"- Log buffer size: {limits.logBufferSize}\n" ++
    s!"- Max events per file: {limits.maxEventsPerFile}\n" ++
    s!"- Max collected errors: {limits.maxErrorCollection}\n" ++
    s!"- Max message length: {limits.maxMessageLength}\n" ++
    s!"- Minimum level floor: {limits.floor.label}\n" ++
    "=== User Preferences (Runtime) ===\n" ++
    s!"- Min log level: {settings.minLevel.title}\n" ++
    s!"- Effective level: {(session.minLevel limits).label}\n" ++
    s!"- Structured logging: {settings.structured}\n" ++
    s!"- Console logging: {settings.console}\n" ++
    s!"- Performance events: {settings.performance}\n" ++
    s!"- Cargo-style output: {settings.report}\n" ++
    s!"- Include file context: {settings.fileContext}"

/-- The state of the diagnostics themselves. -/
def diagnostics (limits : Limits) (session : Session) : Except Fault String := do
  let counts ←
    match session.ledger with
    | none => pure ""
    | some ledger => do
      let part := share ledger.size limits.logBufferSize
      let percent := Number.roundBinary ⟨part.num * 100, part.den, part.den_pos⟩
      let summary ← ledger.summary
      pure <|
        s!"Capacity: {ledger.size}/{limits.logBufferSize} ({Number.fixedText 1 percent.num percent.den}%)\n" ++
          s!"Files processed: {summary.files}\n" ++
          s!"Total errors: {summary.errors}\n" ++
          s!"Total warnings: {summary.warnings}\n"
  return "=== Logging System Diagnostics ===\n" ++ s!"Initialized: {session.isReady}\n" ++ counts ++ "\n" ++
    session.describeSettings limits

end Session

end Lexing
