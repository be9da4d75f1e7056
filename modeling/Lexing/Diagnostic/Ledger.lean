import Lexing.Diagnostic.Event
import Lexing.Path

/-!
# Ledger

The errors and warnings of each file, in the order in which they came, and the files that were worked on. The ledger keeps a
bounded number of events for each file, then one notice that there were more, and a bounded number for all files together.
-/

namespace Lexing

/-- The events kept for each file, and the numbers of the files that were worked on, both in the order of paths. -/
structure Ledger where
  events : List (Path × Array Event)
  contexts : List (Path × Nat)
deriving Inhabited

/-- Totals over all files of a ledger. -/
structure LedgerSummary where
  files : Nat
  successful : Nat
  failed : Nat
  /-- The files with warnings and no errors. -/
  warned : Nat
  errors : Nat
  warnings : Nat
deriving DecidableEq, Repr, Inhabited

namespace Ledger

/-- A ledger with nothing in it. -/
def empty : Ledger := ⟨[], []⟩

/-- The number of events kept for all files together. -/
def size (ledger : Ledger) : Nat := Assoc.total (fun _ events => events.size) ledger.events

/-- The notice that a file had more events than are kept. -/
def overflowNotice (limits : Limits) : Event :=
  .warning limits none s!"Too many events for file (limit: {limits.maxEventsPerFile})"

/-- Adds an event to those of one file, or the notice in place of the first that is one too many. -/
def keep (limits : Limits) (event : Event) (events : Array Event) : Array Event :=
  if events.size < limits.maxEventsPerFile then events.push event
  else if events.size = limits.maxEventsPerFile then events.push (overflowNotice limits)
  else events

/-- Records an event for a file, while the ledger has room. -/
def record (limits : Limits) (ledger : Ledger) (path : Path) (event : Event) : Ledger :=
  if limits.maxErrorCollection ≤ ledger.size then ledger
  else
    { ledger with
      events := Assoc.alter Path.compare path (fun events => keep limits event (events.getD #[])) ledger.events }

/-- Records that a file is worked on. -/
def recordContext (ledger : Ledger) (path : Path) (id : Nat) : Ledger :=
  { ledger with contexts := Assoc.insert Path.compare path id ledger.contexts }

/-- The events kept for a file. -/
def eventsOf (ledger : Ledger) (path : Path) : List Event :=
  ((Assoc.get? Path.compare path ledger.events).getD #[]).toList

/-- The errors kept for a file. -/
def errorsOf (ledger : Ledger) (path : Path) : List Event := (ledger.eventsOf path).filter Event.isError

/-- Whether an error is kept for a file. -/
def hasErrors (ledger : Ledger) (path : Path) : Bool := !(ledger.errorsOf path).isEmpty

/-- The number of errors among some events. -/
def errorCount (events : Array Event) : Nat := events.countP Event.isError

/-- The number of warnings among some events. -/
def warningCount (events : Array Event) : Nat := events.countP Event.isWarning

/-- The totals over all files. A file counts once, under the gravest of its events; of the two tables of files the longer one
says how many there are. -/
def summary (ledger : Ledger) : Except Fault LedgerSummary := do
  let kept := ledger.events.map Prod.snd
  let files := max ledger.contexts.length kept.length
  let failed := kept.countP fun events => 0 < errorCount events
  let warned := kept.countP fun events => errorCount events = 0 && 0 < warningCount events
  let rest ← checkedSub files failed
  let successful ← checkedSub rest warned
  let errors := Assoc.total (fun _ events => errorCount events) ledger.events
  let warnings := Assoc.total (fun _ events => warningCount events) ledger.events
  return ⟨files, successful, failed, warned, errors, warnings⟩

/-- Forgets everything. -/
def clear (_ : Ledger) : Ledger := empty

/-- Where an event is about, behind its message in the report. -/
def location (path : Path) (event : Event) : String :=
  match event.span with
  | some span => s!" --> {path.text}:{span.start.render}"
  | none => ""

/-- The facts of an event in the report; the file is named by the report itself. -/
def factLines (event : Event) : String :=
  String.join ((event.context.filter fun (key, _) => key ≠ "file" && key ≠ "file_id").map fun (key, value) =>
    s!"  = {key}: {value}\n")

/-- An error in the report. -/
def errorEntry (path : Path) (event : Event) : String :=
  let action := Registry.action event.code
  s!"error[{event.code}]: {event.message}{location path event}\n" ++
    s!"  = severity: {(Registry.severity event.code).name}, category: {Registry.category event.code}\n" ++
    factLines event ++ if action = Registry.noAction then "" else s!"  = help: {action}\n"

/-- A warning in the report. -/
def warningEntry (path : Path) (event : Event) : String :=
  s!"warning[{event.code}]: {event.message}{location path event}\n" ++ factLines event

/-- The part of the report on one file: nothing when it has neither errors nor warnings, else the errors and then the
warnings. -/
def fileReport (path : Path) (events : List Event) : String :=
  let errors := events.filter Event.isError
  let warnings := events.filter Event.isWarning
  if errors.isEmpty && warnings.isEmpty then ""
  else
    s!"Checking {path.text}...\n" ++ String.join (errors.map (errorEntry path)) ++
      String.join (warnings.map (warningEntry path)) ++ "\n"

/-- The report on all files in the order of paths, and the totals. -/
def report (ledger : Ledger) : Except Fault String := do
  let files := ledger.events.map fun (path, events) => fileReport path events.toList
  let summary ← ledger.summary
  return String.join files ++ (if 0 < summary.errors then s!"Total errors: {summary.errors}\n" else "") ++
    if 0 < summary.warnings then s!"Total warnings: {summary.warnings}\n" else ""

end Ledger

end Lexing
