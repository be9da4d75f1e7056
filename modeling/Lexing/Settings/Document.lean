import Lexing.Input.FileSystem
import Lexing.Diagnostic.Code
import Lexing.Settings.Environment
import Lexing.Toml.Document

/-!
# Settings from a document

A settings document is a TOML table of sections. A setting that the document does not name is taken from the environment. Keys
and sections that name no setting are passed over. A section may also be written as an array, which gives its settings in
their order.
-/

namespace Lexing

/-- Why a settings document could not be used. -/
inductive SettingsError where
  | unreadable (path message : String)
  | malformed (path message : String)
deriving DecidableEq, Repr, Inhabited

namespace SettingsError

/-- An error in words. -/
def message : SettingsError → String
  | unreadable path message => s!"Failed to read configuration file {path}: {message}"
  | malformed path message => s!"Invalid configuration in {path}: {message}"

/-- The code under which an error is reported. -/
def code : SettingsError → String
  | unreadable _ _ => Code.settingsUnreadable
  | malformed _ _ => Code.settingsMalformed

end SettingsError

namespace Settings.Document

open Toml

/-- What a section gives for a setting: by its place in the section, or by its key. -/
abbrev Section := Nat → String → Option Value

/-- What a value gives when it is read as a section. A time is a section that gives nothing. -/
def section? : Value → Option Section
  | .table _ entries => some fun _ key => Entries.get? entries key
  | .array items => some fun place _ => items[place]?
  | .tables items => some fun place _ => items[place]?.map (.table .headed)
  | .time => some fun _ _ => none
  | _ => none

/-- The truth value that a value is. -/
def flag? : Value → Option Bool
  | .boolean value => some value
  | _ => none

/-- Whether a value holds nothing, as the value beside a name must. -/
def isUnit : Value → Bool
  | .array items => items.isEmpty
  | .tables items => items.isEmpty
  | .table _ entries => entries.isEmpty
  | _ => false

/-- The name that a value gives: a text, or a table with the name as its only key. -/
def name? : Value → Option String
  | .string text => some text
  | .table _ [(key, value)] => if isUnit value then some key else none
  | _ => none

/-- The format that a value names, exactly as formats are written. -/
def format? (value : Value) : Option Format := (name? value).bind fun name => Format.all.find? fun f => f.name = name

/-- The level that a value names, exactly as levels are written. -/
def level? (value : Value) : Option Level :=
  (name? value).bind fun name => Level.all.find? fun level => level.word = name

/-- A setting of a section: the value given for it, which must be one of its values, or else the one it has already. -/
def field {α : Type} (found : Section) (read : Value → Option α) (place : Nat) (key : String) (missing : α) : Option α :=
  match found place key with
  | none => some missing
  | some value => read value

/-- A section of a document, or the settings it has already if the document does not have it. -/
def part {α : Type} (document : Section) (read : Section → α → Option α) (place : Nat) (key : String) (missing : α) :
    Option α :=
  match document place key with
  | none => some missing
  | some value => (section? value).bind fun found => read found missing

/-- The reading settings of a section. -/
def reading (found : Section) (missing : ReadingSettings) : Option ReadingSettings := do
  let performance ← field found flag? 0 "enable_performance_logging" missing.performance
  let warnEmpty ← field found flag? 1 "warn_on_empty_input" missing.warnEmpty
  return ⟨performance, warnEmpty⟩

/-- The analysis settings of a section. -/
def analysis (found : Section) (missing : AnalysisSettings) : Option AnalysisSettings := do
  let detailed ← field found flag? 0 "collect_detailed_metrics" missing.detailed
  let countBlanks ← field found flag? 1 "include_whitespace_in_counts" missing.countBlanks
  let reportSignals ← field found flag? 2 "report_error_signal_tokens" missing.reportSignals
  return ⟨detailed, countBlanks, reportSignals⟩

/-- The listing settings of a section. -/
def listing (found : Section) (missing : ListingSettings) : Option ListingSettings := do
  let format ← field found format? 0 "format" missing.format
  let blanks ← field found flag? 1 "include_whitespace" missing.blanks
  let positions ← field found flag? 2 "include_positions" missing.positions
  let summary ← field found flag? 3 "print_summary" missing.summary
  return ⟨format, blanks, positions, summary⟩

/-- The logging settings of a section. -/
def logging (found : Section) (missing : LoggingSettings) : Option LoggingSettings := do
  let structured ← field found flag? 0 "use_structured_logging" missing.structured
  let console ← field found flag? 1 "enable_console_logging" missing.console
  let minLevel ← field found level? 2 "min_log_level" missing.minLevel
  let performance ← field found flag? 3 "log_performance_events" missing.performance
  let report ← field found flag? 4 "enable_cargo_style_output" missing.report
  let fileContext ← field found flag? 5 "include_file_context" missing.fileContext
  return ⟨structured, console, minLevel, performance, report, fileContext⟩

/-- The settings of a document, over the settings that hold already. -/
def settings (document : Entries) (missing : Settings) : Option Settings := do
  let found : Section := fun _ key => document.get? key
  let reading ← part found reading 0 "file_processor" missing.reading
  let analysis ← part found analysis 1 "lexical" missing.analysis
  let listing ← part found listing 2 "output" missing.listing
  let logging ← part found logging 3 "logging" missing.logging
  return ⟨reading, analysis, listing, logging⟩

end Settings.Document

namespace Settings

/-- The settings that the text of a document gives, over those of the environment. -/
def ofText (environment : Environment) (document origin : String) : Except SettingsError Settings :=
  match Toml.parse? document with
  | none => .error (.malformed origin "TOML parse error: the document is not well formed")
  | some entries =>
    match Document.settings entries environment.settings with
    | none => .error (.malformed origin "TOML parse error: a setting has no such value")
    | some settings => .ok settings

/-- The settings of a file. -/
def load (environment : Environment) (files : FileSystem) (path : String) : Except SettingsError Settings :=
  match files.readText path with
  | .error failure => .error (.unreadable path failure.message)
  | .ok document => ofText environment document path

/-- A setting of a document, as it is written. -/
def renderEntry (key value : String) : String := s!"{key} = {value}\n"

/-- A truth value of a document. -/
def renderFlag (key : String) (value : Bool) : String := renderEntry key (toString value)

/-- A text of a document that needs no escapes. -/
def renderText (key text : String) : String := renderEntry key ("\"" ++ text ++ "\"")

/-- A document that gives these settings, which reads back as them. -/
def render (settings : Settings) : String :=
  "[file_processor]\n" ++
    renderFlag "enable_performance_logging" settings.reading.performance ++
    renderFlag "warn_on_empty_input" settings.reading.warnEmpty ++
    "\n[lexical]\n" ++
    renderFlag "collect_detailed_metrics" settings.analysis.detailed ++
    renderFlag "include_whitespace_in_counts" settings.analysis.countBlanks ++
    renderFlag "report_error_signal_tokens" settings.analysis.reportSignals ++
    "\n[output]\n" ++
    renderText "format" settings.listing.format.name ++
    renderFlag "include_whitespace" settings.listing.blanks ++
    renderFlag "include_positions" settings.listing.positions ++
    renderFlag "print_summary" settings.listing.summary ++
    "\n[logging]\n" ++
    renderFlag "use_structured_logging" settings.logging.structured ++
    renderFlag "enable_console_logging" settings.logging.console ++
    renderText "min_log_level" settings.logging.minLevel.word ++
    renderFlag "log_performance_events" settings.logging.performance ++
    renderFlag "enable_cargo_style_output" settings.logging.report ++
    renderFlag "include_file_context" settings.logging.fileContext

end Settings

end Lexing
