import Lexing.Settings.Basic

/-!
# Settings from the environment

Each setting has a variable of its own. A variable that is not set, or whose text cannot be read, leaves the built-in value
standing; no text is an error.
-/

namespace Lexing

/-- The variables of a process. -/
abbrev Environment := String → Option String

namespace Variable

def readingPerformance : String := "LEXAN_ENABLE_PERFORMANCE_LOGGING"
def warnEmpty : String := "LEXAN_WARN_ON_EMPTY_INPUT"
def detailed : String := "LEXAN_LEXICAL_DETAILED_METRICS"
def countBlanks : String := "LEXAN_LEXICAL_COUNT_WHITESPACE"
def reportSignals : String := "LEXAN_LEXICAL_REPORT_ERROR_TOKENS"
def format : String := "LEXAN_OUTPUT_FORMAT"
def blanks : String := "LEXAN_OUTPUT_INCLUDE_WHITESPACE"
def positions : String := "LEXAN_OUTPUT_INCLUDE_POSITIONS"
def summary : String := "LEXAN_OUTPUT_PRINT_SUMMARY"
def structured : String := "LEXAN_LOGGING_USE_STRUCTURED"
def console : String := "LEXAN_LOGGING_ENABLE_CONSOLE"
def minLevel : String := "LEXAN_LOGGING_MIN_LEVEL"
def performance : String := "LEXAN_LOGGING_LOG_PERFORMANCE"
def report : String := "LEXAN_LOGGING_CARGO_STYLE"
def fileContext : String := "LEXAN_LOGGING_INCLUDE_FILE_CONTEXT"

/-- Every variable that holds a setting. -/
def all : List String :=
  [ readingPerformance, warnEmpty, detailed, countBlanks, reportSignals, format, blanks, positions, summary, structured,
    console, minLevel, performance, report, fileContext ]

/-- No two settings share a variable. -/
theorem nodup_all : all.Nodup := by decide

end Variable

namespace Environment

/-- The truth value that a text spells. -/
def flag? : String → Option Bool
  | "true" => some true
  | "false" => some false
  | _ => none

/-- The level that a text names, by name or by number, in any case. -/
def level? (text : String) : Option Level :=
  match Text.lowercase text with
  | "error" | "0" => some .error
  | "warning" | "warn" | "1" => some .warning
  | "info" | "2" => some .info
  | "debug" | "3" => some .debug
  | _ => none

/-- The value of a variable, if it is set and its text can be read, else the one given. -/
def valueOf {α : Type} (environment : Environment) (read : String → Option α) (name : String) (missing : α) : α :=
  ((environment name).bind read).getD missing

/-- The reading settings of an environment. -/
def reading (environment : Environment) : ReadingSettings where
  performance := environment.valueOf flag? Variable.readingPerformance ReadingSettings.builtIn.performance
  warnEmpty := environment.valueOf flag? Variable.warnEmpty ReadingSettings.builtIn.warnEmpty

/-- The analysis settings of an environment. -/
def analysis (environment : Environment) : AnalysisSettings where
  detailed := environment.valueOf flag? Variable.detailed AnalysisSettings.builtIn.detailed
  countBlanks := environment.valueOf flag? Variable.countBlanks AnalysisSettings.builtIn.countBlanks
  reportSignals := environment.valueOf flag? Variable.reportSignals AnalysisSettings.builtIn.reportSignals

/-- The listing settings of an environment. -/
def listing (environment : Environment) : ListingSettings where
  format := environment.valueOf Format.parse? Variable.format ListingSettings.builtIn.format
  blanks := environment.valueOf flag? Variable.blanks ListingSettings.builtIn.blanks
  positions := environment.valueOf flag? Variable.positions ListingSettings.builtIn.positions
  summary := environment.valueOf flag? Variable.summary ListingSettings.builtIn.summary

/-- The logging settings of an environment. -/
def logging (environment : Environment) : LoggingSettings where
  structured := environment.valueOf flag? Variable.structured LoggingSettings.builtIn.structured
  console := environment.valueOf flag? Variable.console LoggingSettings.builtIn.console
  minLevel := environment.valueOf level? Variable.minLevel LoggingSettings.builtIn.minLevel
  performance := environment.valueOf flag? Variable.performance LoggingSettings.builtIn.performance
  report := environment.valueOf flag? Variable.report LoggingSettings.builtIn.report
  fileContext := environment.valueOf flag? Variable.fileContext LoggingSettings.builtIn.fileContext

/-- The settings of an environment. -/
def settings (environment : Environment) : Settings :=
  ⟨environment.reading, environment.analysis, environment.listing, environment.logging⟩

end Environment

end Lexing
