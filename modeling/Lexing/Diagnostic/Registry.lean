import Lexing.Diagnostic.Code

/-!
# Registry

What is known of each code: how grave it is, whether work can go on, and what it means to a reader. A code that is not
registered is of medium severity, recoverable, and means nothing in particular.
-/

namespace Lexing

/-- How grave a diagnostic is, the gravest first. -/
inductive Severity where
  | critical
  | high
  | medium
  | low
deriving DecidableEq, Repr, Inhabited

namespace Severity

/-- The place of a severity, counted from the gravest. -/
def rank : Severity → Nat
  | critical => 0
  | high => 1
  | medium => 2
  | low => 3

/-- The name of a severity. -/
def name : Severity → String
  | critical => "Critical"
  | high => "High"
  | medium => "Medium"
  | low => "Low"

end Severity

/-- What is known of a code. -/
structure CodeEntry where
  code : String
  category : String
  severity : Severity
  recoverable : Bool
  /-- Whether work on the input stops. -/
  halts : Bool
  description : String
  action : String
deriving DecidableEq, Repr, Inhabited

namespace Registry

/-- An entry for a code after which work on the input stops. -/
def halting (code category : String) (severity : Severity) (description action : String) : CodeEntry :=
  ⟨code, category, severity, false, true, description, action⟩

/-- An entry for a code that is recorded while work goes on. -/
def advisory (code category description action : String) : CodeEntry :=
  ⟨code, category, .low, true, false, description, action⟩

/-- Every registered code. -/
def entries : List CodeEntry :=
  [ halting Code.internalError "System" .critical "Critical internal system error"
      "File a bug report with the input that triggered it",
    halting Code.startupFailure "System" .critical "System initialization failed"
      "Check build configuration and logging settings",
    halting Code.fileNotFound "FileProcessing" .high "Input file not found"
      "Verify the file path exists and is spelled correctly",
    halting Code.fileTooLarge "FileProcessing" .high "Input file exceeds the maximum allowed size"
      "Split the input or rebuild with a larger max_file_size",
    advisory Code.emptyFile "FileProcessing" "Input file is empty" "No tokens will be produced for an empty input",
    halting Code.permissionDenied "FileProcessing" .high "Permission denied reading input file"
      "Check file permissions",
    halting Code.invalidEncoding "FileProcessing" .high "Input is not valid UTF-8" "Convert the input to UTF-8",
    halting Code.ioError "FileProcessing" .high "I/O error while reading input" "Check the storage device and retry",
    halting Code.invalidPath "FileProcessing" .high "Input path is invalid" "Provide a path to a regular file",
    halting Code.tooManyLines "FileProcessing" .high "Input file has too many lines"
      "Split the input or rebuild with a larger max_line_count_for_analysis",
    halting Code.tokenTooLong "Lexical" .high "Candidate token exceeds the maximum token length"
      "Insert whitespace or delimiters to break up the long token",
    halting Code.tooManyTokens "Lexical" .high "Token count exceeds the maximum allowed"
      "Split the input into smaller files",
    halting Code.sinkFailed "Lexical" .high "Token sink rejected a token" "Check the output destination",
    advisory Code.signalToken "Lexical" "Token classified as Invalid Identifier or Include Directive"
      "Review the reported token in the source",
    halting Code.writeFailed "Output" .high "Failed to write token output" "Check that stdout is writable",
    halting Code.settingsUnreadable "Configuration" .high "Runtime configuration file could not be read"
      "Check the --config path",
    halting Code.settingsMalformed "Configuration" .high "Runtime configuration file is not valid TOML"
      "Fix the syntax reported in the message",
    halting Code.runFailed "Pipeline" .high "Pipeline stage failed" "See the preceding error for the failing stage",
    advisory Code.startupComplete "System" "System initialization completed successfully"
      "System ready for processing",
    advisory Code.fileComplete "FileProcessing" "File processing completed successfully"
      "Continue to next processing stage",
    advisory Code.analysisComplete "Lexical" "Tokenization completed successfully" "Continue to output stage",
    advisory Code.outputComplete "Output" "Token output completed successfully" "No action required",
    advisory Code.runComplete "Pipeline" "Pipeline completed successfully" "No action required" ]

/-- The entry of a code, if it is registered. -/
def find? (code : String) : Option CodeEntry := entries.find? fun entry => entry.code = code

/-- How grave a code is. -/
def severity (code : String) : Severity := ((find? code).map CodeEntry.severity).getD .medium

/-- Whether work can go on after a code. -/
def recoverable (code : String) : Bool := ((find? code).map CodeEntry.recoverable).getD true

/-- Whether work on the input stops at a code. -/
def halts (code : String) : Bool := ((find? code).map CodeEntry.halts).getD false

/-- The description of a code that is not registered. -/
def noDescription : String := "Unknown error"

/-- The action for a code that is not registered. -/
def noAction : String := "No specific action available"

/-- What a code means. -/
def description (code : String) : String := ((find? code).map CodeEntry.description).getD noDescription

/-- What a reader can do about a code. -/
def action (code : String) : String := ((find? code).map CodeEntry.action).getD noAction

/-- The part of the work that a code belongs to. -/
def category (code : String) : String := ((find? code).map CodeEntry.category).getD "Unknown"

/-- No code is registered twice. -/
theorem nodup_codes : (entries.map CodeEntry.code).Nodup := by decide

end Registry

end Lexing
