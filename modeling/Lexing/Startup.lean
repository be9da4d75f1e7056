import Lexing.Session
import Lexing.Token.Classification

/-!
# Startup

Before a run begins, the limits are looked over, the service is installed, and every stage is checked for the codes that it
reports under. The number of a failed check is its first complaint.
-/

namespace Lexing.Startup

/-- What is wrong with the limits on diagnostics, if anything. -/
def limitsComplaint (limits : Limits) : Option String :=
  if 100000 < limits.logBufferSize then some s!"Log buffer size too large: {limits.logBufferSize}"
  else if limits.logBufferSize < 100 then some s!"Log buffer size too small: {limits.logBufferSize}"
  else if limits.logBufferSize < limits.maxEventsPerFile then
    some "Max log events per file exceeds total buffer size"
  else if limits.maxMessageLength = 0 then some "Max log message length cannot be zero"
  else none

/-- The first of some codes that is not registered. -/
def unregistered? (codes : List String) : Option String := codes.find? fun code => (Registry.find? code).isNone

/-- Checks the stage that reads inputs. -/
def checkReading (limits : Limits) (session : Session) : Except String Unit × Session :=
  match unregistered? [ Code.fileNotFound, Code.fileTooLarge, Code.emptyFile, Code.permissionDenied,
      Code.invalidEncoding, Code.ioError, Code.invalidPath, Code.tooManyLines, Code.fileComplete ] with
  | some code => (.error s!"File processor code {code} not found in metadata registry", session)
  | none =>
    (.ok (), session.trace limits "File processor compile-time configuration loaded"
      [ ("max_file_size", toString limits.maxFileSize), ("large_file_threshold", toString limits.largeFileThreshold),
        ("max_line_count", toString limits.maxLineCount) ])

/-- Checks the stage that analyses texts. That its limits are not zero is part of what limits are. -/
def checkAnalysis (limits : Limits) (session : Session) : Except String Unit × Session :=
  match unregistered? [ Code.tokenTooLong, Code.tooManyTokens, Code.sinkFailed, Code.signalToken,
      Code.analysisComplete ] with
  | some code => (.error s!"Lexical code {code} not found in metadata registry", session)
  | none =>
    (.ok (), session.trace limits "Lexical limits initialized"
      [ ("max_token_length", toString limits.maxTokenLength), ("max_token_count", toString limits.maxTokenCount),
        ("keywords", ",".intercalate Classification.keywords) ])

/-- Checks all stages. -/
def checkStages (limits : Limits) (session : Session) : Except String Unit × Session :=
  match checkReading limits (session.trace limits "Validating pipeline configuration" []) with
  | (.error complaint, session) => (.error complaint, session)
  | (.ok (), session) =>
    match checkAnalysis limits session with
    | (.error complaint, session) => (.error complaint, session)
    | (.ok (), session) =>
      match unregistered? [Code.writeFailed, Code.outputComplete, Code.runFailed, Code.runComplete] with
      | some code => (.error s!"Pipeline code {code} not found in metadata registry", session)
      | none =>
        (.ok (), session.logSuccess limits Code.startupComplete "Pipeline validation succeeded"
          [ ("stages_validated", "3"), ("file_processing", "true"), ("lexical_analysis", "true"),
            ("output", "true") ])

/-- Installs the service that the settings in force ask for. -/
def installService (limits : Limits) (session : Session) : Except String Unit × Session :=
  match limitsComplaint limits with
  | some complaint => (.error s!"Configuration validation failed: {complaint}", session)
  | none =>
    match session.installService (session.configuredService limits) with
    | .error complaint => (.error complaint, session)
    | .ok session =>
      match unregistered? [Code.internalError, Code.fileNotFound, Code.tokenTooLong, Code.analysisComplete] with
      | some code => (.error s!"Missing metadata for code: {code}", session)
      | none => (.ok (), session.send (.success limits Code.startupComplete "Global logging system initialized"))

/-- Installs settings and service, and checks all stages. -/
def begin (limits : Limits) (settings : LoggingSettings) (session : Session) : Except String Unit × Session :=
  match session.installSettings settings with
  | .error complaint => (.error complaint, session)
  | .ok session =>
    match installService limits session with
    | (.error complaint, session) => (.error complaint, session)
    | (.ok (), session) => checkStages limits session

end Lexing.Startup
