import Lexing.Diagnostic.Level
import Lexing.Listing.Format

/-!
# Settings

What a user may choose, in four sections: how inputs are read, how tokens are counted, how they are listed, and how
diagnostics are given. Limits are no settings: a user cannot raise them.
-/

namespace Lexing

/-- How inputs are read. -/
structure ReadingSettings where
  /-- Whether the news of an input read tells size and rate. -/
  performance : Bool
  /-- Whether an empty input is worth a warning. -/
  warnEmpty : Bool
deriving DecidableEq, Repr, Inhabited

/-- How tokens are counted. -/
structure AnalysisSettings where
  /-- Whether tokens are counted by kind. -/
  detailed : Bool
  /-- Whether the counts by kind include blank runs. -/
  countBlanks : Bool
  /-- Whether each signal token is worth a warning. -/
  reportSignals : Bool
deriving DecidableEq, Repr, Inhabited

/-- How tokens are listed. -/
structure ListingSettings where
  format : Format
  /-- Whether blank runs are listed. -/
  blanks : Bool
  /-- Whether a line for a person ends with the token's place. -/
  positions : Bool
  /-- Whether a table of counts follows the listing. -/
  summary : Bool
deriving DecidableEq, Repr, Inhabited

/-- How diagnostics are given. -/
structure LoggingSettings where
  /-- Whether events are written as JSON. -/
  structured : Bool
  /-- Whether events are written at all. -/
  console : Bool
  /-- The most verbose level that is written. The limits have a floor of their own. -/
  minLevel : Level
  /-- Whether the news of a finished run tells duration and rates. -/
  performance : Bool
  /-- Whether the report on errors and warnings is printed at the end. -/
  report : Bool
  /-- Whether events name the file that is worked on. -/
  fileContext : Bool
deriving DecidableEq, Repr, Inhabited

/-- All settings. -/
structure Settings where
  reading : ReadingSettings
  analysis : AnalysisSettings
  listing : ListingSettings
  logging : LoggingSettings
deriving DecidableEq, Repr, Inhabited

namespace ReadingSettings

/-- The built-in reading settings. -/
def builtIn : ReadingSettings := ⟨true, true⟩

end ReadingSettings

namespace AnalysisSettings

/-- The built-in analysis settings. -/
def builtIn : AnalysisSettings := ⟨true, false, false⟩

end AnalysisSettings

namespace ListingSettings

/-- The built-in listing settings. -/
def builtIn : ListingSettings := ⟨.plain, false, false, false⟩

end ListingSettings

namespace LoggingSettings

/-- The built-in logging settings. -/
def builtIn : LoggingSettings := ⟨false, true, .warning, false, true, true⟩

end LoggingSettings

namespace Settings

/-- The built-in settings. -/
def builtIn : Settings := ⟨.builtIn, .builtIn, .builtIn, .builtIn⟩

end Settings

end Lexing
