import Lexing.Session
import Lexing.Token.Classification

/-!
# Capabilities

What a build of the analyser can do, for a person who asks for help.
-/

namespace Lexing

/-- What a build of the analyser can do. -/
structure Capabilities where
  stages : Nat
  maxFileSize : Nat
  maxTokenLength : Nat
  maxTokenCount : Nat
  keywords : Nat
  formats : List String
  profile : String
  /-- Whether the report on errors and warnings is printed. -/
  report : Bool
deriving DecidableEq, Repr, Inhabited

namespace Capabilities

/-- The capabilities under some limits, in a session. -/
def ofSession (limits : Limits) (session : Session) : Capabilities where
  stages := 3
  maxFileSize := limits.maxFileSize
  maxTokenLength := limits.maxTokenLength
  maxTokenCount := limits.maxTokenCount
  keywords := Classification.keywords.length
  formats := Format.all.map Format.name
  profile := limits.profile
  report := session.settings.report

/-- The capabilities, a line for each. -/
def lines (c : Capabilities) : List String :=
  [ "Lexical Analysis Pipeline:",
    s!"- Pipeline Stages: {c.stages}",
    s!"- Max File Size: {c.maxFileSize / (1024 * 1024)} MB",
    s!"- Max Token Length: {c.maxTokenLength} chars",
    s!"- Max Token Count: {c.maxTokenCount}",
    s!"- Keywords: {c.keywords}",
    "- Output Formats: " ++ ", ".intercalate c.formats,
    s!"- Build Profile: {c.profile}",
    s!"- Cargo-style Output: {c.report}" ]

/-- The capabilities as one text. -/
def render (c : Capabilities) : String := "\n".intercalate c.lines

end Capabilities

end Lexing
