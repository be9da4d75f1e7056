import Lexing.Diagnostic.Level

/-!
# Limits

The bounds that a build of the analyser carries with it. They cannot be raised at run time. A record of limits holds only
usable values: neither limit on tokens is zero, the floor of levels stays above the debugging level, and the events kept for
one file fit the event buffer.
-/

namespace Lexing

/-- The bounds that a build carries with it. -/
structure Limits where
  /-- The name of the build profile that the limits come from. -/
  profile : String
  /-- The largest input, in bytes. -/
  maxFileSize : Nat
  /-- An input above this many bytes counts as large. -/
  largeFileThreshold : Nat
  /-- The most lines an input may have. -/
  maxLineCount : Nat
  /-- The longest token, in characters. -/
  maxTokenLength : Nat
  /-- The most tokens one scan may deliver. -/
  maxTokenCount : Nat
  /-- The most events the ledger keeps for all files together. -/
  maxErrorCollection : Nat
  /-- The most events one event buffer holds. -/
  logBufferSize : Nat
  /-- The longest event message, in bytes. -/
  maxMessageLength : Nat
  /-- The most events the ledger keeps for one file, before the notice that there were more. -/
  maxEventsPerFile : Nat
  /-- Events at this level or a more urgent one cannot be filtered out. -/
  floor : Level
  tokenLength_pos : 0 < maxTokenLength := by decide
  tokenCount_pos : 0 < maxTokenCount := by decide
  floor_le : floor ≤ .info := by decide
  eventsPerFile_le : maxEventsPerFile ≤ logBufferSize := by decide

namespace Limits

/-- The limits of a development build. -/
def development : Limits where
  profile := "development"
  maxFileSize := 10485760
  largeFileThreshold := 1048576
  maxLineCount := 1000000
  maxTokenLength := 1048576
  maxTokenCount := 5000000
  maxErrorCollection := 1000
  logBufferSize := 10000
  maxMessageLength := 4096
  maxEventsPerFile := 500
  floor := .warning

/-- The directory that holds the build profiles. -/
def configDirectory : String := "config"

/-- Where the limits come from, for a reader of the diagnostics. -/
def origin (limits : Limits) : String := s!"Generated from {configDirectory}/{limits.profile}.toml"

end Limits

end Lexing
