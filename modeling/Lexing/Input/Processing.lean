import Lexing.Input.Error
import Lexing.Input.Metadata
import Lexing.Input.Reader
import Lexing.Session
import Lexing.Text.Blank
import Lexing.Text.Utf8

/-!
# Processing of inputs

An input is read whole, under the limits on size and lines, and must be UTF-8. Size is checked before encoding, and encoding
before lines. Every error is logged before it is returned.
-/

namespace Lexing

/-- The text of an input, and its metadata. -/
structure InputText where
  source : String
  metadata : Metadata
deriving DecidableEq, Repr, Inhabited

namespace InputText

/-- Whether an input holds nothing but blank space. -/
def isEffectivelyEmpty (input : InputText) : Bool := Text.isBlankText input.source

end InputText

/-- Work that reads an input and logs what it does. -/
abbrev Reading := ExceptT InputError (StateM Session)

namespace Input

/-- Logs a remark. -/
def remark (limits : Limits) (message : String) (facts : List (String × String)) : Reading Unit :=
  modify fun session => session.trace limits message facts

/-- Logs an error and gives up with it. -/
def fail {α : Type} (limits : Limits) (error : InputError) (message : String) (facts : List (String × String)) :
    Reading α := do
  modify fun session => session.logError limits error.code message none facts
  throw error

/-- Refuses an input that is too large. -/
def checkSize (limits : Limits) (size : Nat) (name : String) : Reading Unit :=
  if limits.maxFileSize < size then
    fail limits (.tooLarge size limits.maxFileSize) "Input exceeds compile-time maximum size limit"
      [ ("file", name), ("size_bytes", toString size), ("size_human", humanSize size),
        ("limit_bytes", toString limits.maxFileSize), ("limit_human", humanSize limits.maxFileSize) ]
  else pure ()

/-- Logs that an input was read. -/
def logSuccess (limits : Limits) (settings : ReadingSettings) (name : String) (input : InputText) : Reading Unit :=
  let metadata := input.metadata
  let duration := Number.fixedText 2 0 1
  modify fun session =>
    if settings.performance then
      session.logSuccess limits Code.fileComplete "Input read successfully with performance metrics"
        [ ("file", name), ("size_bytes", toString metadata.size), ("size_human", humanSize metadata.size),
          ("lines", toString metadata.lines), ("chars", toString input.source.length), ("duration_ms", duration),
          ("chars_per_ms", duration), ("is_large_file", toString (metadata.isLarge limits)) ]
    else
      session.logSuccess limits Code.fileComplete "Input read successfully"
        [ ("file", name), ("size_bytes", toString metadata.size), ("lines", toString metadata.lines),
          ("duration_ms", duration) ]

/-- Counts the lines of a text that was read, and tells that it was. -/
def finish (limits : Limits) (settings : ReadingSettings) (name source : String) (metadata : Metadata) :
    Reading InputText := do
  let lines := Text.lineCount source
  if limits.maxLineCount < lines then
    fail limits (.tooManyLines lines limits.maxLineCount) "Input exceeds maximum line count for analysis"
      [("file", name), ("lines", toString lines), ("max_lines", toString limits.maxLineCount)]
  else
    let input : InputText := ⟨source, { metadata with lines := lines }⟩
    if metadata.isEmpty && settings.warnEmpty then
      modify fun session =>
        session.logWarning limits (some Code.emptyFile) "Input is empty; no tokens will be produced" none []
    logSuccess limits settings name input
    return input

/-- Reads an input that is no file. One byte past the limit is enough to see that an input is too large. -/
def ofReader (limits : Limits) (settings : ReadingSettings) (name : String) (reader : Reader) : Reading InputText := do
  remark limits "Starting reader processing" [("input", name)]
  match reader.read (limits.maxFileSize + 1) with
  | .error failure =>
    fail limits (.ofFailure name failure) "Failed to read input" [("input", name), ("io_error", failure.message)]
  | .ok bytes =>
    checkSize limits bytes.size name
    match String.fromUTF8? bytes with
    | none =>
      fail limits (.invalidEncoding name) "Input is not valid UTF-8"
        [("input", name), ("valid_up_to", toString (Text.validUpTo bytes))]
    | some source => finish limits settings name source (.named name bytes.size)

/-- The place of the file that a path leads to, its size and its content. -/
def locate (limits : Limits) (files : FileSystem) (path : String) :
    Reading (List String × Nat × Except IoFailure ByteArray) := do
  if path = "" then fail limits (.invalidPath path) "Empty file path provided" []
  else
    match files.find path with
    | .error _ => fail limits (.notFound path) "File not found" [("path", path)]
    | .ok (_, .directory) => fail limits (.invalidPath path) "Path is not a file" [("path", path)]
    | .ok (place, .file content) => return (place, content.size, .ok content)
    | .ok (place, .locked size failure) => return (place, size, .error failure)

/-- Reads a file. -/
def ofFile (limits : Limits) (settings : ReadingSettings) (files : FileSystem) (path : String) :
    Reading InputText := do
  remark limits "Starting file processing" [("file", path)]
  let (place, size, content) ← locate limits files path
  let full := FileSystem.absolute place
  remark limits "Path validation successful" [("canonical_path", full)]
  let metadata : Metadata := ⟨full, size, extension? (place.getLast?.getD ""), 0, true⟩
  remark limits "File metadata collected"
    [ ("size_bytes", toString size), ("size_human", humanSize size), ("extension", metadata.extension.getD "none"),
      ("max_size_bytes", toString limits.maxFileSize), ("is_large_file", toString (metadata.isLarge limits)) ]
  checkSize limits size path
  let refuse (failure : IoFailure) : Reading InputText :=
    fail limits (.ofFailure path failure) "Failed to read file contents"
      [("file", path), ("io_error", failure.message)]
  match content with
  | .error failure => refuse failure
  | .ok bytes =>
    match String.fromUTF8? bytes with
    | none => refuse .notText
    | some source =>
      remark limits "File content read successfully" [("file", path), ("bytes", toString source.utf8ByteSize)]
      finish limits settings path source metadata

end Input

end Lexing
