import Lexing.Diagnostic.Registry
import Lexing.Input.FileSystem

/-!
# Input errors

Why an input could not be read. Every one of them ends the work on the input.
-/

namespace Lexing

/-- Why an input could not be read. -/
inductive InputError where
  | notFound (path : String)
  | tooLarge (size limit : Nat)
  | permissionDenied (path : String)
  | invalidEncoding (path : String)
  | io (message : String)
  | invalidPath (path : String)
  | tooManyLines (lines limit : Nat)
deriving DecidableEq, Repr, Inhabited

namespace InputError

/-- An error in words. -/
def message : InputError → String
  | notFound path => s!"File not found: {path}"
  | tooLarge size limit => s!"File too large: {size} bytes (max: {limit})"
  | permissionDenied path => s!"Permission denied: {path}"
  | invalidEncoding path => s!"Invalid UTF-8 encoding in input: {path}"
  | io message => s!"I/O error reading input: {message}"
  | invalidPath path => s!"Invalid file path: {path}"
  | tooManyLines lines limit => s!"Input exceeds maximum line count: {lines} (max: {limit})"

/-- The code under which an error is reported. -/
def code : InputError → String
  | notFound _ => Code.fileNotFound
  | tooLarge _ _ => Code.fileTooLarge
  | permissionDenied _ => Code.permissionDenied
  | invalidEncoding _ => Code.invalidEncoding
  | io _ => Code.ioError
  | invalidPath _ => Code.invalidPath
  | tooManyLines _ _ => Code.tooManyLines

/-- The error that a failed read of an input amounts to. -/
def ofFailure (path : String) (failure : IoFailure) : InputError :=
  match failure.kind with
  | .notFound => notFound path
  | .permissionDenied => permissionDenied path
  | .invalidData => invalidEncoding path
  | _ => io s!"Failed to read '{path}': {failure.message}"

end InputError

end Lexing
