import Lexing.Path

/-!
# File systems

What a run can see of files: a working directory, and what lies at each place. A path is followed piece by piece between its
slashes. Each piece needs a directory to start from, also an empty one, so a slash behind a file's name leads nowhere and so
does a step up from a directory that is not there.
-/

namespace Lexing

/-- The sorts of failure that are told apart when an input is read. -/
inductive IoKind where
  | notFound
  | permissionDenied
  | invalidData
  /-- The read was cut short and can be tried again. -/
  | interrupted
  | other
deriving DecidableEq, Repr, Inhabited

/-- A failed read: its sort and what is said of it. -/
structure IoFailure where
  kind : IoKind
  message : String
deriving DecidableEq, Repr, Inhabited

namespace IoFailure

/-- Nothing lies at the end of the path. -/
def missing : IoFailure := ⟨.notFound, "No such file or directory (os error 2)"⟩

/-- The path leads through something that is not a directory. -/
def notDirectory : IoFailure := ⟨.other, "Not a directory (os error 20)"⟩

/-- A directory was to be read as a file. -/
def isDirectory : IoFailure := ⟨.other, "Is a directory (os error 21)"⟩

/-- A name, or the whole path, is longer than the system allows. -/
def nameTooLong : IoFailure := ⟨.other, "File name too long (os error 36)"⟩

/-- The path holds a character that no name may hold. -/
def badName : IoFailure := ⟨.other, "file name contained an unexpected NUL byte"⟩

/-- The bytes of a file are not text. -/
def notText : IoFailure := ⟨.invalidData, "stream did not contain valid UTF-8"⟩

end IoFailure

/-- What lies at a place. -/
inductive Entry where
  | directory
  /-- A file with these bytes. -/
  | file (content : ByteArray)
  /-- A file of this size that cannot be read. -/
  | locked (size : Nat) (failure : IoFailure)
deriving Inhabited

/-- The files that a run can see. A place is the list of names that leads to it from the root. -/
structure FileSystem where
  home : List String
  entry : List String → Option Entry

namespace FileSystem

/-- The longest name, in bytes. -/
def maxName : Nat := 255

/-- The longest path, in bytes. -/
def maxPath : Nat := 4095

/-- The place that a piece of a path leads to, if it leads anywhere. -/
def follow (place : List String) (piece : String) : List String :=
  if piece = "" ∨ piece = "." then place
  else if piece = ".." then place.dropLast
  else place ++ [piece]

/-- Follows one piece of a path from a place. -/
def step (files : FileSystem) (place : List String) (piece : String) : Except IoFailure (List String) :=
  match files.entry place with
  | some .directory =>
    if maxName < piece.utf8ByteSize then .error .nameTooLong
    else
      match files.entry (follow place piece) with
      | some _ => .ok (follow place piece)
      | none => .error .missing
  | some _ => .error .notDirectory
  | none => .error .missing

/-- Follows the pieces of a path from a place. -/
def walk (files : FileSystem) (place : List String) : List String → Except IoFailure (List String)
  | [] => .ok place
  | piece :: rest =>
    match files.step place piece with
    | .ok next => files.walk next rest
    | .error failure => .error failure

/-- The place that a path leads to. -/
def resolve (files : FileSystem) (path : String) : Except IoFailure (List String) :=
  if path.toList.contains '\x00' then .error .badName
  else if path = "" then .error .missing
  else if maxPath < path.utf8ByteSize then .error .nameTooLong
  else files.walk (if path.toList.head? = some '/' then [] else files.home) (Path.pieces path)

/-- Every place that pieces of a path lead through, from a place on. -/
def placesFrom (place : List String) : List String → List (List String)
  | [] => [place]
  | piece :: rest => place :: placesFrom (follow place piece) rest

/-- Every place that a path can lead through from a working directory. -/
def placesOn (home : List String) (path : String) : List (List String) :=
  placesFrom (if path.toList.head? = some '/' then [] else home) (Path.pieces path)

/-- What lies at the end of a path. -/
def find (files : FileSystem) (path : String) : Except IoFailure (List String × Entry) :=
  match files.resolve path with
  | .error failure => .error failure
  | .ok place =>
    match files.entry place with
    | some entry => .ok (place, entry)
    | none => .error .missing

/-- The path from the root to a place. -/
def absolute (place : List String) : String := "/" ++ "/".intercalate place

/-- The bytes at the end of a path. -/
def read (files : FileSystem) (path : String) : Except IoFailure ByteArray :=
  match files.find path with
  | .error failure => .error failure
  | .ok (_, .directory) => .error .isDirectory
  | .ok (_, .file content) => .ok content
  | .ok (_, .locked _ failure) => .error failure

/-- The text at the end of a path. -/
def readText (files : FileSystem) (path : String) : Except IoFailure String :=
  match files.read path with
  | .error failure => .error failure
  | .ok content =>
    match String.fromUTF8? content with
    | some text => .ok text
    | none => .error .notText

end FileSystem

end Lexing
