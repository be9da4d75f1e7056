import Lexing.CommandLine.Program
import Std.Time.Format

/-!
# The program

Collects what a call of the program can see, works on it, and writes out what it leaves. The files are those on the way to
the paths that the arguments name; standard input is read only if an argument asks for it.
-/

namespace Lexing.CommandLine

/-- What lies at a path of the system. -/
def entryAt (path : String) : IO (Option Entry) := do
  match ← (IO.FS.readBinFile path).toBaseIO with
  | .ok content => return some (.file content)
  | .error (.noFileOrDirectory ..) => return none
  | .error (.inappropriateType ..) => return some .directory
  | .error (.permissionDenied ..) => return some (.locked 0 ⟨.permissionDenied, "Permission denied (os error 13)"⟩)
  | .error failure => return some (.locked 0 ⟨.other, toString failure⟩)

/-- The files of the system as far as some paths lead through them. -/
def filesOn (paths : List String) : IO FileSystem := do
  let home := (Path.pieces (toString (← IO.currentDir))).filter (· ≠ "")
  let places := (paths.flatMap (FileSystem.placesOn home)).eraseDups
  let table ← places.mapM fun place => return (place, ← entryAt (FileSystem.absolute place))
  return ⟨home, fun place => (table.lookup place).join⟩

/-- The variables of the process that hold settings. -/
def processEnvironment : IO Environment := do
  let table ← Variable.all.mapM fun name => return (name, ← IO.getEnv name)
  return fun name => (table.lookup name).join

/-- Everything that standard input holds. -/
def readAll (input : IO.FS.Stream) : IO ByteArray := do
  let mut content := ByteArray.empty
  repeat
    let piece ← input.read 65536
    if piece.isEmpty then break
    content := content ++ piece
  return content

/-- The time now, as structured events carry it. -/
def stampNow : IO String := do
  return (← Std.Time.PlainDateTime.now).format "uuuu-MM-dd'T'HH:mm:ss.SSSSSSSSS'+00:00'"

/-- A call of the program with some arguments. -/
def callWith (arguments : List String) : IO Call := do
  let inputs := (Options.ofArguments arguments).inputs
  let content ← if inputs.contains Options.standardInput then readAll (← IO.getStdin) else pure .empty
  return ⟨programName, arguments, ← processEnvironment, ← filesOn (inputs ++ arguments), .ofBytes content, ← stampNow⟩

/-- Runs the program under the limits of development and gives its status. A fault ends it with a status of its own. -/
def execute (arguments : List String) : IO UInt32 := do
  match Program.run .development (← callWith arguments) with
  | .ok exit =>
    (← IO.getStderr).putStr exit.errors
    (← IO.getStdout).write exit.output
    return exit.status.toUInt32
  | .error fault =>
    IO.eprintln s!"The work cannot go on: {repr fault}"
    return 101

end Lexing.CommandLine

/-- The program. -/
def main (arguments : List String) : IO UInt32 := Lexing.CommandLine.execute arguments
