import Lexing.CommandLine.Help
import Lexing.Run
import Lexing.Startup

/-!
# Program

One call of the program, from its arguments to its exit. Inputs are worked on in order, and the first that fails ends the
program: those behind it are not opened. Tokens go to standard output, everything else to the error stream.
-/

namespace Lexing.CommandLine

/-- What a program is started with. -/
structure Call where
  /-- The name that the program is called by. -/
  called : String
  arguments : List String
  environment : Environment
  files : FileSystem
  standardInput : Reader
  /-- The time that structured events carry. -/
  stamp : String

/-- What a program leaves. -/
structure Exit where
  status : Nat
  output : ByteArray
  errors : String
deriving Inhabited

namespace Program

/-- What is said of a run that failed. -/
def complaint (limits : Limits) : RunError → String
  | .input error => s!"Error opening file: {error.message}\n"
  | .scan error => s!"Lexical analysis failed: {error.message limits}\n"
  | .other message => s!"Pipeline error: {message}\n"

/-- What the work on inputs goes on from: standard input, standard output and the session. -/
structure Progress where
  standardInput : Reader
  outlet : Outlet
  session : Session

/-- Works on one input. Standard input is used up as far as it was read. -/
def runInput (limits : Limits) (settings : Settings) (files : FileSystem) (input : String) (progress : Progress) :
    Except Fault (Option RunError × Progress) := do
  let ⟨standardInput, outlet, session⟩ := progress
  if input = Options.standardInput then
    let (outcome, session) ← Run.ofReader limits settings Run.standardInput standardInput outlet session
    let rest := standardInput.rest (limits.maxFileSize + 1)
    return (outcome.failure?, ⟨rest, outcome.outlet, session⟩)
  else
    let (outcome, session) ← Run.ofFile limits settings files input outlet session
    return (outcome.failure?, ⟨standardInput, outcome.outlet, session⟩)

/-- Works on inputs up to the first that fails. -/
def runInputs (limits : Limits) (settings : Settings) (files : FileSystem) :
    List String → Progress → Except Fault (Option RunError × Progress)
  | [], progress => .ok (none, progress)
  | input :: rest, progress =>
    match runInput limits settings files input progress with
    | .error fault => .error fault
    | .ok (some error, progress) => .ok (some error, progress)
    | .ok (none, progress) => runInputs limits settings files rest progress

/-- Ends a program in which an input failed. -/
def fail (limits : Limits) (error : RunError) (progress : Progress) : Except Fault Exit := do
  let session ← (progress.session.print (complaint limits error)).printReport
  return ⟨1, progress.outlet.delivered, session.errors⟩

/-- Ends a program in which no input failed. -/
def succeed (limits : Limits) (progress : Progress) : Except Fault Exit := do
  let session ← progress.session.printReport
  let summary ← session.summary
  let session := session.logInfo limits "Run complete"
    [("files", toString summary.files), ("warnings", toString summary.warnings), ("duration_ms", "0")]
  return ⟨0, progress.outlet.delivered, session.errors⟩

/-- Starts up and works on all inputs. -/
def work (limits : Limits) (call : Call) (options : Options) (settings : Settings) (session : Session) :
    Except Fault Exit :=
  match Startup.begin limits settings.logging session with
  | (.error message, session) =>
    let session := session.logErrorSafely limits Code.startupFailure message
    .ok ⟨1, ByteArray.empty, (session.print s!"Initialization failed: {message}\n").errors⟩
  | (.ok (), session) => do
    let (failure, progress) ←
      runInputs limits settings call.files options.inputs ⟨call.standardInput, .unlimited, session⟩
    match failure with
    | some error => fail limits error progress
    | none => succeed limits progress

/-- Runs the program. -/
def run (limits : Limits) (call : Call) : Except Fault Exit :=
  let options := Options.ofArguments call.arguments
  let session := Session.fresh call.environment.logging call.stamp
  let session := options.notices.foldl (fun session notice => session.print (notice.message ++ "\n")) session
  if options.help then
    .ok ⟨0, (helpText call.called (.ofSession limits session)).toUTF8, session.errors⟩
  else if options.version then .ok ⟨0, versionText.toUTF8, session.errors⟩
  else
    match options.settings call.environment call.files with
    | .error error =>
      let session := session.logErrorSafely limits error.code error.message
      .ok ⟨1, ByteArray.empty, (session.print s!"Error loading configuration: {error.message}\n").errors⟩
    | .ok settings => work limits call options settings session

end Program

end Lexing.CommandLine
