import Lexing.Settings.Document

/-!
# Options

What the arguments of the program ask for. An option that takes a path takes the next argument, whatever that is. Every other
argument is judged by itself: it is a flag, an input, or not known, and one that is not known is worth a warning.
-/

namespace Lexing.CommandLine

/-- What is said of an argument that asks for nothing. -/
inductive Notice where
  /-- The option that takes a path is the last argument. -/
  | missingPath
  | unknownOption (option : String)
deriving DecidableEq, Repr, Inhabited

namespace Notice

/-- A notice in words. -/
def message : Notice → String
  | missingPath => "Warning: --config requires a path"
  | unknownOption option => s!"Warning: Unknown option '{option}'"

end Notice

/-- What the arguments ask for. -/
structure Options where
  /-- The inputs named, in order. -/
  named : List String
  help : Bool
  version : Bool
  json : Bool
  blanks : Bool
  positions : Bool
  summary : Bool
  settingsPath : Option String
  notices : List Notice
deriving DecidableEq, Repr, Inhabited

namespace Options

/-- What no arguments ask for. -/
def none : Options := ⟨[], false, false, false, false, false, false, .none, []⟩

/-- The argument that stands for standard input. -/
def standardInput : String := "-"

/-- The option that takes a path. -/
def settingsOption : String := "--config"

/-- Adds what one argument asks for, in front of what the ones behind it ask for. -/
def add (argument : String) (rest : Options) : Options :=
  match argument with
  | "--help" | "-h" => { rest with help := true }
  | "--version" | "-V" => { rest with version := true }
  | "--json" => { rest with json := true }
  | "--whitespace" => { rest with blanks := true }
  | "--positions" => { rest with positions := true }
  | "--summary" => { rest with summary := true }
  | _ =>
    if argument = standardInput ∨ argument.toList.head? ≠ some '-' then { rest with named := argument :: rest.named }
    else { rest with notices := .unknownOption argument :: rest.notices }

/-- What arguments ask for. Of several paths the last one counts. -/
def ofArguments : List String → Options
  | [] => none
  | [argument] => if argument = settingsOption then { none with notices := [.missingPath] } else add argument none
  | argument :: next :: rest =>
    if argument = settingsOption then
      let options := ofArguments rest
      { options with settingsPath := options.settingsPath.orElse fun _ => some next }
    else add argument (ofArguments (next :: rest))

/-- The input of a program that was given none. -/
def defaultInput : String := "input.txt"

/-- The inputs to work on. -/
def inputs (options : Options) : List String := if options.named.isEmpty then [defaultInput] else options.named

/-- The settings with those changed that a flag touches. -/
def apply (options : Options) (settings : Settings) : Settings :=
  { settings with
    listing :=
      { format := if options.json then .json else settings.listing.format
        blanks := options.blanks || settings.listing.blanks
        positions := options.positions || settings.listing.positions
        summary := options.summary || settings.listing.summary }
    analysis := { settings.analysis with detailed := options.summary || settings.analysis.detailed } }

/-- The settings of a program: those of the document it is given, or else of its environment, and over them its flags. -/
def settings (environment : Environment) (files : FileSystem) (options : Options) : Except SettingsError Settings :=
  match options.settingsPath with
  | some path => (Settings.load environment files path).map options.apply
  | .none => .ok (options.apply environment.settings)

end Options

end Lexing.CommandLine
