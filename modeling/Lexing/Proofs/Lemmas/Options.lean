import Lexing.CommandLine.Options

/-!
# How arguments are taken

An argument is taken alone, or as the path behind the option that wants one (`taken`). What the arguments ask for can be read off
this list: a flag is set if it was taken alone (`json_ofArguments` and its like), the inputs are the arguments taken alone that are
no options, and of the paths the last one counts.
-/

namespace Lexing.CommandLine

/-- How an argument is taken. -/
inductive Taken where
  /-- By itself. -/
  | alone (argument : String)
  /-- As the path behind the option that takes one. -/
  | behind (path : String)
deriving DecidableEq, Repr

namespace Taken

/-- The argument, if it was taken by itself. -/
def word? : Taken → Option String
  | .alone argument => some argument
  | .behind _ => none

/-- The path, if it was taken as one. -/
def path? : Taken → Option String
  | .alone _ => none
  | .behind path => some path

/-- Adds what an argument asks for, as it is taken, in front of what the ones behind it ask for. -/
def add : Taken → Options → Options
  | .alone argument, rest =>
    if argument = Options.settingsOption then { rest with notices := .missingPath :: rest.notices } else Options.add argument rest
  | .behind path, rest => { rest with settingsPath := rest.settingsPath.orElse fun _ => some path }

end Taken

namespace Options

/-- How each argument is taken. The option that takes a path is itself taken only if there is no path behind it. -/
def taken : List String → List Taken
  | [] => []
  | [argument] => [.alone argument]
  | argument :: next :: rest =>
    if argument = settingsOption then .behind next :: taken rest else .alone argument :: taken (next :: rest)

/-- The arguments taken by themselves. -/
def words (arguments : List String) : List String := (taken arguments).filterMap Taken.word?

/-- The paths of settings documents. -/
def paths (arguments : List String) : List String := (taken arguments).filterMap Taken.path?

/-- Whether an argument names an input when it is taken by itself. -/
def isInput (argument : String) : Bool := argument = standardInput ∨ argument.toList.head? ≠ some '-'

/-- The arguments that set a flag. -/
def flags : List String := ["--help", "-h", "--version", "-V", "--json", "--whitespace", "--positions", "--summary"]

/-- All that one argument adds. -/
theorem add_eq (argument : String) (rest : Options) :
    add argument rest =
      { named := if isInput argument then argument :: rest.named else rest.named
        help := argument == "--help" || argument == "-h" || rest.help
        version := argument == "--version" || argument == "-V" || rest.version
        json := argument == "--json" || rest.json
        blanks := argument == "--whitespace" || rest.blanks
        positions := argument == "--positions" || rest.positions
        summary := argument == "--summary" || rest.summary
        settingsPath := rest.settingsPath
        notices :=
          if isInput argument ∨ argument ∈ flags then rest.notices else .unknownOption argument :: rest.notices } := by
  unfold add
  split
  case h_9 => split <;> simp_all [isInput, flags]
  all_goals simp [isInput, flags, standardInput]

theorem ofArguments_eq_foldr (arguments : List String) : ofArguments arguments = (taken arguments).foldr Taken.add none := by
  fun_induction taken arguments with
  | case1 => rfl
  | case2 argument => simp only [ofArguments, List.foldr_cons, List.foldr_nil, Taken.add, none]
  | case3 next rest ih => simp only [ofArguments, if_true, ih, List.foldr_cons, Taken.add]
  | case4 argument next rest h ih => rw [ofArguments, if_neg h, ih, List.foldr_cons, Taken.add, if_neg h]

/-- What is said of an argument, as it is taken. -/
def notice? : Taken → Option Notice
  | .alone argument =>
    if argument = settingsOption then some .missingPath
    else if isInput argument ∨ argument ∈ flags then .none else some (.unknownOption argument)
  | .behind _ => .none

/-- All that an argument adds, as it is taken. -/
theorem taken_add_eq (first : Taken) (rest : Options) :
    first.add rest =
      { named := (first.word?.filter isInput).toList ++ rest.named
        help := first.word?.any (fun word => word == "--help" || word == "-h") || rest.help
        version := first.word?.any (fun word => word == "--version" || word == "-V") || rest.version
        json := first.word?.any (· == "--json") || rest.json
        blanks := first.word?.any (· == "--whitespace") || rest.blanks
        positions := first.word?.any (· == "--positions") || rest.positions
        summary := first.word?.any (· == "--summary") || rest.summary
        settingsPath := rest.settingsPath.orElse fun _ => first.path?
        notices := (notice? first).toList ++ rest.notices } := by
  cases first with
  | alone argument =>
    by_cases h : argument = settingsOption
    · subst h
      simp [Taken.add, Taken.word?, Taken.path?, notice?, settingsOption, isInput, standardInput]
    · simp only [Taken.add, if_neg h, add_eq, Taken.word?, Taken.path?, notice?]
      split <;> split <;> simp_all [Option.filter_some]
  | behind path => simp [Taken.add, Taken.word?, Taken.path?, notice?]

/-- All that arguments ask for. -/
theorem ofArguments_eq (arguments : List String) :
    ofArguments arguments =
      { named := (words arguments).filter isInput
        help := (words arguments).any fun word => word == "--help" || word == "-h"
        version := (words arguments).any fun word => word == "--version" || word == "-V"
        json := (words arguments).any (· == "--json")
        blanks := (words arguments).any (· == "--whitespace")
        positions := (words arguments).any (· == "--positions")
        summary := (words arguments).any (· == "--summary")
        settingsPath := (paths arguments).getLast?
        notices := (taken arguments).filterMap notice? } := by
  rw [ofArguments_eq_foldr, words, paths]
  induction taken arguments with
  | nil => rfl
  | cons first rest ih =>
    rw [List.foldr_cons, ih, taken_add_eq]
    cases first with
    | alone argument =>
      have hwords : (Taken.alone argument :: rest).filterMap Taken.word? = argument :: rest.filterMap Taken.word? := rfl
      have hpaths : (Taken.alone argument :: rest).filterMap Taken.path? = rest.filterMap Taken.path? := rfl
      rw [hwords, hpaths]
      simp only [Taken.word?, Taken.path?, List.any_cons, Option.any_some, List.filter_cons, Option.filter_some, List.filterMap_cons]
      cases notice? (.alone argument) <;> cases isInput argument <;> simp
    | behind path =>
      have hpaths : (Taken.behind path :: rest).filterMap Taken.path? = path :: rest.filterMap Taken.path? := rfl
      rw [hpaths, List.getLast?_cons]
      cases (rest.filterMap Taken.path?).getLast? <;> rfl

end Options

end Lexing.CommandLine
