import Lexing.Proofs.Lemmas.Options

/-!
# What arguments are used for

`Reads` reads arguments from the left: the option that takes a path uses two of them, and every other argument is used by itself, for
what it is (`IsUse`). It is one thing only, so there is one reading (`exists_reads`, `Reads.unique`).

What the arguments ask for can be read off their uses (`Reflects`). One more argument in front keeps this (`Reflects.word` and its
like), so it holds of all arguments (`Reads.reflects`).
-/

namespace Lexing.CommandLine

/-- What is switched on by an argument alone. -/
inductive Flag where
  | help
  | version
  | json
  | blanks
  | positions
  | summary
deriving DecidableEq, Repr

namespace Flag

/-- The arguments that set a flag. -/
def spellings : Flag → List String
  | help => ["--help", "-h"]
  | version => ["--version", "-V"]
  | json => ["--json"]
  | blanks => ["--whitespace"]
  | positions => ["--positions"]
  | summary => ["--summary"]

/-- Whether a flag is set. -/
def get (options : Options) : Flag → Bool
  | help => options.help
  | version => options.version
  | json => options.json
  | blanks => options.blanks
  | positions => options.positions
  | summary => options.summary

end Flag

/-- What one argument is used for, or two in the case of a path. -/
inductive Use where
  /-- The option that takes a path, and the path behind it. -/
  | path (path : String)
  /-- The option that takes a path, with nothing behind it. -/
  | missingPath
  | flag (flag : Flag) (spelling : String)
  | input (name : String)
  | unknown (option : String)
deriving DecidableEq, Repr

namespace Use

/-- The arguments that are used up. -/
def arguments : Use → List String
  | path file => [Options.settingsOption, file]
  | missingPath => [Options.settingsOption]
  | flag _ spelling => [spelling]
  | input name => [name]
  | unknown option => [option]

/-- The input that is named. -/
def input? : Use → Option String
  | input name => some name
  | _ => none

/-- The path that is given. -/
def path? : Use → Option String
  | path file => some file
  | _ => none

/-- What is said of a use that asks for nothing. -/
def notice? : Use → Option Notice
  | missingPath => some .missingPath
  | unknown option => some (.unknownOption option)
  | _ => none

end Use

/-- What an argument is by itself: the spelling of a flag, an input, or else not known. An input is the sign for standard input, or
does not start as options do. -/
inductive IsUse : String → Use → Prop
  | flag {argument : String} {flag : Flag} (h : argument ∈ flag.spellings) : IsUse argument (.flag flag argument)
  | input {argument : String} (h : argument = Options.standardInput ∨ argument.toList.head? ≠ some '-') :
    IsUse argument (.input argument)
  | unknown {argument : String} (hdash : argument.toList.head? = some '-') (hinput : argument ≠ Options.standardInput)
      (hoption : argument ≠ Options.settingsOption) (hflag : ∀ flag : Flag, argument ∉ flag.spellings) :
    IsUse argument (.unknown argument)

/-- Arguments are read from the left. The option that takes a path uses the next argument, whatever that is, or is used by itself as
the last one. Every other argument is used for what it is by itself. -/
inductive Reads : List String → List Use → Prop
  | nil : Reads [] []
  | path {rest : List String} {uses : List Use} (path : String) (reads : Reads rest uses) :
    Reads (Options.settingsOption :: path :: rest) (.path path :: uses)
  | missingPath : Reads [Options.settingsOption] [.missingPath]
  | word {argument : String} {use : Use} {rest : List String} {uses : List Use} (isUse : IsUse argument use) (reads : Reads rest uses) :
    Reads (argument :: rest) (use :: uses)

/-- What is asked for is what the uses are for: the inputs in order, the flags that are spelled, the last path, and a notice for each
use that asks for nothing. -/
structure Reflects (uses : List Use) (options : Options) : Prop where
  named_eq : options.named = uses.filterMap Use.input?
  flag_iff : ∀ flag : Flag, flag.get options ↔ ∃ spelling, .flag flag spelling ∈ uses
  path_eq : options.settingsPath = (uses.filterMap Use.path?).getLast?
  notices_eq : options.notices = uses.filterMap Use.notice?

variable {argument : String} {flag : Flag} {use : Use} {arguments more : List String} {uses moreUses : List Use} {options : Options}

/-! ## Single arguments -/

/-- No two flags have a spelling in common. -/
theorem Flag.eq_of_mem_spellings {other : Flag} (h : argument ∈ flag.spellings) (hother : argument ∈ other.spellings) :
    flag = other := by
  have hall : ∀ flag other : Flag, ∀ argument ∈ flag.spellings, argument ∈ other.spellings → flag = other := by
    intro flag other
    cases flag <;> cases other <;> decide
  exact hall flag other argument h hother

/-- No spelling of a flag is an input or the option that takes a path. -/
theorem Flag.of_mem_spellings (h : argument ∈ flag.spellings) :
    argument.toList.head? = some '-' ∧ argument ≠ Options.standardInput ∧ argument ≠ Options.settingsOption := by
  have hall : ∀ flag : Flag, ∀ argument ∈ flag.spellings,
      argument.toList.head? = some '-' ∧ argument ≠ Options.standardInput ∧ argument ≠ Options.settingsOption := by
    intro flag
    cases flag <;> decide
  exact hall flag argument h

theorem isInput_iff : Options.isInput argument ↔ argument = Options.standardInput ∨ argument.toList.head? ≠ some '-' := by
  simp [Options.isInput]

/-- Only the sign for standard input starts as options do and is an input. -/
theorem not_isInput (hdash : argument.toList.head? = some '-') (hne : argument ≠ Options.standardInput) : ¬Options.isInput argument :=
  fun hinput => (isInput_iff.1 hinput).elim hne (· hdash)

theorem Flag.not_isInput_of_mem_spellings (h : argument ∈ flag.spellings) : ¬Options.isInput argument := by
  obtain ⟨hdash, hne, -⟩ := Flag.of_mem_spellings h
  exact not_isInput hdash hne

/-- An argument is something by itself, unless it is the option that takes a path. -/
theorem exists_isUse (h : argument ≠ Options.settingsOption) : ∃ use, IsUse argument use := by
  by_cases hflag : ∃ flag : Flag, argument ∈ flag.spellings
  · obtain ⟨flag, hflag⟩ := hflag
    exact ⟨_, .flag hflag⟩
  · by_cases hinput : argument = Options.standardInput ∨ argument.toList.head? ≠ some '-'
    · exact ⟨_, .input hinput⟩
    · rw [not_or, Classical.not_not] at hinput
      exact ⟨_, .unknown hinput.2 hinput.1 h (not_exists.1 hflag)⟩

/-- An argument is one thing only. -/
theorem IsUse.unique {other : Use} (h : IsUse argument use) (hother : IsUse argument other) : use = other := by
  cases h with
  | flag hflag =>
    cases hother with
    | flag hflag' => rw [Flag.eq_of_mem_spellings hflag hflag']
    | input hinput => exact absurd (isInput_iff.2 hinput) (Flag.not_isInput_of_mem_spellings hflag)
    | unknown _ _ _ hnone => exact absurd hflag (hnone _)
  | input hinput =>
    cases hother with
    | flag hflag => exact absurd (isInput_iff.2 hinput) (Flag.not_isInput_of_mem_spellings hflag)
    | input => rfl
    | unknown hdash hne => exact absurd (isInput_iff.2 hinput) (not_isInput hdash hne)
  | unknown hdash hne _ hnone =>
    cases hother with
    | flag hflag => exact absurd hflag (hnone _)
    | input hinput => exact absurd (isInput_iff.2 hinput) (not_isInput hdash hne)
    | unknown => rfl

/-- The option that takes a path is nothing by itself. -/
theorem IsUse.ne_settingsOption (h : IsUse argument use) : argument ≠ Options.settingsOption := by
  cases h with
  | flag h => exact (Flag.of_mem_spellings h).2.2
  | input h =>
    rintro rfl
    exact absurd h (by decide)
  | unknown _ _ h _ => exact h

/-- An argument spells a flag if it is used for it. -/
theorem IsUse.mem_spellings_iff (h : IsUse argument use) : argument ∈ flag.spellings ↔ ∃ spelling, .flag flag spelling = use := by
  constructor
  · intro hflag
    exact ⟨argument, (IsUse.flag hflag).unique h⟩
  · rintro ⟨spelling, rfl⟩
    cases h with
    | flag hflag => exact hflag

theorem IsUse.arguments_eq (h : IsUse argument use) : use.arguments = [argument] := by
  cases h <;> rfl

/-! ## Readings -/

/-- All arguments can be read. -/
theorem exists_reads (arguments : List String) : ∃ uses, Reads arguments uses := by
  fun_induction Options.taken arguments with
  | case1 => exact ⟨[], .nil⟩
  | case2 argument =>
    by_cases h : argument = Options.settingsOption
    · subst h
      exact ⟨_, .missingPath⟩
    · obtain ⟨use, huse⟩ := exists_isUse h
      exact ⟨_, .word huse .nil⟩
  | case3 next rest ih =>
    obtain ⟨uses, huses⟩ := ih
    exact ⟨_, .path next huses⟩
  | case4 argument next rest h ih =>
    obtain ⟨use, huse⟩ := exists_isUse h
    obtain ⟨uses, huses⟩ := ih
    exact ⟨_, .word huse huses⟩

/-- Arguments can be read in one way only. -/
theorem Reads.unique {other : List Use} (h : Reads arguments uses) (hother : Reads arguments other) : uses = other := by
  induction h generalizing other with
  | nil =>
    cases hother
    rfl
  | path path _ ih =>
    cases hother with
    | path _ hrest => rw [ih hrest]
    | word huse => exact absurd rfl huse.ne_settingsOption
  | missingPath =>
    cases hother with
    | missingPath => rfl
    | word huse => exact absurd rfl huse.ne_settingsOption
  | word huse _ ih =>
    cases hother with
    | path => exact absurd rfl huse.ne_settingsOption
    | missingPath => exact absurd rfl huse.ne_settingsOption
    | word huse' hrest => rw [huse.unique huse', ih hrest]

/-- Each argument is used once, and in order. -/
theorem Reads.flatMap_arguments (h : Reads arguments uses) : uses.flatMap Use.arguments = arguments := by
  induction h with
  | nil => rfl
  | path path _ ih => rw [List.flatMap_cons, ih, Use.arguments, List.cons_append, List.singleton_append]
  | missingPath => rfl
  | word huse _ ih => rw [List.flatMap_cons, ih, huse.arguments_eq, List.singleton_append]

/-- Unless the option that takes a path is left without one, more arguments are read as they are by themselves. -/
theorem Reads.append (h : Reads arguments uses) (hcomplete : .missingPath ∉ uses) (hmore : Reads more moreUses) :
    Reads (arguments ++ more) (uses ++ moreUses) := by
  induction h with
  | nil => exact hmore
  | path path _ ih => exact .path path (ih (List.not_mem_of_not_mem_cons hcomplete))
  | missingPath => exact absurd List.mem_cons_self hcomplete
  | word huse _ ih => exact .word huse (ih (List.not_mem_of_not_mem_cons hcomplete))

/-! ## What is asked for -/

theorem reflects_nil : Reflects [] .none := ⟨rfl, fun flag => by cases flag <;> simp [Flag.get, Options.none], rfl, rfl⟩

/-- An argument sets the flag that it spells. -/
theorem Flag.get_add (flag : Flag) (argument : String) (rest : Options) :
    flag.get (Options.add argument rest) ↔ argument ∈ flag.spellings ∨ flag.get rest := by
  rw [Options.add_eq]
  cases flag <;> simp [Flag.get, Flag.spellings, or_assoc]

theorem mem_flags_iff : argument ∈ Options.flags ↔ ∃ flag : Flag, argument ∈ flag.spellings := by
  constructor
  · intro h
    have hall : ∀ argument ∈ Options.flags,
        ∃ flag ∈ [Flag.help, .version, .json, .blanks, .positions, .summary], argument ∈ flag.spellings := by
      decide
    obtain ⟨flag, -, hflag⟩ := hall argument h
    exact ⟨flag, hflag⟩
  · rintro ⟨flag, h⟩
    have hall : ∀ argument ∈ flag.spellings, argument ∈ Options.flags := by cases flag <;> decide
    exact hall argument h

/-- One more argument in front, which is used by itself. -/
theorem Reflects.word (h : Reflects uses options) (huse : IsUse argument use) : Reflects (use :: uses) (Options.add argument options) := by
  have hadd := Options.add_eq argument options
  refine ⟨?_, fun flag => ?_, ?_, ?_⟩
  · rw [hadd]
    dsimp only
    rw [h.named_eq]
    cases huse with
    | flag hflag => exact if_neg (Flag.not_isInput_of_mem_spellings hflag)
    | input hinput => exact if_pos (isInput_iff.2 hinput)
    | unknown hdash hne => exact if_neg (not_isInput hdash hne)
  · rw [Flag.get_add, h.flag_iff, huse.mem_spellings_iff]
    simp only [List.mem_cons, exists_or]
  · rw [hadd]
    dsimp only
    rw [h.path_eq]
    cases huse <;> rfl
  · rw [hadd]
    dsimp only
    rw [h.notices_eq]
    cases huse with
    | flag hflag => exact if_pos (Or.inr (mem_flags_iff.2 ⟨_, hflag⟩))
    | input hinput => exact if_pos (Or.inl (isInput_iff.2 hinput))
    | unknown hdash hne _ hnone =>
      refine if_neg (not_or.2 ⟨not_isInput hdash hne, fun hmem => ?_⟩)
      obtain ⟨flag, hflag⟩ := mem_flags_iff.1 hmem
      exact hnone flag hflag

/-- One more path in front. A path behind it counts before it. -/
theorem Reflects.path (h : Reflects uses options) (path : String) :
    Reflects (.path path :: uses) { options with settingsPath := options.settingsPath.orElse fun _ => some path } := by
  refine ⟨h.named_eq, fun flag => ?_, ?_, h.notices_eq⟩
  · have hget : flag.get { options with settingsPath := options.settingsPath.orElse fun _ => some path } = flag.get options := by
      cases flag <;> rfl
    rw [hget, h.flag_iff]
    simp
  · have huses : (Use.path path :: uses).filterMap Use.path? = path :: uses.filterMap Use.path? := rfl
    rw [huses, List.getLast?_cons]
    dsimp only
    rw [h.path_eq]
    cases (uses.filterMap Use.path?).getLast? <;> rfl

theorem ofArguments_cons (h : argument ≠ Options.settingsOption) (rest : List String) :
    Options.ofArguments (argument :: rest) = Options.add argument (Options.ofArguments rest) := by
  cases rest with
  | nil => exact if_neg h
  | cons next rest => exact if_neg h

/-- What arguments ask for is what they are used for. -/
theorem Reads.reflects (h : Reads arguments uses) : Reflects uses (Options.ofArguments arguments) := by
  induction h with
  | nil => exact reflects_nil
  | path path _ ih => exact ih.path path
  | missingPath => exact ⟨rfl, fun flag => by cases flag <;> simp [Flag.get, Options.ofArguments, Options.none], rfl, rfl⟩
  | word huse _ ih =>
    rw [ofArguments_cons huse.ne_settingsOption]
    exact ih.word huse

/-- The notice of a missing path tells whether one is missing. -/
theorem Reflects.missingPath_mem_iff (h : Reflects uses options) : Notice.missingPath ∈ options.notices ↔ Use.missingPath ∈ uses := by
  rw [h.notices_eq, List.mem_filterMap]
  constructor
  · rintro ⟨use, hmem, hnotice⟩
    cases use <;> cases hnotice
    exact hmem
  · intro hmem
    exact ⟨_, hmem, rfl⟩

end Lexing.CommandLine
