import Lexing.Proofs.Lemmas.Uses

/-!
# What arguments ask for

Whether an argument is a flag, an input or a path depends on what stands in front of it, but only through the option that takes a path.
`arguments_used_once` says what each argument is used for, and that arguments one list behind the other ask for what the two lists ask
for, unless the first list leaves that option without a path.
-/

namespace Lexing.CommandLine

/-- What is asked for by two lists of arguments one behind the other, when each asks for something: the inputs of the one and then of the
other, the default only if there are none in both; the flags of either; the path of the second, or else of the first; and the notices of
the one and then of the other. -/
structure Joins (first second both : Options) : Prop where
  named_eq : both.named = first.named ++ second.named
  inputs_eq : both.inputs = if first.named = [] ∧ second.named = [] then [Options.defaultInput] else first.named ++ second.named
  flag_eq : ∀ flag : Flag, flag.get both = (flag.get first || flag.get second)
  path_eq : both.settingsPath = second.settingsPath.or first.settingsPath
  notices_eq : both.notices = first.notices ++ second.notices

/-- The inputs are those that are named, or the default if there are none. -/
theorem inputs_eq_ite (options : Options) :
    options.inputs = if options.named = [] then [Options.defaultInput] else options.named := by
  rw [Options.inputs]
  cases options.named <;> rfl

/-- What is asked for by uses one behind the other. -/
theorem Reflects.joins {uses more : List Use} {first second both : Options} (h : Reflects uses first) (hmore : Reflects more second)
    (hboth : Reflects (uses ++ more) both) : Joins first second both := by
  have hnamed : both.named = first.named ++ second.named := by
    rw [hboth.named_eq, List.filterMap_append, h.named_eq, hmore.named_eq]
  refine ⟨hnamed, ?_, fun flag => ?_, ?_, ?_⟩
  · rw [inputs_eq_ite, hnamed]
    simp only [List.append_eq_nil_iff]
  · rw [Bool.eq_iff_iff, Bool.or_eq_true_iff, hboth.flag_iff, h.flag_iff, hmore.flag_iff]
    simp only [List.mem_append, exists_or]
  · rw [hboth.path_eq, List.filterMap_append, List.getLast?_append, h.path_eq, hmore.path_eq]
  · rw [hboth.notices_eq, List.filterMap_append, h.notices_eq, hmore.notices_eq]

/-- Arguments are read from the left in exactly one way, and each is used once: the option that takes a path uses the argument behind it,
whatever that is, and only gives a notice as the last one; every other argument is a flag, an input or unknown, which it is by itself.
What is asked for is what they are used for and nothing else, and the inputs are those named, or the default if there are none. More
arguments behind them add what they ask for by themselves, unless the option that takes a path is left without one. -/
theorem arguments_used_once (arguments : List String) :
    ∃ uses, Reads arguments uses ∧ (∀ other, Reads arguments other → other = uses) ∧ uses.flatMap Use.arguments = arguments ∧
      Reflects uses (Options.ofArguments arguments) ∧
      ((Options.ofArguments arguments).inputs =
        if uses.filterMap Use.input? = [] then ["input.txt"] else uses.filterMap Use.input?) ∧
      (Notice.missingPath ∉ (Options.ofArguments arguments).notices → ∀ more,
        Joins (Options.ofArguments arguments) (Options.ofArguments more) (Options.ofArguments (arguments ++ more))) := by
  obtain ⟨uses, hreads⟩ := exists_reads arguments
  have hreflects := hreads.reflects
  refine ⟨uses, hreads, fun other hother => hother.unique hreads, hreads.flatMap_arguments, hreflects, ?_, ?_⟩
  · rw [inputs_eq_ite, hreflects.named_eq]
    rfl
  · intro hcomplete more
    obtain ⟨moreUses, hmore⟩ := exists_reads more
    have huses : Use.missingPath ∉ uses := fun hmem => hcomplete (hreflects.missingPath_mem_iff.2 hmem)
    exact hreflects.joins hmore.reflects (hreads.append huses hmore).reflects

/-- A path that looks like a flag, an empty input, and an option that is not known, and then an option without its path. -/
theorem arguments_used_once_flag_as_path :
    let first := ["--config", "--json", "-", "", "--bogus"]
    let second := ["-V", "--config"]
    Notice.missingPath ∉ (Options.ofArguments first).notices ∧
      (∃ uses, Reads first uses ∧
        uses = [.path "--json", .input "-", .input "", .unknown "--bogus"] ∧ uses.flatMap Use.arguments = first) ∧
      Joins (Options.ofArguments first) (Options.ofArguments second) (Options.ofArguments (first ++ second)) ∧
      (Options.ofArguments (first ++ second)).inputs = ["-", ""] ∧
      (Options.ofArguments (first ++ second)).notices = [.unknownOption "--bogus", .missingPath] := by
  intro first second
  have hcomplete : Notice.missingPath ∉ (Options.ofArguments first).notices := by decide
  have hreads : Reads first [.path "--json", .input "-", .input "", .unknown "--bogus"] :=
    .path _ (.word (.input (by decide)) (.word (.input (by decide))
      (.word (.unknown (by decide) (by decide) (by decide) fun flag => by cases flag <;> decide) .nil)))
  obtain ⟨uses, huses, hunique, honce, -, -, hjoins⟩ := arguments_used_once first
  have hjoined := hjoins hcomplete second
  refine ⟨hcomplete, ⟨uses, huses, (hunique _ hreads).symm, honce⟩, hjoined, ?_, ?_⟩
  · rw [hjoined.inputs_eq]
    decide
  · rw [hjoined.notices_eq]
    decide

end Lexing.CommandLine
