import Lexing.CommandLine.Program
import Lexing.Proofs.Lemmas.Ledger
import Lexing.Proofs.Lemmas.Options
import Lexing.Proofs.Theorems.Runs

/-!
# One input after another

A program works on its inputs until one fails. `Passes` says what inputs leave that all pass, each given the bytes that it has behind
the ones before it: standard input has none any more once it was read through. The work on some inputs is then the inputs that pass
and, if there is one, the first that fails (`runInputs_ends`). What lies behind that one is not looked at (`runInputs_congr`,
`runInputs_standardInput`).
-/

namespace Lexing

namespace Reader

/-- Nothing is left of a reader that was read through. -/
theorem bytes?_rest {reader : Reader} {bytes : ByteArray} (h : reader.bytes? = some bytes) {limit : Nat} (hsize : bytes.size < limit) :
    (reader.rest limit).bytes? = some ByteArray.empty := by
  unfold bytes? at h
  split at h
  · obtain rfl := Option.some.inj h
    rw [ByteArray.size_append] at hsize
    have hcontent : ¬limit ≤ reader.content.size := by omega
    have htail : (reader.tail.extract (limit - reader.content.size) reader.tail.size).size = 0 := by
      rw [ByteArray.size_extract]
      omega
    simp only [rest, if_neg hcontent, bytes?, obstacle?, List.find?_nil, Option.isNone_none, if_true, ByteArray.append_empty]
    exact congrArg some (ByteArray.size_eq_zero_iff.1 htail)
  · cases h

end Reader

namespace Session

/-- The report can be printed in any session. -/
theorem exists_printReport_eq_ok (session : Session) : ∃ after, session.printReport = .ok after := by
  unfold printReport
  split
  · cases session.ledger with
    | none => exact ⟨_, rfl⟩
    | some ledger =>
      obtain ⟨summary, hsummary⟩ := ledger.exists_summary_eq_ok
      simp only [Ledger.report, hsummary]
      exact ⟨_, rfl⟩
  · exact ⟨_, rfl⟩

/-- The totals can be told in any session. -/
theorem exists_summary_eq_ok (session : Session) : ∃ summary, session.summary = .ok summary := by
  unfold summary
  cases session.ledger with
  | none => exact ⟨_, rfl⟩
  | some ledger => exact ledger.exists_summary_eq_ok

end Session

namespace CommandLine

open Run

variable {limits : Limits} {settings : Settings} {call : Call} {files : FileSystem} {input : String} {progress : Program.Progress}

/-- The bytes of an input, if it can be read, given what is left of standard input. -/
def bytesOf? (files : FileSystem) (standardInput : Option ByteArray) (input : String) : Option ByteArray :=
  if input = Options.standardInput then standardInput else (files.read input).toOption

/-- What standard input has behind some inputs that were read. -/
def Call.left (call : Call) (before : List String) : Option ByteArray :=
  if Options.standardInput ∈ before then some ByteArray.empty else call.standardInput.bytes?

theorem Call.left_concat (call : Call) (before : List String) (input : String) :
    call.left (before ++ [input]) = if input = Options.standardInput then some ByteArray.empty else call.left before := by
  unfold Call.left
  by_cases h : input = Options.standardInput
  · simp [h]
  · simp [h, Ne.symm h]

/-- Behind some inputs others all pass, one after another, and write some bytes in all. -/
inductive Passes (limits : Limits) (settings : Settings) (call : Call) : List String → List String → ByteArray → Prop
  | none {before : List String} : Passes limits settings call before [] ByteArray.empty
  | next {before rest : List String} {input : String} {written more : ByteArray} {report : RunReport}
      (hleaves : Leaves limits settings (bytesOf? call.files (call.left before) input) written (.ok report))
      (h : Passes limits settings call (before ++ [input]) rest more) :
      Passes limits settings call before (input :: rest) (written ++ more)

namespace Program

/-- An input passes, or it fails. It writes what is said of its bytes, and standard input that passes is read through. -/
theorem runInput_leaves (h : limits.maxFileSize < sizeBound) (settings : Settings) (files : FileSystem) (input : String)
    {reader : Reader} {delivered : ByteArray} (session : Session) :
    ∃ written,
      (∃ report rest after,
        runInput limits settings files input ⟨reader, ⟨delivered, none, false, false⟩, session⟩ =
            .ok (none, ⟨rest, ⟨delivered ++ written, none, false, false⟩, after⟩) ∧
          Leaves limits settings (bytesOf? files reader.bytes? input) written (.ok report) ∧
          rest.bytes? = if input = Options.standardInput then some ByteArray.empty else reader.bytes?) ∨
      ∃ error rest after,
        runInput limits settings files input ⟨reader, ⟨delivered, none, false, false⟩, session⟩ =
            .ok (some error, ⟨rest, ⟨delivered ++ written, none, false, false⟩, after⟩) ∧
          Leaves limits settings (bytesOf? files reader.bytes? input) written (.error error) := by
  unfold runInput bytesOf?
  by_cases hinput : input = Options.standardInput
  · obtain ⟨written, result, after, hrun, hleaves⟩ := ofInput_leaves h
      (Input.serves_ofReader limits settings.reading Run.standardInput reader) settings "input" Run.standardInput delivered false session
    have hreader : ofReader limits settings Run.standardInput reader ⟨delivered, none, false, false⟩ session = _ := hrun
    simp only [if_pos hinput, hreader, bind, Except.bind, pure, Except.pure]
    cases result with
    | error error => exact ⟨written, .inr ⟨error, _, after, rfl, hleaves⟩⟩
    | ok report =>
      refine ⟨written, .inl ⟨report, _, after, rfl, hleaves, ?_⟩⟩
      cases hleaves with
      | listed hbytes hadmits => exact Reader.bytes?_rest hbytes (Nat.lt_succ_of_le hadmits.size_le)
  · obtain ⟨written, result, after, hrun, hleaves⟩ := ofInput_leaves h
      (Input.serves_ofFile limits settings.reading files input) settings "file" input delivered false session
    have hfile : ofFile limits settings files input ⟨delivered, none, false, false⟩ session = _ := hrun
    simp only [if_neg hinput, hfile, bind, Except.bind, pure, Except.pure]
    cases result with
    | error error => exact ⟨written, .inr ⟨error, _, after, rfl, hleaves⟩⟩
    | ok report => exact ⟨written, .inl ⟨report, _, after, rfl, hleaves, rfl⟩⟩

/-- Behind an input that fails no other is worked on. -/
theorem runInputs_append_of_failed {inputs : List String} {error : RunError} {after : Progress}
    (h : runInputs limits settings files inputs progress = .ok (some error, after)) (others : List String) :
    runInputs limits settings files (inputs ++ others) progress = .ok (some error, after) := by
  induction inputs generalizing progress with
  | nil => cases h
  | cons input rest ih =>
    rw [List.cons_append]
    rw [runInputs] at h ⊢
    cases hrun : runInput limits settings files input progress with
    | error fault => simp only [hrun] at h; cases h
    | ok outcome =>
      obtain ⟨_ | failure, next⟩ := outcome
      · simp only [hrun] at h ⊢
        exact ih h
      · simp only [hrun] at h ⊢
        exact h

/-- Inputs that come behind others all pass, too, or one of them is the first that fails. -/
theorem runInputs_ends (h : limits.maxFileSize < sizeBound) {before : List String} (rest : List String) {reader : Reader}
    (hreader : reader.bytes? = call.left before) (delivered : ByteArray) (session : Session) :
    (∃ last total after,
      runInputs limits settings call.files rest ⟨reader, ⟨delivered, none, false, false⟩, session⟩ =
          .ok (none, ⟨last, ⟨delivered ++ total, none, false, false⟩, after⟩) ∧
        Passes limits settings call before rest total) ∨
    ∃ passed failing behind total more error last after,
      rest = passed ++ failing :: behind ∧ Passes limits settings call before passed total ∧
        Leaves limits settings (bytesOf? call.files (call.left (before ++ passed)) failing) more (.error error) ∧
        runInputs limits settings call.files (passed ++ [failing]) ⟨reader, ⟨delivered, none, false, false⟩, session⟩ =
          .ok (some error, ⟨last, ⟨delivered ++ (total ++ more), none, false, false⟩, after⟩) := by
  induction rest generalizing before reader delivered session with
  | nil =>
    refine .inl ⟨reader, ByteArray.empty, session, ?_, .none⟩
    rw [ByteArray.append_empty]
    rfl
  | cons input rest ih =>
    obtain ⟨written, ⟨report, left, next, hrun, hleaves, hleft⟩ | ⟨error, left, next, hrun, hleaves⟩⟩ :=
      runInput_leaves h settings call.files input session
    · rw [hreader] at hleaves hleft
      have hnext : left.bytes? = call.left (before ++ [input]) := hleft.trans (call.left_concat before input).symm
      rcases ih hnext (delivered ++ written) next with
        ⟨last, total, after, hall, htotal⟩ | ⟨passed, failing, behind, total, more, error, last, after, rfl, htotal, hfails, hstops⟩
      · refine .inl ⟨last, written ++ total, after, ?_, .next hleaves htotal⟩
        rw [runInputs, hrun, ← ByteArray.append_assoc]
        exact hall
      · rw [List.append_assoc] at hfails
        refine .inr ⟨input :: passed, failing, behind, written ++ total, more, error, last, after, rfl, .next hleaves htotal, hfails, ?_⟩
        rw [List.cons_append, runInputs, hrun, ByteArray.append_assoc, ← ByteArray.append_assoc]
        exact hstops
    · rw [hreader] at hleaves
      refine .inr ⟨[], input, rest, ByteArray.empty, written, error, left, next, rfl, .none, ?_, ?_⟩
      · rwa [List.append_nil]
      · rw [List.nil_append, runInputs, hrun, ByteArray.empty_append]

/-! ## What is looked at -/

/-- Only the place that an input leads to is looked up. -/
theorem runInput_congr {files files' : FileSystem} (h : input ≠ Options.standardInput → files'.find input = files.find input)
    (progress : Progress) : runInput limits settings files' input progress = runInput limits settings files input progress := by
  unfold runInput
  by_cases hinput : input = Options.standardInput
  · simp only [if_pos hinput]
  · have hlocate : Input.locate limits files' input = Input.locate limits files input := by
      unfold Input.locate
      rw [h hinput]
    simp only [if_neg hinput, ofFile, Input.ofFile, hlocate]

/-- Only the places that the inputs lead to are looked up. -/
theorem runInputs_congr {files files' : FileSystem} {inputs : List String}
    (h : ∀ input ∈ inputs, input ≠ Options.standardInput → files'.find input = files.find input) (progress : Progress) :
    runInputs limits settings files' inputs progress = runInputs limits settings files inputs progress := by
  induction inputs generalizing progress with
  | nil => rfl
  | cons input rest ih =>
    rw [runInputs, runInputs, runInput_congr (h input List.mem_cons_self)]
    split
    · rfl
    · rfl
    · exact ih (fun other hother => h other (List.mem_cons_of_mem _ hother)) _

/-- The work with another reader in the place of standard input. -/
def Progress.withReader (reader : Reader) (progress : Progress) : Progress := { progress with standardInput := reader }

/-- Standard input is not touched by an input that does not ask for it. -/
theorem runInput_withReader (h : input ≠ Options.standardInput) (files : FileSystem) (reader : Reader) (progress : Progress) :
    runInput limits settings files input (progress.withReader reader) =
      (runInput limits settings files input progress).map fun (failure, after) => (failure, after.withReader reader) := by
  obtain ⟨standardInput, outlet, session⟩ := progress
  unfold runInput Progress.withReader
  simp only [if_neg h, bind, Except.bind, pure, Except.pure]
  cases ofFile limits settings files input outlet session <;> rfl

/-- Standard input is not touched unless an input asks for it. -/
theorem runInputs_withReader {inputs : List String} (h : Options.standardInput ∉ inputs) (files : FileSystem) (reader : Reader)
    (progress : Progress) :
    runInputs limits settings files inputs (progress.withReader reader) =
      (runInputs limits settings files inputs progress).map fun (failure, after) => (failure, after.withReader reader) := by
  induction inputs generalizing progress with
  | nil => rfl
  | cons input rest ih =>
    obtain ⟨hinput, hrest⟩ := not_or.1 (mt List.mem_cons.2 h)
    rw [runInputs, runInputs, runInput_withReader (Ne.symm hinput)]
    cases runInput limits settings files input progress with
    | error fault => rfl
    | ok outcome =>
      obtain ⟨_ | error, after⟩ := outcome
      · exact ih hrest after
      · rfl

/-- The work on some inputs looks at the places that they lead to, and at standard input if one of them asks for it. -/
theorem exists_runInputs_eq {files files' : FileSystem} {reader : Reader} {inputs : List String} {failure : Option RunError}
    {after : Progress} (hrun : runInputs limits settings files inputs progress = .ok (failure, after))
    (hfiles : ∀ input ∈ inputs, input ≠ Options.standardInput → files'.find input = files.find input)
    (hreader : Options.standardInput ∈ inputs → reader = progress.standardInput) :
    ∃ last, runInputs limits settings files' inputs (progress.withReader reader) = .ok (failure, after.withReader last) := by
  rw [runInputs_congr hfiles]
  by_cases hasked : Options.standardInput ∈ inputs
  · obtain rfl := hreader hasked
    exact ⟨after.standardInput, hrun⟩
  · rw [runInputs_withReader hasked, hrun]
    exact ⟨reader, rfl⟩

/-! ## From the arguments to the exit -/

/-- The arguments ask for work, and neither for help nor for the version. -/
def AsksForWork (arguments : List String) : Prop :=
  ∀ word ∈ Options.words arguments, word ∉ ["--help", "-h", "--version", "-V"]

/-- The inputs that arguments name, or the one that is worked on without a name. -/
def inputsOf (arguments : List String) : List String :=
  if (Options.words arguments).filter Options.isInput = [] then ["input.txt"] else (Options.words arguments).filter Options.isInput

theorem inputs_ofArguments (arguments : List String) : (Options.ofArguments arguments).inputs = inputsOf arguments := by
  rw [Options.ofArguments_eq, Options.inputs, inputsOf]
  simp only [List.isEmpty_iff, Options.defaultInput]

/-- The session that a call starts up in: nothing is installed, and the notices on its arguments are printed. -/
def opening (call : Call) : Session :=
  (Options.ofArguments call.arguments).notices.foldl (fun session notice => session.print (notice.message ++ "\n"))
    (.fresh call.environment.logging call.stamp)

/-- A call whose settings can be loaded comes to the work. -/
theorem run_eq_work (hasks : AsksForWork call.arguments)
    (hsettings : (Options.ofArguments call.arguments).settings call.environment call.files = .ok settings) :
    run limits call = work limits call (Options.ofArguments call.arguments) settings (opening call) := by
  have hhelp : (Options.ofArguments call.arguments).help = false := by
    rw [Options.ofArguments_eq]
    refine List.any_eq_false.2 fun word hword => ?_
    have hnot := hasks word hword
    simp_all
  have hversion : (Options.ofArguments call.arguments).version = false := by
    rw [Options.ofArguments_eq]
    refine List.any_eq_false.2 fun word hword => ?_
    have hnot := hasks word hword
    simp_all
  unfold run opening
  simp only [hhelp, hversion, hsettings, Bool.false_eq_true, if_false]

/-- After startup the inputs are worked on, over an outlet that takes everything, and the program ends by what comes of that. -/
theorem work_eq {options : Options} {session started : Session} (h : Startup.begin limits settings.logging session = (.ok (), started))
    {failure : Option RunError}
    (hrun : runInputs limits settings call.files options.inputs ⟨call.standardInput, .unlimited, started⟩ = .ok (failure, progress)) :
    work limits call options settings session = failure.elim (succeed limits progress) fun error => fail limits error progress := by
  unfold work
  rw [h]
  simp only [hrun, bind, Except.bind]
  cases failure <;> rfl

/-- A failed program leaves what was written, and status 1. -/
theorem exists_fail_eq_ok (limits : Limits) (error : RunError) (progress : Progress) :
    ∃ exit, fail limits error progress = .ok exit ∧ exit.status = 1 ∧ exit.output = progress.outlet.delivered := by
  obtain ⟨after, hafter⟩ := (progress.session.print (complaint limits error)).exists_printReport_eq_ok
  unfold fail
  rw [hafter]
  exact ⟨_, rfl, rfl, rfl⟩

/-- Any other program leaves what was written, and status 0. -/
theorem exists_succeed_eq_ok (limits : Limits) (progress : Progress) :
    ∃ exit, succeed limits progress = .ok exit ∧ exit.status = 0 ∧ exit.output = progress.outlet.delivered := by
  obtain ⟨after, hafter⟩ := progress.session.exists_printReport_eq_ok
  obtain ⟨summary, hsummary⟩ := after.exists_summary_eq_ok
  unfold succeed
  simp only [hafter, bind, Except.bind, hsummary]
  exact ⟨_, rfl, rfl, rfl⟩

end Program

end CommandLine

end Lexing
