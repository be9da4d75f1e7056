import Lexing.Proofs.Lemmas.Totals

/-!
# What the totals tell

The totals of a ledger can always be told, and sort the files by the gravest of their events (`summary_partitions`). Files without
errors and warnings are what is left of all files, and of these there are as many as the longer of the two tables has. That is all
files seen when each file with events was entered, too, or each file that was entered has events, and only then
(`summary_counts_longer_table`): a file that was entered and another one with events are taken for one (`summary_misses_file`).
-/

namespace Lexing.Ledger

/-- Whatever was done with a ledger, its totals can be told. They are counts over the files seen since it was cleared, each of which
counts once: a file has failed when an error is kept for it, it has warnings when a warning is kept for it and no error, and with the
rest these make up all files, which are as many as were entered or as events are kept for, whichever are more. The errors and the
warnings are those kept for the files, notices included, and no more than the events kept. -/
theorem summary_partitions (limits : Limits) (actions : List Action) :
    let ledger := applyAll limits empty actions
    let files := filesOf actions
    (files.Pairwise fun a b => a.parts ≠ b.parts) ∧
      (∀ path, ledger.eventsOf path ≠ [] → ∃ file ∈ files, file.parts = path.parts) ∧
      ∃ summary, ledger.summary = .ok summary ∧
        summary.failed = files.countP (fun file => ledger.hasErrors file) ∧
        summary.warned = files.countP (fun file => !ledger.hasErrors file && ledger.hasWarnings file) ∧
        summary.failed + summary.warned + summary.successful = summary.files ∧
        summary.files = max (Path.distinct (enteredPaths actions)).length
          (files.countP fun file => !(ledger.eventsOf file).isEmpty) ∧
        summary.errors = (files.map fun file => (ledger.errorsOf file).length).sum ∧
        summary.warnings = (files.map fun file => (ledger.warningsOf file).length).sum ∧
        summary.errors + summary.warnings ≤ ledger.size := by
  intro ledger files
  have h : Reflects limits actions ledger := reflects_applyAll limits actions
  obtain ⟨summary, hok, hfiles, hfailed, hwarned, hsum, herrors, hwarnings⟩ := h.exists_summary
  refine ⟨pairwise_filesOf actions, fun path hkept => h.exists_file hkept, summary, hok, hfailed, hwarned, hsum, hfiles, herrors,
    hwarnings, ?_⟩
  rw [herrors, hwarnings]
  exact h.sum_errors_add_sum_warnings_le

/-- As long as no more was recorded since a ledger was cleared than may be kept in all, its totals count as many files as were entered
or as events were recorded for, whichever are more. So they miss some of the files seen, or none, and the quiet files that they count
are too few by the same number. They miss none exactly when each file with records was entered, or each file that was entered has
records. -/
theorem summary_counts_longer_table (limits : Limits) (actions : List Action)
    (hfew : (recordsOf actions).length ≤ limits.maxErrorCollection) :
    let ledger := applyAll limits empty actions
    let files := filesOf actions
    let nested := Path.Among (recordedPaths actions) (enteredPaths actions) ∨
      Path.Among (enteredPaths actions) (recordedPaths actions)
    ∃ summary, ledger.summary = .ok summary ∧
      summary.files = max (Path.distinct (enteredPaths actions)).length (Path.distinct (recordedPaths actions)).length ∧
      summary.files ≤ files.length ∧
      summary.successful + (files.length - summary.files) = files.countP (fun file => ledger.isQuiet file) ∧
      (summary.files = files.length ↔ nested) ∧
      (summary.successful = files.countP (fun file => ledger.isQuiet file) ↔ nested) := by
  intro ledger files nested
  have h : Reflects limits actions ledger := reflects_applyAll limits actions
  obtain ⟨summary, hok, hfiles, hfailed, hwarned, hsum, -, -⟩ := h.exists_summary
  -- The files that events are kept for are those that some were recorded for.
  have hkept : (filesOf actions).countP (fun file => !(ledger.eventsOf file).isEmpty) =
      (Path.distinct (recordedPaths actions)).length := by
    rw [← h.length_events (pairwise_filesOf actions) (among_recorded_filesOf actions),
      h.length_events (Path.pairwise_distinct _) (Path.among_distinct _), List.countP_eq_length]
    intro file hf
    simpa using h.eventsOf_ne_nil hfew (Path.mem_of_mem_distinct hf)
  rw [hkept] at hfiles
  have hle : summary.files ≤ files.length := by
    rw [hfiles]
    exact Path.max_length_distinct_le _ _
  have hnested : summary.files = files.length ↔ nested := by
    rw [hfiles]
    exact (Path.max_length_distinct_eq_iff _ _).trans or_comm
  have hall : files.length = summary.failed + summary.warned + files.countP (fun file => ledger.isQuiet file) := by
    rw [hfailed, hwarned]
    exact length_eq_countP_add ledger files
  refine ⟨summary, hok, hfiles, hle, by omega, hnested, ?_⟩
  rw [← hnested]
  omega

/-- Two files are entered, and a warning is recorded for one of them in another spelling: none is missed. -/
theorem summary_counts_longer_table_spelled :
    let warning := Event.warning .development none "late"
    let actions := [Action.enter ⟨"a"⟩ 0, .enter ⟨"b"⟩ 1, .record ⟨"b/"⟩ warning]
    (recordsOf actions).length ≤ Limits.development.maxErrorCollection ∧
      ∃ summary, (applyAll .development empty actions).summary = .ok summary ∧ summary.files = 2 ∧
        summary.successful = (filesOf actions).countP fun file => (applyAll .development empty actions).isQuiet file := by
  intro warning actions
  have hfew : (recordsOf actions).length ≤ Limits.development.maxErrorCollection := by decide
  obtain ⟨summary, hok, hfiles, -, -, -, hquiet⟩ := summary_counts_longer_table .development actions hfew
  refine ⟨hfew, summary, hok, hfiles.trans (by decide), hquiet.2 (Or.inl ?_)⟩
  intro path hp
  exact ⟨⟨"b"⟩, by decide, by rw [List.mem_singleton.1 hp]; decide⟩

/-- One file is entered, and a warning is recorded for another one. The totals count one file and none that is quiet, where two were
seen and one of them is quiet. -/
theorem summary_misses_file :
    let warning := Event.warning .development none "late"
    let actions := [Action.enter ⟨"a"⟩ 0, .record ⟨"b"⟩ warning]
    let ledger := applyAll .development empty actions
    ∃ summary, ledger.summary = .ok summary ∧ summary.files = 1 ∧ (filesOf actions).length = 2 ∧ summary.successful = 0 ∧
      (filesOf actions).countP (fun file => ledger.isQuiet file) = 1 :=
  ⟨⟨1, 0, 0, 1, 0, 1⟩, by decide, rfl, by decide, rfl, by decide⟩

end Lexing.Ledger
