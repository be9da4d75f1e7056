import Lexing.Proofs.Lemmas.Run

/-!
# Where a run fails

A run that has got its text may fail in its analysis, and then at the flush behind the lines, at the table of counts, or at the flush
behind that (`finalFailure`). Each failure is reported by whoever meets it. `Agrees` says what the errors reported have to do with
the result.
-/

namespace Lexing

open Segmentation

variable {ω : Type} [Medium ω]

namespace Run

open Session

variable {limits : Limits} {settings : Settings} {input : InputText} {session : Session}

/-- Why a run fails whose lines are all written, if it does: the flush behind the lines, the table, or the flush behind the table. -/
def finalFailure (listed : ω) (table? : Option String) : Option String :=
  match Medium.flush listed with
  | (_, some reason) => some reason
  | (flushed, none) =>
    match table? with
    | none => none
    | some table =>
      match Medium.write flushed table.toUTF8 with
      | (_, some reason) => some reason
      | (whole, none) => (Medium.flush whole).2

/-- The table of counts that is to stand behind the lines of some tokens, if one is wanted. -/
def table? (settings : Settings) (source : String) (tokens : List (Located Token)) : Option String :=
  if settings.listing.summary then (Listing.summary (.ofTokens settings.analysis source.length tokens)).toOption else none

/-- All lines of a text are written, and then the final flush or the table fails. -/
def FailsAtEnd (limits : Limits) (settings : Settings) (source : String) (outlet : ω) : Prop :=
  ∃ tokens count listed, Scanner.scan limits Sink.collect #[] source = .ok ⟨tokens, .ok count⟩ ∧
    Listing.writeLines settings.listing outlet tokens.toList = (listed, none) ∧
    (finalFailure listed (table? settings source tokens.toList)).isSome

/-- The errors that a run reports agree with its result. A failure at the end is reported as one of writing; any other failure is
reported last under its own code; and a run that goes through reports none. -/
inductive Agrees (atEnd : Prop) : List String → Except RunError RunReport → Prop
  | finished (report : RunReport) (h : ¬atEnd) : Agrees atEnd [] (.ok report)
  | failed (codes : List String) (error : RunError) (h : ¬atEnd) : Agrees atEnd (codes ++ [error.code]) (.error error)
  | failedAtEnd (error : RunError) (h : atEnd) : Agrees atEnd [Code.writeFailed] (.error error)

/-- A text whose lines are all written fails at the end when something behind the lines does. -/
theorem failsAtEnd_iff {outlet listed : ω} (h : input.source.utf8ByteSize < sizeBound) {count : Nat}
    (hresult : (delivery limits input.source).result = .ok count)
    (hw : Listing.writeLines settings.listing outlet (delivery limits input.source).tokens = (listed, none)) :
    FailsAtEnd limits settings input.source outlet ↔
      (finalFailure listed (table? settings input.source (delivery limits input.source).tokens)).isSome := by
  have hscan : Scanner.scan limits Sink.collect #[] input.source = _ := Scanner.scan_collect h
  rw [hresult] at hscan
  constructor
  · rintro ⟨tokens, count', listed', hscan', hw', hfinal⟩
    obtain ⟨rfl, -⟩ := Scanner.Outcome.mk.inj (Except.ok.inj (hscan.symm.trans hscan'))
    obtain ⟨rfl, -⟩ := Prod.mk.inj (hw.symm.trans hw')
    exact hfinal
  · intro hfinal
    exact ⟨_, _, listed, hscan, hw, hfinal⟩

/-- Writing the table behind lines that were flushed. -/
theorem exists_writeSummary {listed flushed : ω} (hflush : Medium.flush listed = (flushed, none)) {metrics : Metrics} {table : String}
    (h : Listing.summary metrics = .ok table) :
    ∃ last, writeSummary flushed metrics = .ok (last, finalFailure listed (some table)) := by
  unfold writeSummary finalFailure
  simp only [h, hflush]
  rcases Medium.write flushed table.toUTF8 with ⟨whole, _ | reason⟩
  · exact ⟨_, rfl⟩
  · exact ⟨_, rfl⟩

/-- A run whose analysis fails does not come to its end. -/
theorem not_failsAtEnd_of_error {outlet : ω} (h : input.source.utf8ByteSize < sizeBound) {error : ScanError}
    (hresult : Analyzer.resultOf (delivery limits input.source).result
      (Listing.writeLines settings.listing outlet (delivery limits input.source).tokens).2 = .error error) :
    ¬FailsAtEnd limits settings input.source outlet := by
  rintro ⟨tokens, count, listed, hscan, hw, -⟩
  have hdelivery : Scanner.scan limits Sink.collect #[] input.source = _ := Scanner.scan_collect h
  obtain ⟨rfl, hcount⟩ := Scanner.Outcome.mk.inj (Except.ok.inj (hdelivery.symm.trans hscan))
  rw [hw, hcount] at hresult
  cases hresult

/-- What follows an analysis that went through: nothing is reported, or the failure behind the lines. -/
theorem exists_stages_of_listed (name : String) {outlet listed : ω} {analyzer : Analyzer} {listing : ListingSettings}
    {written count : Nat} {analyzed : Session} {table : String}
    (hanalyze : (Analyzer.withSettings settings.analysis).analyze limits (ListingWriter.accept limits) input.source
      (.ofOutlet outlet settings.listing) session = .ok ⟨analyzer, ⟨listed, listing, written⟩, analyzed, .ok count⟩)
    (hs : analyzed.service.isSome) (htable : Listing.summary analyzer.metrics = .ok table) :
    ∃ outcome after, stages limits settings name input outlet session = .ok (outcome, after) ∧
      match finalFailure listed (if settings.listing.summary then some table else none) with
      | none => analyzed.Reports [] after ∧ ∃ report, outcome.result = .ok report
      | some _ => analyzed.Reports [Code.writeFailed] after ∧ ∃ error, outcome.result = .error error := by
  unfold stages
  simp only [hanalyze, bind, Except.bind, ListingWriter.finish]
  rcases hflush : Medium.flush listed with ⟨flushed, _ | reason⟩
  · have hcomplete := reports_logSuccess limits hs Code.outputComplete "Token output written"
      [("format", listing.format.name), ("tokens_written", toString written)]
    have hready := hcomplete.ready hs
    cases settings.listing.summary with
    | false =>
      have hnone : finalFailure listed none = none := by simp only [finalFailure, hflush]
      simp only [Bool.false_eq_true, if_false, hnone]
      exact ⟨_, _, rfl, hcomplete.trans (reports_logSuccess limits hready _ _ _), _, rfl⟩
    | true =>
      obtain ⟨last, hlast⟩ := exists_writeSummary hflush htable
      simp only [if_true, hlast]
      cases finalFailure listed (some table) with
      | none => exact ⟨_, _, rfl, hcomplete.trans (reports_logSuccess limits hready _ _ _), _, rfl⟩
      | some reason => exact ⟨_, _, rfl, hcomplete.trans (reports_logError limits hready _ _ _ _), _, rfl⟩
  · simp only [finalFailure, hflush]
    exact ⟨_, _, rfl, reports_logError limits hs _ _ _ _, _, rfl⟩

/-- A text that was read is run to an end, and what is reported agrees with that. -/
theorem exists_stages_agrees (h : input.source.utf8ByteSize < sizeBound) (settings : Settings) (name : String) (outlet : ω)
    (hs : session.service.isSome) :
    ∃ outcome after codes, stages limits settings name input outlet session = .ok (outcome, after) ∧
      session.Reports codes after ∧ Agrees (FailsAtEnd limits settings input.source outlet) codes outcome.result := by
  obtain ⟨⟨analyzer, ⟨listed, listing, written⟩, analyzed, result⟩, hanalyze, hends⟩ :=
    Analyzer.exists_analyze_ends limits h (.withSettings settings.analysis) settings.listing outlet session
  have hreports := hends.reports hs
  cases result with
  | error error =>
    have hnot := not_failsAtEnd_of_error h hends.result_eq.symm
    unfold stages
    simp only [hanalyze, bind, Except.bind]
    exact ⟨_, _, _, rfl, hreports, .failed _ (.scan error) hnot⟩
  | ok count =>
    obtain ⟨hwritten, hscanned⟩ := Analyzer.eq_none_of_resultOf_eq_ok hends.result_eq.symm
    have hw : Listing.writeLines settings.listing outlet (delivery limits input.source).tokens = (listed, none) :=
      Prod.ext hends.outlet_eq.symm hwritten
    have hmetrics : analyzer.metrics = .ofTokens settings.analysis input.source.length (delivery limits input.source).tokens :=
      hends.metrics_eq hwritten
    obtain ⟨table, htable⟩ :=
      exists_summary_ofTokens settings.analysis input.source.length (delivery limits input.source).tokens
    have hfails := failsAtEnd_iff h hscanned hw
    rw [table?, htable, Except.toOption] at hfails
    rw [← hmetrics] at htable
    obtain ⟨outcome, after, hstages, hlast⟩ := exists_stages_of_listed name hanalyze (hreports.ready hs) htable
    rw [hwritten] at hreports
    cases hfailure : finalFailure listed (if settings.listing.summary then some table else none) with
    | none =>
      rw [hfailure] at hlast hfails
      obtain ⟨hquiet, report, hresult⟩ := hlast
      refine ⟨outcome, after, _, hstages, hreports.trans hquiet, ?_⟩
      rw [hresult]
      exact .finished report fun hend => Bool.false_ne_true (hfails.1 hend)
    | some reason =>
      rw [hfailure] at hlast hfails
      obtain ⟨hloud, error, hresult⟩ := hlast
      refine ⟨outcome, after, _, hstages, hreports.trans hloud, ?_⟩
      rw [hresult]
      exact .failedAtEnd error (hfails.2 rfl)

end Run

end Lexing
