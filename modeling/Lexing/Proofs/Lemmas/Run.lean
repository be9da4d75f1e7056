import Lexing.Proofs.Lemmas.Writing
import Lexing.Run

/-!
# Runs over an outlet that takes everything

Nothing stops a run that has got its text, but an error of the scan: the listing writer refuses no token, the counts are in range,
and an error of the scan can be quoted. So the run of a text is told from its delivery (`stages_of_error`, `stages_of_ok`).
-/

namespace Lexing

namespace Listing

/-- An outlet that takes everything takes all lines. -/
theorem writeLines_unbounded (settings : ListingSettings) (delivered : ByteArray) (silent flushFails : Bool)
    (tokens : List (Located Token)) :
    writeLines settings (⟨delivered, none, silent, flushFails⟩ : Outlet) tokens =
      (⟨delivered ++ (lines settings tokens).toUTF8, none, silent, flushFails⟩, none) := by
  induction tokens generalizing delivered with
  | nil => simp [writeLines, lines]
  | cons token rest ih =>
    rw [writeLines]
    split
    next hshown =>
      rw [lines_cons_of_shows hshown, Text.toUTF8_append, ← ByteArray.append_assoc]
      exact ih (delivered ++ (line settings token).toUTF8)
    next hshown =>
      rw [lines_cons_of_hidden hshown]
      exact ih delivered

end Listing

namespace Analyzer

/-- An analysis into a listing writer that takes everything writes the lines of the tokens of the delivery, counts these, and ends as
the delivery. -/
theorem analyze_accept (limits : Limits) {source : String} (h : source.utf8ByteSize < sizeBound) (analyzer : Analyzer)
    (delivered : ByteArray) (silent flushFails : Bool) (settings : ListingSettings) (session : Session) :
    ∃ count after, analyzer.analyze limits (ListingWriter.accept limits) source
        (.ofOutlet ⟨delivered, none, silent, flushFails⟩ settings) session =
      .ok ⟨⟨analyzer.settings, .ofTokens analyzer.settings source.length (Segmentation.delivery limits source).tokens⟩,
        ⟨⟨delivered ++ (Listing.lines settings (Segmentation.delivery limits source).tokens).toUTF8, none, silent, flushFails⟩,
          settings, count⟩, after, (Segmentation.delivery limits source).result⟩ := by
  have hwritten := Listing.writeLines_unbounded settings delivered silent flushFails (Segmentation.delivery limits source).tokens
  obtain ⟨⟨⟨_, _⟩, ⟨_, _, count⟩, after, _⟩, hanalyze, hends⟩ :=
    exists_analyze_ends limits h analyzer settings (⟨delivered, none, silent, flushFails⟩ : Outlet) session
  obtain ⟨hanalyzer, houtlet, hsettings, hresult, -, hmetrics⟩ := hends
  rw [hwritten] at houtlet hresult hmetrics
  have hcounted := hmetrics rfl
  simp only at hanalyzer houtlet hsettings hresult hcounted
  subst hanalyzer houtlet hsettings hresult hcounted
  exact ⟨count, after, hanalyze⟩

end Analyzer

namespace Run

open Segmentation

variable {limits : Limits} {settings : Settings} {input : InputText}

/-- The table of counts, if it is wanted. -/
def tableBytes (settings : ListingSettings) (table : String) : ByteArray :=
  if settings.summary then table.toUTF8 else ByteArray.empty

/-- The counts of some tokens can be put in a table. -/
theorem exists_summary_ofTokens (analysis : AnalysisSettings) (characters : Nat) (tokens : List (Located Token)) :
    ∃ table, Listing.summary (.ofTokens analysis characters tokens) = .ok table := by
  obtain ⟨significant, hs⟩ := Metrics.exists_significant_ofTokens analysis characters tokens
  unfold Listing.summary
  simp only [hs]
  exact ⟨_, rfl⟩

/-- Over an outlet that takes everything the table is written. -/
theorem writeSummary_of_summary {metrics : Metrics} {table : String} (h : Listing.summary metrics = .ok table)
    (delivered : ByteArray) (silent : Bool) :
    writeSummary ⟨delivered, none, silent, false⟩ metrics = .ok (⟨delivered ++ table.toUTF8, none, silent, false⟩, none) := by
  unfold writeSummary
  simp only [h]
  rfl

/-- A run of a text whose delivery ends with an error leaves the lines of the tokens in front of it. -/
theorem stages_of_error (h : input.source.utf8ByteSize < sizeBound) {error : ScanError}
    (hresult : (delivery limits input.source).result = .error error) (name : String) (delivered : ByteArray) (silent : Bool)
    (session : Session) :
    ∃ after, stages limits settings name input ⟨delivered, none, silent, false⟩ session =
      .ok (⟨⟨delivered ++ (Listing.lines settings.listing (delivery limits input.source).tokens).toUTF8, none, silent, false⟩,
        .error (.scan error)⟩, after) := by
  obtain ⟨count, after, hanalyze⟩ := Analyzer.analyze_accept limits h (.withSettings settings.analysis) delivered silent false
    settings.listing session
  rw [hresult] at hanalyze
  unfold stages
  simp only [hanalyze, bind, Except.bind]
  exact ⟨after, rfl⟩

/-- A run of a text that is delivered in full leaves the lines of the tokens, and behind them the table if it is wanted. -/
theorem stages_of_ok (h : input.source.utf8ByteSize < sizeBound) {total : Nat}
    (hresult : (delivery limits input.source).result = .ok total) {table : String}
    (htable : Listing.summary (.ofTokens settings.analysis input.source.length (delivery limits input.source).tokens) = .ok table)
    (name : String) (delivered : ByteArray) (silent : Bool) (session : Session) :
    ∃ after, stages limits settings name input ⟨delivered, none, silent, false⟩ session =
      .ok (⟨⟨delivered ++ ((Listing.lines settings.listing (delivery limits input.source).tokens).toUTF8 ++
          tableBytes settings.listing table), none, silent, false⟩,
        .ok ⟨input.metadata, .ofTokens settings.analysis input.source.length (delivery limits input.source).tokens, total⟩⟩,
        after) := by
  obtain ⟨count, after, hanalyze⟩ := Analyzer.analyze_accept limits h (.withSettings settings.analysis) delivered silent false
    settings.listing session
  rw [hresult] at hanalyze
  unfold stages
  simp only [hanalyze, bind, Except.bind, ListingWriter.finish, Medium.flush_outlet, Outlet.flush]
  cases hs : settings.listing.summary with
  | false =>
    simp only [tableBytes, hs, Bool.false_eq_true, if_false, ByteArray.append_empty]
    exact ⟨_, rfl⟩
  | true =>
    simp only [tableBytes, hs, if_true, Bool.false_eq_true, if_false, Analyzer.withSettings, writeSummary_of_summary htable,
      ByteArray.append_assoc]
    exact ⟨_, rfl⟩

end Run

end Lexing
