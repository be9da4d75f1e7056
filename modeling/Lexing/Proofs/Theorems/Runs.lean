import Lexing.Proofs.Lemmas.Admission
import Lexing.Proofs.Lemmas.Run
import Lexing.Proofs.Lemmas.Success

/-!
# What a run leaves

A run reads an input, analyses and lists its text, and tells the counts. Each stage may end the run. `run_leaves` says what is left
then: nothing is written of an input that is refused, the listing of a text that cannot be scanned in full breaks off in front of
the failure, and only a run that goes through writes the table. The lines written, the counts and the sort of the error come from one
and the same scan of the text.
-/

namespace Lexing

/-- The report of a run tells the size of its input, and the number and the counts of its tokens. -/
structure RunReport.Tells (settings : AnalysisSettings) (bytes : ByteArray) (source : String) (tokens : List (Located Token))
    (report : RunReport) : Prop where
  size_eq : report.metadata.size = bytes.size
  tokens_eq : report.tokens = tokens.length
  total_eq : report.metrics.total = tokens.length
  metrics_eq : report.metrics = .ofTokens settings source.length tokens

namespace Run

open Segmentation

variable {limits : Limits} {settings : Settings}

/-- What a run of some bytes writes, and its result. There are no bytes when the input cannot be read. -/
inductive Leaves (limits : Limits) (settings : Settings) (bytes? : Option ByteArray) :
    ByteArray → Except RunError RunReport → Prop
  /-- There is no text that may be analysed. -/
  | refused {error : InputError} (h : ∀ bytes ∈ bytes?, ∀ source, ¬Input.Admits limits bytes source) :
      Leaves limits settings bytes? ByteArray.empty (.error (.input error))
  /-- The scan of the text fails behind some tokens. -/
  | cut {bytes : ByteArray} {source : String} {tokens : Array (Located Token)} {error : ScanError} (h : bytes ∈ bytes?)
      (hadmits : Input.Admits limits bytes source) (hscan : Scanner.scan limits Sink.collect #[] source = .ok ⟨tokens, .error error⟩) :
      Leaves limits settings bytes? (Listing.lines settings.listing tokens.toList).toUTF8 (.error (.scan error))
  /-- The text is scanned in full. -/
  | listed {bytes : ByteArray} {source : String} {tokens : Array (Located Token)} {count : Nat} {report : RunReport} {table : String}
      (h : bytes ∈ bytes?) (hadmits : Input.Admits limits bytes source)
      (hscan : Scanner.scan limits Sink.collect #[] source = .ok ⟨tokens, .ok count⟩)
      (hreport : report.Tells settings.analysis bytes source tokens.toList) (htable : Listing.summary report.metrics = .ok table) :
      Leaves limits settings bytes?
        ((Listing.lines settings.listing tokens.toList).toUTF8 ++ tableBytes settings.listing table) (.ok report)

/-- A run whose reading fails ends with that. -/
theorem ofInput_of_error {read : Reading InputText} {error : InputError} (h : read.Settles (.error error)) (limits : Limits)
    (settings : Settings) (label name : String) (outlet : Outlet) (session : Session) :
    ∃ after, ofInput limits settings label name read outlet session = .ok (⟨outlet, .error (.input error)⟩, after) := by
  unfold ofInput Session.withinFile
  simp only
  obtain ⟨after, hread⟩ := h _
  rw [hread]
  exact ⟨_, rfl⟩

/-- A run whose reading gives a text comes to what the stages behind it come to. -/
theorem ofInput_of_ok {read : Reading InputText} {input : InputText} (h : read.Settles (.ok input)) {name : String} {outlet : Outlet}
    {outcome : RunOutcome}
    (hstages : ∀ session, ∃ after, stages limits settings name input outlet session = .ok (outcome, after)) (label : String)
    (session : Session) : ∃ after, ofInput limits settings label name read outlet session = .ok (outcome, after) := by
  unfold ofInput Session.withinFile
  simp only
  obtain ⟨opened, hread⟩ := h _
  obtain ⟨after, hdone⟩ := hstages opened
  rw [hread]
  simp only [hdone]
  exact ⟨_, rfl⟩

/-- A run of an input that is read in any way leaves what is said of its bytes. -/
theorem ofInput_leaves (h : limits.maxFileSize < sizeBound) {bytes? : Option ByteArray} {read : Reading InputText}
    (hserves : Input.Serves limits bytes? read) (settings : Settings) (label name : String) (delivered : ByteArray) (silent : Bool)
    (session : Session) :
    ∃ written result after, ofInput limits settings label name read ⟨delivered, none, silent, false⟩ session =
        .ok (⟨⟨delivered ++ written, none, silent, false⟩, result⟩, after) ∧
      Leaves limits settings bytes? written result := by
  rcases hserves with ⟨error, hread, hnone⟩ | ⟨bytes, hbytes, input, hread, hadmits, hsize⟩
  · obtain ⟨after, hrun⟩ := ofInput_of_error hread limits settings label name ⟨delivered, none, silent, false⟩ session
    refine ⟨ByteArray.empty, .error (.input error), after, ?_, .refused hnone⟩
    rw [ByteArray.append_empty]
    exact hrun
  -- The text is as large as its bytes, so it is below the bound, and its scan is its delivery.
  · have hbound : input.source.utf8ByteSize < sizeBound := by
      have hle := hadmits.size_le
      rw [hadmits.utf8ByteSize_eq]
      omega
    have hscan : Scanner.scan limits Sink.collect #[] input.source = _ := Scanner.scan_collect hbound
    cases hresult : (delivery limits input.source).result with
    | error error =>
      rw [hresult] at hscan
      obtain ⟨after, hrun⟩ := ofInput_of_ok hread (stages_of_error hbound hresult name delivered silent) label session
      exact ⟨_, _, after, hrun, .cut hbytes hadmits hscan⟩
    | ok total =>
      rw [hresult] at hscan
      have htotal : total = (delivery limits input.source).tokens.length := count_eq_of_scan_collect hscan
      obtain ⟨table, htable⟩ := exists_summary_ofTokens settings.analysis input.source.length (delivery limits input.source).tokens
      obtain ⟨after, hrun⟩ := ofInput_of_ok hread (stages_of_ok hbound hresult htable name delivered silent) label session
      have hreport : RunReport.Tells settings.analysis bytes input.source (delivery limits input.source).tokens
          ⟨input.metadata, .ofTokens settings.analysis input.source.length (delivery limits input.source).tokens, total⟩ :=
        ⟨hsize, htotal, Metrics.total_ofTokens _ _ _, rfl⟩
      have hleaves := Leaves.listed hbytes hadmits hscan hreport htable
      exact ⟨_, _, after, hrun, hleaves⟩

end Run

end Lexing
