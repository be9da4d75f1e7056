import Lexing.Proofs.Lemmas.Analysis
import Lexing.Proofs.Lemmas.Listing
import Lexing.Proofs.Lemmas.Reports

/-!
# Listings over any medium

A medium may fail at any line. Which lines are written does not depend on what is logged meanwhile, so it can be told apart from that
(`writeLines`). An analysis into a listing writer returns over any medium, with the lines written so far. With a service installed
it reports its error, and a line that cannot be written in front of it (`exists_analyze_ends`).
-/

namespace Lexing

open Segmentation

variable {ω : Type} [Medium ω]

/-! ## Writing lines -/

namespace Listing

/-- Writes the lines of tokens one after another, until one cannot be written. -/
def writeLines (settings : ListingSettings) (outlet : ω) : List (Located Token) → ω × Option String
  | [] => (outlet, none)
  | token :: rest =>
    if shows settings token then
      match Medium.write outlet (line settings token).toUTF8 with
      | (outlet, none) => writeLines settings outlet rest
      | (outlet, some reason) => (outlet, some reason)
    else writeLines settings outlet rest

end Listing

/-- What is reported when a line cannot be written, by the reason for that. -/
def ListingWriter.codesOfWrite : Option String → List String
  | none => []
  | some _ => [Code.writeFailed]

namespace Analyzer

open Listing ListingWriter Session

variable {limits : Limits} {analysis : AnalysisSettings} {settings : ListingSettings} {source : String} {session : Session}

/-- What comes of offering tokens to the counting sink around a listing writer: their lines are written until one cannot be, which
is reported, and the tokens are counted. -/
structure Lists (analysis : AnalysisSettings) (settings : ListingSettings) (outlet : ω) (session : Session) (metrics : Metrics)
    (tokens : List (Located Token)) (offered : Recorded (ListingWriter ω) × Option ScanError) : Prop where
  outlet_eq : offered.1.sink.outlet = (writeLines settings outlet tokens).1
  settings_eq : offered.1.sink.settings = settings
  answer_eq : offered.2 = (writeLines settings outlet tokens).2.map .sinkFailed
  reports : session.service.isSome → session.Reports (codesOfWrite (writeLines settings outlet tokens).2) offered.1.session
  counts : (writeLines settings outlet tokens).2 = none →
    offered.1.metrics = tokens.foldl (fun metrics token => metrics.record analysis token.value) metrics

/-- Around a sink that takes a token and reports nothing, the counting sink takes it, counts it and reports nothing. -/
theorem exists_recording_of_taken (limits : Limits) {σ : Type} {accept : Sink (σ × Session)} {state next : σ}
    {token : Located Token} (h : accept (state, session) token = ((next, session), none)) (analysis : AnalysisSettings)
    (metrics : Metrics) :
    ∃ last, recording limits analysis accept ⟨state, session, metrics⟩ token =
        (⟨next, last, metrics.record analysis token.value⟩, none) ∧ (session.service.isSome → session.Reports [] last) := by
  simp only [recording, h]
  split
  · exact ⟨_, rfl, fun hs => reports_logWarning limits hs _ _ _ _⟩
  · exact ⟨_, rfl, fun _ => reports_of_sent_eq rfl rfl⟩

/-- Behind a token that was taken, the lines of the others are written. -/
theorem Lists.cons {outlet next : ω} {written lines : Nat} {metrics : Metrics} {token : Located Token}
    {rest : List (Located Token)}
    (h : ListingWriter.accept limits (⟨outlet, settings, written⟩, session) token = ((⟨next, settings, lines⟩, session), none))
    (hlines : writeLines settings outlet (token :: rest) = writeLines settings next rest)
    (ih : ∀ session : Session,
      Lists analysis settings next session (metrics.record analysis token.value) rest
        ((recording limits analysis (ListingWriter.accept limits)).offer
          ⟨⟨next, settings, lines⟩, session, metrics.record analysis token.value⟩ rest)) :
    Lists analysis settings outlet session metrics (token :: rest)
      ((recording limits analysis (ListingWriter.accept limits)).offer ⟨⟨outlet, settings, written⟩, session, metrics⟩
        (token :: rest)) := by
  obtain ⟨last, hstep, hlast⟩ := exists_recording_of_taken limits h analysis metrics
  have hrest := ih last
  rw [Sink.offer_of_taken hstep]
  refine ⟨?_, hrest.settings_eq, ?_, ?_, ?_⟩
  · rw [hlines]
    exact hrest.outlet_eq
  · rw [hlines]
    exact hrest.answer_eq
  · rw [hlines]
    intro hs
    exact (hlast hs).trans (hrest.reports ((hlast hs).ready hs))
  · rw [hlines]
    exact hrest.counts

/-- Offering tokens to the counting sink around a listing writer writes their lines. -/
theorem lists_offer (limits : Limits) (analysis : AnalysisSettings) (settings : ListingSettings) (outlet : ω) (written : Nat)
    (session : Session) (metrics : Metrics) (tokens : List (Located Token)) :
    Lists analysis settings outlet session metrics tokens
      ((recording limits analysis (ListingWriter.accept limits)).offer ⟨⟨outlet, settings, written⟩, session, metrics⟩
        tokens) := by
  -- A token that is taken leaves another medium, another session and other counts to the rest of the tokens.
  induction tokens generalizing outlet written session metrics with
  | nil => exact ⟨rfl, rfl, rfl, fun _ => reports_of_sent_eq rfl rfl, fun _ => rfl⟩
  | cons token rest ih =>
    by_cases hshown : shows settings token
    · rcases hw : Medium.write outlet (line settings token).toUTF8 with ⟨next, _ | reason⟩
      · refine Lists.cons (accept_of_written limits hshown hw written session) ?_ fun after => ih next (written + 1) after _
        rw [writeLines, if_pos hshown, hw]
      · have hlines : writeLines settings outlet (token :: rest) = (next, some reason) := by
          rw [writeLines, if_pos hshown, hw]
        have hstep : recording limits analysis (ListingWriter.accept limits) ⟨⟨outlet, settings, written⟩, session, metrics⟩
              token =
            (⟨⟨next, settings, written⟩,
              session.logError limits Code.writeFailed "Failed to write token" (some token.span) [("error", reason)], metrics⟩,
              some (.sinkFailed reason)) := by
          simp only [recording, accept_of_unwritten limits hshown hw]
        rw [Sink.offer_of_refused hstep]
        refine ⟨?_, rfl, ?_, ?_, ?_⟩
        · rw [hlines]
        · rw [hlines]
          rfl
        · rw [hlines]
          intro hs
          exact reports_logError limits hs _ _ _ _
        · rw [hlines]
          intro hnone
          cases hnone
    · refine Lists.cons (accept_of_hidden limits hshown outlet written session) ?_ fun after => ih outlet written after _
      rw [writeLines, if_neg hshown]

/-! ## Analyses -/

/-- How a scan ends that would have ended in a result, when its lines are written as far as there is no reason against it. -/
def resultOf (result : Except ScanError Nat) : Option String → Except ScanError Nat
  | none => result
  | some reason => .error (.sinkFailed reason)

/-- What an analysis into a listing writer leaves: the lines of the tokens are written until one cannot be, and it ends with that or
else as the delivery. An error is reported, and a line that cannot be written is reported in front of it. -/
structure Ends (analyzer : Analyzer) (settings : ListingSettings) (outlet : ω) (session : Session) (source : String)
    (delivery : Delivery) (analyzed : Analyzed (ListingWriter ω)) : Prop where
  analyzer_eq : analyzed.analyzer.settings = analyzer.settings
  outlet_eq : analyzed.sink.outlet = (writeLines settings outlet delivery.tokens).1
  settings_eq : analyzed.sink.settings = settings
  result_eq : analyzed.result = resultOf delivery.result (writeLines settings outlet delivery.tokens).2
  reports : session.service.isSome → session.Reports
    (codesOfWrite (writeLines settings outlet delivery.tokens).2 ++ codesOf ScanError.code analyzed.result) analyzed.session
  metrics_eq : (writeLines settings outlet delivery.tokens).2 = none →
    analyzed.analyzer.metrics = .ofTokens analyzer.settings source.length delivery.tokens

/-- The scan of an analysis into a listing writer. -/
theorem exists_scan_lists (limits : Limits) (h : source.utf8ByteSize < sizeBound) (analysis : AnalysisSettings)
    (settings : ListingSettings) (outlet : ω) (session : Session) :
    ∃ recorded, Scanner.scan limits (recording limits analysis (ListingWriter.accept limits))
        ⟨.ofOutlet outlet settings, session, .start source.length⟩ source =
      .ok ⟨recorded, resultOf (delivery limits source).result (writeLines settings outlet (delivery limits source).tokens).2⟩ ∧
    Lists analysis settings outlet session (.start source.length) (delivery limits source).tokens
      (recorded, (writeLines settings outlet (delivery limits source).tokens).2.map .sinkFailed) := by
  have hlists := lists_offer limits analysis settings outlet 0 session (.start source.length) (delivery limits source).tokens
  rcases hoffer : (recording limits analysis (ListingWriter.accept limits)).offer
    ⟨.ofOutlet outlet settings, session, .start source.length⟩ (delivery limits source).tokens with ⟨recorded, answer⟩
  have hgot := hoffer
  rw [ListingWriter.ofOutlet] at hgot
  rw [hgot] at hlists
  obtain rfl := hlists.answer_eq
  refine ⟨recorded, ?_, hlists⟩
  rw [Scanner.scan_eq h, Delivery.into, hoffer]
  cases (writeLines settings outlet (delivery limits source).tokens).2 <;> rfl

/-- An error that ends an analysis into a listing writer can be quoted: a medium points nowhere. -/
theorem not_pointsInside_of_resultOf {failure : Option String} {error : ScanError}
    (h : resultOf (delivery limits source).result failure = .error error) : ¬error.PointsInside source := by
  cases failure with
  | none => exact not_pointsInside_of_delivery h
  | some reason =>
    obtain rfl := Except.error.inj h
    rintro ⟨offset, ho, -⟩
    cases ho

/-- An analysis ends well only if all lines are written. -/
theorem eq_none_of_resultOf_eq_ok {result : Except ScanError Nat} {failure : Option String} {count : Nat}
    (h : resultOf result failure = .ok count) : failure = none ∧ result = .ok count := by
  cases failure with
  | none => exact ⟨rfl, h⟩
  | some reason => cases h

/-- An analysis into a listing writer over any medium returns. -/
theorem exists_analyze_ends (limits : Limits) (h : source.utf8ByteSize < sizeBound) (analyzer : Analyzer)
    (settings : ListingSettings) (outlet : ω) (session : Session) :
    ∃ analyzed, analyzer.analyze limits (ListingWriter.accept limits) source (.ofOutlet outlet settings) session = .ok analyzed ∧
      Ends analyzer settings outlet session source (delivery limits source) analyzed := by
  unfold analyze
  simp only [bind, Except.bind]
  generalize hstart : session.trace limits "Starting lexical analysis" _ = opened
  have hopened : session.service.isSome → session.Reports [] opened := by
    rw [← hstart]
    exact fun hs => reports_trace limits hs _ _
  obtain ⟨⟨writer, scanned, counts⟩, hscan, hlists⟩ := exists_scan_lists limits h analyzer.settings settings outlet opened
  have hscanned := fun hs => (hopened hs).trans (hlists.reports ((hopened hs).ready hs))
  rw [hscan]
  cases hresult : resultOf (delivery limits source).result (writeLines settings outlet (delivery limits source).tokens).2 with
  | error error =>
    obtain ⟨quoted, hq⟩ := exists_errorExcerpt_eq_ok h (not_pointsInside_of_resultOf hresult)
    simp only [hq]
    refine ⟨_, rfl, rfl, hlists.outlet_eq, hlists.settings_eq, hresult.symm, fun hs => ?_, hlists.counts⟩
    exact (hscanned hs).trans (reports_logError limits ((hscanned hs).ready hs) _ _ _ _)
  | ok count =>
    obtain ⟨hwritten, -⟩ := eq_none_of_resultOf_eq_ok hresult
    obtain ⟨significant, hsig⟩ :=
      Metrics.exists_significant_ofTokens analyzer.settings source.length (delivery limits source).tokens
    have hcounts : counts = .ofTokens analyzer.settings source.length (delivery limits source).tokens := hlists.counts hwritten
    rw [← hcounts] at hsig
    simp only [hsig]
    refine ⟨_, rfl, rfl, hlists.outlet_eq, hlists.settings_eq, hresult.symm, fun hs => ?_, hlists.counts⟩
    exact (hscanned hs).trans (reports_logSuccess limits ((hscanned hs).ready hs) _ _ _)

end Analyzer

end Lexing
