import Lexing.Proofs.Lemmas.Analysis

/-!
# Analyses do not fault

A fault is a number that leaves its range, a span that ends before it starts, a candidate without characters, or a slice that cuts a
character in two. A scan of a text below the bound meets none of them, whatever the sink does, and neither do the counts and the
line index (`analyze_faultless`). So an analysis has an outcome, with one exception: an error that the sink makes up itself may point
into the middle of a character, and no text can be quoted from there (`analyze_faults_inside_letter`). An error is meant to point at
the start of a token, and one that does can be quoted.
-/

namespace Lexing

/-- The sink refuses one of the tokens with an error that points into the source, but inside a character. -/
def Sink.Misplaces {σ : Type} (accept : Sink σ) (source : String) (tokens : Array (Located Token)) : Prop :=
  ∃ before, ∃ token ∈ tokens, ∃ error, (accept before token).2 = some error ∧ error.PointsInside source

namespace Analyzer

open Segmentation

variable {σ : Type} {limits : Limits} {source : String}

/-- When a scan into the counting sink ends with an error inside a character, it is the sink that made it up. -/
theorem misplaces_of_into {settings : AnalysisSettings} {accept : Sink (σ × Session)} {recorded : Recorded σ}
    {error : ScanError} (h : ((delivery limits source).into (recording limits settings accept) recorded).result = .error error)
    (he : error.PointsInside source) : accept.Misplaces source (delivery limits source).tokens.toArray := by
  have hoffered := (recording limits settings accept).offered_calls recorded (delivery limits source)
  rw [h] at hoffered
  rcases hoffered.outcome_eq with hresult | ⟨token, error', hm, herror⟩
  · exact absurd he (not_pointsInside_of_delivery hresult.symm)
  · cases herror
    obtain ⟨before, hanswer⟩ := Sink.exists_of_mem_calls hm
    have htoken : token ∈ (delivery limits source).tokens :=
      hoffered.map_fst_prefix.subset (List.mem_map_of_mem hm)
    rw [snd_recording] at hanswer
    exact ⟨_, token, List.mem_toArray.2 htoken, error, hanswer, he⟩

/-- An analysis returns and its counts are bounded, or the sink has made up an error that points inside a character. -/
theorem analyze_eq_ok_or_offBoundary (limits : Limits) (h : source.utf8ByteSize < sizeBound) (accept : Sink (σ × Session))
    (analyzer : Analyzer) (state : σ) (session : Session) :
    (∃ analyzed, analyzer.analyze limits accept source state session = .ok analyzed ∧
      analyzed.analyzer.metrics.Bounded source.length) ∨
    (accept.Misplaces source (delivery limits source).tokens.toArray ∧
      analyzer.analyze limits accept source state session = .error .offBoundary) := by
  unfold analyze
  simp only [bind, Except.bind]
  generalize session.trace limits "Starting lexical analysis" _ = opened
  obtain ⟨outcome, hscan, hbounded⟩ := exists_scan_bounded limits h analyzer.settings accept state opened
  have hinto := hscan
  rw [Scanner.scan_eq h] at hinto
  simp only [hscan]
  obtain ⟨⟨last, after, counts⟩, error | count⟩ := outcome
  · by_cases he : error.PointsInside source
    · have hresult := congrArg Scanner.Outcome.result (Except.ok.inj hinto)
      simp only [errorExcerpt_eq_offBoundary he]
      exact Or.inr ⟨misplaces_of_into hresult he, trivial⟩
    · obtain ⟨quoted, hq⟩ := exists_errorExcerpt_eq_ok h he
      simp only [hq]
      exact Or.inl ⟨_, rfl, hbounded⟩
  · have hsignificant : counts.significant = .ok (counts.total - counts.blanks) := if_pos hbounded.blanks_le
    simp only [hsignificant]
    exact Or.inl ⟨_, rfl, hbounded⟩

end Analyzer

/-- Below the bound nothing faults. A scan into any sink has an outcome. So has the counting scan of an analysis, and its counts are
bounded by the number of characters. The line index stays in range. Hence an analysis returns, with any sink, any settings and in any
session, unless the sink refuses a token of the source with an error that points inside a character. Then all that fails is to quote
the text from there. -/
theorem analyze_faultless (limits : Limits) {source : String} (h : source.utf8ByteSize < sizeBound) :
    ∃ tokens result, Scanner.scan limits Sink.collect #[] source = .ok ⟨tokens, result⟩ ∧
      (∀ (σ : Type) (accept : Sink σ) (state : σ), ∃ outcome, Scanner.scan limits accept state source = .ok outcome) ∧
      (LineIndex.ofText source).InRange ∧
      ∀ (σ : Type) (accept : Sink (σ × Session)) (analyzer : Analyzer) (state : σ) (session : Session),
        (∃ outcome, Scanner.scan limits (Analyzer.recording limits analyzer.settings accept)
            ⟨state, session, .start source.length⟩ source = .ok outcome ∧ outcome.sink.metrics.Bounded source.length) ∧
        ((∃ analyzed, analyzer.analyze limits accept source state session = .ok analyzed ∧
            analyzed.analyzer.metrics.Bounded source.length) ∨
          accept.Misplaces source tokens ∧ analyzer.analyze limits accept source state session = .error .offBoundary) := by
  refine ⟨_, _, Scanner.scan_collect h, ?_, LineIndex.inRange_ofText h, ?_⟩
  · exact fun σ accept state => ⟨_, Scanner.scan_eq h accept state⟩
  · intro σ accept analyzer state session
    exact ⟨Analyzer.exists_scan_bounded limits h analyzer.settings accept state session,
      Analyzer.analyze_eq_ok_or_offBoundary limits h accept analyzer state session⟩

/-- A sink that takes no blank run, and points at the start of the one that it refuses. -/
def Sink.withoutBlanks : Sink (Unit × Session) := fun state token =>
  (state, if token.value.kind.isBlank then some (.tokenTooLong token.value.length token.span.start) else none)

/-- The refused tab starts behind a letter of two bytes, at a boundary, so the error is quoted and the analysis returns. -/
theorem analyze_faultless_letter_tab : "é\tx".utf8ByteSize < sizeBound ∧
    ∃ analyzed, (Analyzer.withSettings .builtIn).analyze .development Sink.withoutBlanks "é\tx" () (.fresh .builtIn "") =
      .ok analyzed ∧ analyzed.analyzer.metrics.total ≤ 3 := by
  have h : "é\tx".utf8ByteSize < sizeBound := by decide
  obtain ⟨tokens, result, htokens, -, -, hanalyze⟩ := analyze_faultless .development h
  obtain ⟨-, ⟨analyzed, hanalyzed, hbounded⟩ | ⟨⟨before, token, ht, error, hanswer, offset, ho, -, hv⟩, -⟩⟩ :=
    hanalyze _ Sink.withoutBlanks (.withSettings .builtIn) () (.fresh .builtIn "")
  · exact ⟨h, analyzed, hanalyzed, hbounded.total_le⟩
  · have hscan : Scanner.scan .development Sink.collect #[] "é\tx" =
        .ok ⟨(Segmentation.tokensFrom .start [['é'], ['\t'], ['x']]).toArray, .ok 3⟩ := rfl
    rw [hscan] at htokens
    cases htokens
    have hmem : token ∈ [Segmentation.located .start ['é'], Segmentation.located ⟨2, 1, 2⟩ ['\t'],
        Segmentation.located ⟨3, 1, 5⟩ ['x']] := List.mem_toArray.1 ht
    -- Only the tab is blank, and it starts at a boundary.
    simp only [List.mem_cons, List.not_mem_nil, or_false] at hmem
    rcases hmem with rfl | rfl | rfl
    · cases hanswer
    · cases hanswer
      cases ho
      exact absurd (by decide) hv
    · cases hanswer

/-- A sink that refuses every token, and points at one and the same place. -/
def Sink.pointingAt (place : Position) : Sink (Unit × Session) := fun state token =>
  (state, some (.tokenTooLong token.value.length place))

/-- A sink that points inside a letter of two bytes: there is nothing to quote, and the analysis has no outcome. -/
theorem analyze_faults_inside_letter : "é".utf8ByteSize < sizeBound ∧
    (Analyzer.withSettings .builtIn).analyze .development (Sink.pointingAt ⟨1, 1, 1⟩) "é" () (.fresh .builtIn "") =
      .error .offBoundary := by
  have hinside : (ScanError.tokenTooLong 1 ⟨1, 1, 1⟩).PointsInside "é" := ⟨1, rfl, by decide, by decide⟩
  refine ⟨by decide, ?_⟩
  unfold Analyzer.analyze
  simp only [bind, Except.bind]
  generalize Session.trace _ _ _ _ = opened
  have hscan : Scanner.scan .development
      (Analyzer.recording .development (Analyzer.withSettings .builtIn).settings (Sink.pointingAt ⟨1, 1, 1⟩))
      ⟨(), opened, .start "é".length⟩ "é" = .ok ⟨⟨(), opened, .start "é".length⟩, .error (.tokenTooLong 1 ⟨1, 1, 1⟩)⟩ := rfl
  simp only [hscan, Analyzer.errorExcerpt_eq_offBoundary hinside]

end Lexing
