import Lexing.Proofs.Lemmas.Counts
import Lexing.Proofs.Lemmas.LineRange

/-!
# Analyses

An analysis is a scan into the sink that counts. Counting changes no answer, so the counting sink gets the calls that the sink
inside it gets, and its counts are those of the tokens that were taken (`exists_into_recording`). So an analysis that returns leaves
the counts of its own tokens, however long the text is (`exists_taken_of_analyze`).

After the scan the analysis quotes the place that an error points at. The scan's own errors point at the start of a piece. An
error that a sink makes up may point anywhere, also inside a character (`PointsInside`), where there is nothing to quote: this is
the only way in which an analysis has no outcome (`exists_calls_analyze`).
-/

namespace Lexing

/-- The error points into the source, but inside a character. -/
def ScanError.PointsInside (source : String) (error : ScanError) : Prop :=
  ∃ offset, error.offset? = some offset ∧ offset < source.utf8ByteSize ∧ ¬(⟨offset⟩ : String.Pos.Raw).IsValid source

namespace Sink

variable {σ : Type}

/-- A sink that writes down its calls, beside a session. -/
def observedBeside (accept : Sink (σ × Session)) : Sink ((σ × Calls) × Session) := fun ((state, calls), session) token =>
  let ((state, session), answer) := accept (state, session) token
  (((state, calls ++ [(token, answer)]), session), answer)

end Sink

/-- What an analysis leaves, with calls that were written down beside the state of the sink. -/
def Analyzed.withCalls {σ : Type} (calls : Calls) (analyzed : Analyzed σ) : Analyzed (σ × Calls) :=
  ⟨analyzed.analyzer, (analyzed.sink, calls), analyzed.session, analyzed.result⟩

namespace Analyzer

open Sink

variable {σ : Type} {limits : Limits}

/-! ## The counting sink -/

/-- What an analysis keeps, without the calls that were written down. -/
def withoutCalls (recorded : Recorded (σ × Calls)) : Recorded σ :=
  ⟨recorded.sink.1, recorded.session, recorded.metrics⟩

/-- The counting sink around an observed sink answers as the one around the sink itself. -/
theorem simulates_recording_observed (settings : AnalysisSettings) (accept : Sink (σ × Session)) :
    Simulates (recording limits settings accept) (recording limits settings accept.observedBeside) withoutCalls := by
  rintro ⟨⟨state, calls⟩, session, metrics⟩ token
  cases ha : accept (state, session) token with
  | mk after answer => cases answer <;> simp only [recording, observedBeside, withoutCalls, ha]

/-- The counting sink around an observed sink writes down its own calls. -/
theorem records_recording_observed (settings : AnalysisSettings) (accept : Sink (σ × Session)) :
    Records (recording limits settings accept.observedBeside) fun recorded => recorded.sink.2 := by
  rintro ⟨⟨state, calls⟩, session, metrics⟩ token
  cases ha : accept (state, session) token with
  | mk after answer => cases answer <;> simp only [recording, observedBeside, ha]

/-- The counting sink gives the answers of the sink inside it. -/
theorem snd_recording (settings : AnalysisSettings) (accept : Sink (σ × Session)) (recorded : Recorded σ)
    (token : Located Token) :
    (recording limits settings accept recorded token).2 = (accept (recorded.sink, recorded.session) token).2 := by
  obtain ⟨state, session, metrics⟩ := recorded
  cases ha : accept (state, session) token with
  | mk after answer => cases answer <;> simp only [recording, ha]

/-- A delivery into the counting sink around an observed sink is the one around the sink itself. It offers the sink the tokens
of the delivery, writes down the calls, and counts the tokens that were taken; so does whatever the sink itself counts. -/
theorem exists_into_recording (limits : Limits) (settings : AnalysisSettings) (accept : Sink (σ × Session))
    (delivery : Delivery) (state : σ) (session : Session) (characters : Nat) :
    ∃ last after calls outcome,
      delivery.into (recording limits settings accept) ⟨state, session, .start characters⟩ =
          ⟨⟨last, after, .ofTokens settings characters calls.taken⟩, outcome⟩ ∧
        delivery.into (recording limits settings accept.observedBeside) ⟨(state, []), session, .start characters⟩ =
          ⟨⟨(last, calls), after, .ofTokens settings characters calls.taken⟩, outcome⟩ ∧
        Offered delivery.result delivery.tokens calls outcome ∧
        (∀ call ∈ calls, ∃ before, (accept before call.1).2 = call.2) ∧
        ∀ {α : Type} (measure : σ → α) {add : α → Located Token → α},
          Accumulates accept (fun state => measure state.1) add → measure last = calls.taken.foldl add (measure state) := by
  have hsim : delivery.into (recording limits settings accept) ⟨state, session, .start characters⟩ = _ :=
    (simulates_recording_observed settings accept).into_eq ⟨(state, []), session, .start characters⟩ delivery
  have hsame : (recording limits settings accept).calls ⟨state, session, .start characters⟩ delivery.tokens = _ :=
    (simulates_recording_observed settings accept).calls_eq ⟨(state, []), session, .start characters⟩ delivery.tokens
  have hrecords : Records (recording limits settings accept.observedBeside) _ := records_recording_observed settings accept
  have hcalls := hrecords.offer_eq ⟨(state, []), session, .start characters⟩ delivery.tokens
  rw [List.nil_append, ← Delivery.sink_into, ← hsame] at hcalls
  have hoffered := (recording limits settings accept).offered_calls ⟨state, session, .start characters⟩ delivery
  have hcounts := (accumulates_metrics limits settings accept).offer_eq ⟨state, session, .start characters⟩ delivery.tokens
  rw [← Delivery.sink_into] at hcounts
  rcases hseen : delivery.into (recording limits settings accept.observedBeside) ⟨(state, []), session, .start characters⟩ with
    ⟨⟨⟨last, calls⟩, after, counts⟩, outcome⟩
  rw [hseen] at hsim hcalls
  replace hcalls : calls = (recording limits settings accept).calls ⟨state, session, .start characters⟩ delivery.tokens := hcalls
  rw [← hcalls, hsim] at hoffered hcounts
  obtain rfl : counts = .ofTokens settings characters calls.taken := hcounts
  refine ⟨last, after, calls, outcome, hsim, rfl, hoffered, ?_, ?_⟩
  · intro call hc
    rw [hcalls] at hc
    obtain ⟨recorded, hr⟩ := exists_of_mem_calls hc
    exact ⟨_, (snd_recording settings accept recorded call.1).symm.trans hr⟩
  · intro α measure add hadds
    have hlast := (accumulates_recording hadds limits settings).offer_eq ⟨state, session, .start characters⟩ delivery.tokens
    rw [← Delivery.sink_into, hsim, ← hcalls] at hlast
    exact hlast

/-! ## Quotes -/

variable {source : String}

/-- An error that does not point inside a character can be quoted. -/
theorem exists_errorExcerpt_eq_ok (h : source.utf8ByteSize < sizeBound) {error : ScanError}
    (he : ¬error.PointsInside source) : ∃ quoted, errorExcerpt source error = .ok quoted := by
  unfold errorExcerpt
  cases ho : error.offset? with
  | none => exact ⟨"", rfl⟩
  | some offset =>
    refine LineIndex.exists_excerpt_eq_ok ?_ h excerptLength
    by_cases hle : source.utf8ByteSize ≤ offset
    · exact Or.inl hle
    · refine Or.inr (by_contra fun hv => he ⟨offset, ho, by omega, hv⟩)

/-- An error that points inside a character cannot, as the slice up to there fails. -/
theorem errorExcerpt_eq_offBoundary {error : ScanError} (he : error.PointsInside source) :
    errorExcerpt source error = .error .offBoundary := by
  obtain ⟨offset, ho, hlt, hv⟩ := he
  simp only [errorExcerpt, ho, LineIndex.excerpt_eq_offBoundary hlt hv]

/-- An error of the scan itself points at the start of a piece, if it points anywhere. -/
theorem not_pointsInside_of_delivery {error : ScanError}
    (h : (Segmentation.delivery limits source).result = .error error) : ¬error.PointsInside source := by
  rintro ⟨offset, ho, -, hv⟩
  rw [Segmentation.delivery, Segmentation.deliver_eq] at h
  obtain ⟨j, hj⟩ : ∃ j, offset = String.utf8Len ((Segmentation.pieces source.toList).take j).flatten := by
    simp only [Segmentation.ending] at h
    split at h
    · rename_i j _
      split at h
      · cases h
        refine ⟨j, ?_⟩
        rw [ScanError.offset?, Option.some.injEq, Position.offset_start_behind] at ho
        exact ho.symm
      · cases h
        cases ho
    · split at h
      · cases h
      · cases h
        cases ho
  refine hv (Text.isValid_iff.2 ⟨_, ((Segmentation.pieces source.toList).drop j).flatten, ?_, hj⟩)
  rw [← List.flatten_append, List.take_append_drop, Segmentation.flatten_pieces]

/-! ## Outcomes -/

open Segmentation in
/-- An analysis offers its sink the tokens of the delivery. An observed sink sees these calls, and nothing else changes. When the
offering ends with an error that points inside a character the analysis has no outcome, and otherwise it ends as the offering. -/
theorem exists_calls_analyze (limits : Limits) (h : source.utf8ByteSize < sizeBound) (accept : Sink (σ × Session))
    (analyzer : Analyzer) (state : σ) (session : Session) :
    ∃ calls outcome, Offered (delivery limits source).result (delivery limits source).tokens calls outcome ∧
      (∀ call ∈ calls, ∃ before, (accept before call.1).2 = call.2) ∧
      analyzer.analyze limits accept.observedBeside source (state, []) session =
        (analyzer.analyze limits accept source state session).map (Analyzed.withCalls calls) ∧
      ((∃ error fault, outcome = .error error ∧ error.PointsInside source ∧
          analyzer.analyze limits accept source state session = .error fault) ∨
        ∃ analyzed, (∀ error, outcome = .error error → ¬error.PointsInside source) ∧
          analyzer.analyze limits accept source state session = .ok analyzed ∧ analyzed.result = outcome) := by
  unfold analyze
  simp only [Scanner.scan_eq h, bind, Except.bind]
  generalize session.trace limits "Starting lexical analysis" _ = opened
  obtain ⟨last, after, calls, outcome, hplain, hseen, hoffered, hanswers, -⟩ :=
    exists_into_recording limits analyzer.settings accept (delivery limits source) state opened source.length
  rw [hplain, hseen]
  refine ⟨calls, outcome, hoffered, hanswers, ?_⟩
  cases outcome with
  | error error =>
    by_cases he : error.PointsInside source
    · simp only [errorExcerpt_eq_offBoundary he]
      exact ⟨rfl, Or.inl ⟨error, .offBoundary, rfl, he, rfl⟩⟩
    · obtain ⟨quoted, hq⟩ := exists_errorExcerpt_eq_ok h he
      simp only [hq]
      refine ⟨rfl, Or.inr ⟨_, ?_, rfl, rfl⟩⟩
      intro error' he'
      cases he'
      exact he
  | ok count =>
    obtain ⟨significant, hsignificant⟩ := Metrics.exists_significant_ofTokens analyzer.settings source.length calls.taken
    simp only [hsignificant]
    refine ⟨rfl, Or.inr ⟨_, ?_, rfl, rfl⟩⟩
    intro error he
    cases he

/-- Below the bound an analysis returns, unless its sink refuses a token with an error that points inside a character. -/
theorem returns_or_points_inside (limits : Limits) (h : source.utf8ByteSize < sizeBound) (accept : Sink (σ × Session))
    (analyzer : Analyzer) (state : σ) (session : Session) :
    (∃ analyzed, analyzer.analyze limits accept source state session = .ok analyzed) ∨
      ∃ before token error, (accept before token).2 = some error ∧ error.PointsInside source := by
  obtain ⟨calls, outcome, hoffered, hanswers, -, ⟨error, fault, rfl, he, -⟩ | ⟨analyzed, -, hok, -⟩⟩ :=
    exists_calls_analyze limits h accept analyzer state session
  · rcases hoffered.outcome_eq with hresult | ⟨token, error', hm, herror⟩
    · exact absurd he (not_pointsInside_of_delivery hresult.symm)
    · cases herror
      obtain ⟨before, hanswer⟩ := hanswers _ hm
      exact Or.inr ⟨before, token, error, hanswer, he⟩
  · exact Or.inl ⟨analyzed, hok⟩

open Segmentation in
/-- An analysis that returns, of a text of any size, has offered its sink the tokens of the delivery, and leaves the counts of those
that the sink took, whatever was counted before. An observed sink sees the calls, and nothing else changes. -/
theorem exists_taken_of_analyze {accept : Sink (σ × Session)} {analyzer : Analyzer} {state : σ} {session : Session}
    {analyzed : Analyzed σ} (h : analyzer.analyze limits accept source state session = .ok analyzed) :
    ∃ calls, Offered (delivery limits source).result (delivery limits source).tokens calls analyzed.result ∧
      analyzer.analyze limits accept.observedBeside source (state, []) session = .ok (analyzed.withCalls calls) ∧
      analyzed.analyzer = ⟨analyzer.settings, .ofTokens analyzer.settings source.length calls.taken⟩ ∧
      ∀ {α : Type} (measure : σ → α) {add : α → Located Token → α},
        Accumulates accept (fun state => measure state.1) add → measure analyzed.sink = calls.taken.foldl add (measure state) := by
  unfold analyze at h ⊢
  simp only [bind, Except.bind] at h ⊢
  generalize session.trace limits "Starting lexical analysis" _ = opened at h ⊢
  obtain ⟨last, after, calls, outcome, -, hseen, hoffered, -, hadds⟩ :=
    exists_into_recording limits analyzer.settings accept (delivery limits source) state opened source.length
  have hsim : Scanner.scan limits (recording limits analyzer.settings accept) ⟨state, opened, .start source.length⟩ source = _ :=
    (simulates_recording_observed analyzer.settings accept).scan_eq limits ⟨(state, []), opened, .start source.length⟩ source
  rw [hsim] at h
  rcases hrun : Scanner.scan limits (recording limits analyzer.settings accept.observedBeside)
    ⟨(state, []), opened, .start source.length⟩ source with fault | scanned
  · rw [hrun] at h
    cases h
  · obtain rfl := (Scanner.eq_into_of_scan hrun).trans hseen
    rw [hrun] at h
    simp only [Except.map, withoutCalls] at h
    cases outcome with
    | error error =>
      cases hquoted : errorExcerpt source error with
      | error fault =>
        simp only [hquoted] at h
        cases h
      | ok quoted =>
        simp only [hquoted] at h ⊢
        cases h
        exact ⟨calls, hoffered, rfl, rfl, hadds⟩
    | ok count =>
      obtain ⟨significant, hsignificant⟩ := Metrics.exists_significant_ofTokens analyzer.settings source.length calls.taken
      simp only [hsignificant] at h ⊢
      cases h
      exact ⟨calls, hoffered, rfl, rfl, hadds⟩

end Analyzer

end Lexing
