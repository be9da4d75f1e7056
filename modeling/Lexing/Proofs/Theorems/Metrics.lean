import Lexing.Proofs.Lemmas.Metrics

/-!
# The counts of an analysis are those of its own tokens

An analyzer may have analysed any number of texts before. Whatever counts it still holds, an analysis that returns leaves the counts
of the text and of the tokens that the sink took this time (`analyze_counts`), whether it ends well or with an error, and wherever the
sink refused. So the counts that are kept side by side cannot fall apart: the tally agrees with them, the number that a successful
analysis returns is the total, and a listing writer has written as many lines as the counts say.
-/

namespace Lexing

open Metrics

/-- Let an analyzer with any settings and any counts from before analyse a text into any sink. When it returns, however long the text
is, its settings are what they were and its counts are those of the text and of the tokens that the sink took: the counts of each
sort of token, the longest token, which is no longer than it may be, and, if details are wanted, a tally that agrees with them. When
it returns a number, that is the number of tokens taken, and their lengths add up to the length of the text. A sink that is a listing
writer has written a line for each token counted, or for each that is not a blank run, as its settings say. Below the bound it does
return, unless the sink refuses a token with an error that points inside a character. -/
theorem analyze_counts (limits : Limits) (source : String) (analyzer : Analyzer) :
    (∀ (σ : Type) (accept : Sink (σ × Session)) (state : σ) (session : Session) (analyzed : Analyzed σ),
      analyzer.analyze limits accept source state session = .ok analyzed → ∃ calls,
        analyzer.analyze limits accept.observedBeside source (state, []) session = .ok (analyzed.withCalls calls) ∧
          analyzed.analyzer = ⟨analyzer.settings, .ofTokens analyzer.settings source.length calls.taken⟩ ∧
          CountsOf analyzer.settings source.length calls.taken analyzed.analyzer.metrics ∧
          analyzed.analyzer.metrics.longest ≤ limits.maxTokenLength ∧
          (analyzer.settings.detailed = true → Detailed analyzer.settings calls.taken analyzed.analyzer.metrics) ∧
          (analyzer.settings.detailed = false → analyzed.analyzer.metrics.tally = .empty) ∧
          ∀ count, analyzed.result = .ok count → count = analyzed.analyzer.metrics.total ∧
            (calls.taken.map fun token => token.value.length).sum = analyzed.analyzer.metrics.characters) ∧
      (∀ (ω : Type) [Medium ω] (writer : ListingWriter ω) (session : Session) (analyzed : Analyzed (ListingWriter ω)),
        analyzer.analyze limits (ListingWriter.accept limits) source writer session = .ok analyzed → ∃ significant,
          analyzed.analyzer.metrics.significant = .ok significant ∧
            analyzed.sink.written =
              writer.written + if writer.settings.blanks then analyzed.analyzer.metrics.total else significant) ∧
      (source.utf8ByteSize < sizeBound → ∀ (σ : Type) (accept : Sink (σ × Session)) (state : σ) (session : Session),
        (∃ analyzed, analyzer.analyze limits accept source state session = .ok analyzed) ∨
          ∃ before token error, (accept before token).2 = some error ∧ error.PointsInside source) := by
  refine ⟨?_, ?_, fun h σ accept state session => Analyzer.returns_or_points_inside limits h accept analyzer state session⟩
  · intro σ accept state session analyzed h
    obtain ⟨calls, hoffered, hobserved, hanalyzer, -⟩ := Analyzer.exists_taken_of_analyze h
    have hcounts := countsOf_ofTokens analyzer.settings source.length calls.taken
    refine ⟨calls, hobserved, hanalyzer, ?_⟩
    rw [hanalyzer]
    refine ⟨hcounts, hcounts.longest_le ?_, hcounts.detailed, hcounts.tally_eq_empty, ?_⟩
    · intro token ht
      have hmem := hoffered.taken_prefix.subset ht
      exact Segmentation.length_le_of_mem_delivery hmem
    · intro count hcount
      rw [hcount] at hoffered
      obtain ⟨htaken, hresult⟩ := hoffered.of_ok
      have hdelivery := Segmentation.delivery_eq_of_result hresult
      rw [hdelivery] at htaken hresult
      refine ⟨?_, ?_⟩
      · rw [hcounts.total_eq, htaken, Segmentation.length_tokensFrom]
        exact (Except.ok.inj hresult).symm
      · rw [hcounts.characters_eq, htaken, Segmentation.sum_length_tokensFrom, Segmentation.flatten_pieces, String.length_toList]
  · intro ω _ writer session analyzed h
    obtain ⟨calls, -, -, hanalyzer, hadds⟩ := Analyzer.exists_taken_of_analyze h
    have hcounts := countsOf_ofTokens analyzer.settings source.length calls.taken
    obtain ⟨significant, hsignificant, hshown⟩ := hcounts.countP_shows writer.settings
    have hwritten := hadds (fun writer => (writer.settings, writer.written)) (ListingWriter.accumulates_accept ω limits)
    rw [ListingWriter.foldl_shown, hshown] at hwritten
    rw [hanalyzer]
    exact ⟨significant, hsignificant, congrArg Prod.snd hwritten⟩

/-- A sink that refuses the tokens of one kind. -/
def Sink.refusing (kind : Kind) : Sink (Unit × Session) := fun state token =>
  (state, if token.value.kind = kind then some (.sinkFailed "unwanted") else none)

/-- An analyzer still holds the counts of an earlier text. A sink that refuses numbers takes a letter and a blank run of the next
one, and these are what is counted then. A writer of all lines takes the number too, and has written three. -/
theorem analyze_counts_refused : "a 1".utf8ByteSize < sizeBound ∧ ∃ analyzer : Analyzer, analyzer.metrics.total = 7 ∧
    (∃ analyzed calls, analyzer.analyze .development (Sink.refusing .integer) "a 1" () (.fresh .builtIn "") = .ok analyzed ∧
      analyzed.analyzer.metrics = .ofTokens analyzer.settings 3 (Calls.taken calls) ∧ (Calls.taken calls).length = 2 ∧
      analyzed.analyzer.metrics.tally.get .blank = 0) ∧
    ∃ analyzed, analyzer.analyze .development (ListingWriter.accept .development) "a 1"
        (.ofOutlet .unlimited ⟨.plain, true, false, false⟩) (.fresh .builtIn "") = .ok analyzed ∧ analyzed.sink.written = 3 := by
  let analyzer : Analyzer := ⟨.builtIn, ⟨7, 3, 0, 4, 2, 9, ⟨[(.integer, 4)], 4⟩⟩⟩
  have h : "a 1".utf8ByteSize < sizeBound := by decide
  obtain ⟨hsink, hwriter, hreturns⟩ := analyze_counts .development "a 1" analyzer
  refine ⟨h, analyzer, rfl, ?_, ?_⟩
  · rcases hreturns h Unit (Sink.refusing .integer) () (.fresh .builtIn "") with
      ⟨analyzed, hrun⟩ | ⟨before, token, error, hanswer, offset, ho, -⟩
    · obtain ⟨calls, -, hanalyzer, hcounts, -, hdetailed, -⟩ := hsink Unit _ _ _ analyzed hrun
      have htwo : (analyzer.analyze .development (Sink.refusing .integer) "a 1" () (.fresh .builtIn "")).map
          (fun analyzed => analyzed.analyzer.metrics.total) = .ok 2 := rfl
      rw [hrun] at htwo
      refine ⟨analyzed, calls, hrun, by rw [hanalyzer]; rfl, ?_, (hdetailed rfl).get_eq .blank⟩
      exact hcounts.total_eq.symm.trans (Except.ok.inj htwo)
    · -- The sink's only error points nowhere.
      simp only [Sink.refusing] at hanswer
      split at hanswer
      · cases hanswer
        cases ho
      · cases hanswer
  · have hthree : (do
        let analyzed ← analyzer.analyze .development (ListingWriter.accept .development) "a 1"
          (.ofOutlet .unlimited ⟨.plain, true, false, false⟩) (.fresh .builtIn "")
        return analyzed.analyzer.metrics.total) = Except.ok 3 := rfl
    obtain ⟨analyzed, hrun, htotal⟩ := exists_of_bind_eq_ok hthree
    obtain ⟨significant, -, hwritten⟩ := hwriter Outlet _ _ analyzed hrun
    exact ⟨analyzed, hrun, hwritten.trans ((Nat.zero_add _).trans (Except.ok.inj htotal))⟩

end Lexing
