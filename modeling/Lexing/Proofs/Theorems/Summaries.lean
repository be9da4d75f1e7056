import Lexing.Proofs.Lemmas.Summaries
import Lexing.Proofs.Theorems.Metrics

/-!
# Summaries agree with the run

What a summary shows comes from three counts that are kept apart: the tally by kind, the numbers of all tokens and of the blank runs
among them, and the number of signals. `analyze_summary_agrees` says that its table adds up all the same, wherever the run ended, and
that it adds up to the tokens that were taken.
-/

namespace Lexing

/-- Let an analyzer that is to count in detail analyse a text into any sink. When it returns, with a number or an error, the counts that
it leaves have a summary, which gives back a table and holds nothing else, and the table agrees with the tokens that the sink took:
there is a row for each kind with a count, in the order of listings and no kind twice, the rows other than that of blank runs add up to
the total, which is the number of tokens taken that are not blank runs, blank runs have a row exactly when they are counted and one was
taken, and signals exactly when one was taken, with the sum of their two rows. Below the bound it does return, unless the sink refuses a
token with an error that points inside a character. -/
theorem analyze_summary_agrees (limits : Limits) (source : String) (analyzer : Analyzer) (hd : analyzer.settings.detailed = true) :
    (∀ (σ : Type) (accept : Sink (σ × Session)) (state : σ) (session : Session) (analyzed : Analyzed σ),
      analyzer.analyze limits accept source state session = .ok analyzed → ∃ calls,
        analyzer.analyze limits accept.observedBeside source (state, []) session = .ok (analyzed.withCalls calls) ∧
          ∃ text table, Listing.summary analyzed.analyzer.metrics = .ok text ∧ Listing.readSummary? text = some table ∧
            table.Agrees analyzer.settings calls.taken analyzed.analyzer.metrics) ∧
      (source.utf8ByteSize < sizeBound → ∀ (σ : Type) (accept : Sink (σ × Session)) (state : σ) (session : Session),
        (∃ analyzed, analyzer.analyze limits accept source state session = .ok analyzed) ∨
          ∃ before token error, (accept before token).2 = some error ∧ error.PointsInside source) := by
  refine ⟨?_, fun h σ accept state session => Analyzer.returns_or_points_inside limits h accept analyzer state session⟩
  intro σ accept state session analyzed h
  obtain ⟨calls, -, hobserved, hanalyzer, -⟩ := Analyzer.exists_taken_of_analyze h
  have hcounts := Metrics.countsOf_ofTokens analyzer.settings source.length calls.taken
  have hsignificant := hcounts.significant_eq
  obtain ⟨text, htext, hread⟩ := Listing.readSummary?_summary hsignificant
  refine ⟨calls, hobserved, ?_⟩
  rw [hanalyzer]
  exact ⟨text, _, htext, hread, Listing.Table.agrees_ofMetrics hcounts hd hsignificant⟩

/-- A sink that refuses numbers ends the run at the last token. The table counts the four tokens in front of it: both signals, and the
two blank runs, which are no part of the total. -/
theorem analyze_summary_agrees_refused : ∃ analyzer : Analyzer, analyzer.settings.detailed = true ∧ ∃ analyzed calls table,
    analyzer.analyze .development (Sink.refusing .integer) "#include 9a 1" () (.fresh .builtIn "") = .ok analyzed ∧
      Listing.summary analyzed.analyzer.metrics = .ok
        ("Token summary:\n  Whitespace           2\n  Invalid Identifier   1\n  Include Directive    1\n" ++
          "  Total                2\n  Error signals        2\n") ∧
      table = ⟨[(.blank, 2), (.invalid, 1), (.inclusion, 1)], 2, some 2⟩ ∧
      Listing.Table.Agrees analyzer.settings (Calls.taken calls) analyzed.analyzer.metrics table := by
  let analyzer := Analyzer.withSettings ⟨true, true, false⟩
  let metrics : Metrics := ⟨4, 2, 2, 0, 8, 13, ⟨[(.blank, 2), (.invalid, 1), (.inclusion, 1)], 4⟩⟩
  have hmetrics : (do
      let analyzed ← analyzer.analyze .development (Sink.refusing .integer) "#include 9a 1" () (.fresh .builtIn "")
      return analyzed.analyzer.metrics) = Except.ok metrics := rfl
  obtain ⟨analyzed, hrun, hm⟩ := exists_of_bind_eq_ok hmetrics
  have hm : analyzed.analyzer.metrics = metrics := Except.ok.inj hm
  obtain ⟨calls, -, text, table, htext, hread, hagrees⟩ :=
    (analyze_summary_agrees .development "#include 9a 1" analyzer rfl).1 Unit _ _ _ analyzed hrun
  -- The summary is that of these counts, and so is the table read from it.
  have hsignificant : metrics.significant = .ok 2 := rfl
  obtain ⟨text', htext', hread'⟩ := Listing.readSummary?_summary hsignificant
  rw [hm, htext', Except.ok.injEq] at htext
  rw [← htext, hread', Option.some.injEq] at hread
  exact ⟨analyzer, rfl, analyzed, calls, table, hrun, by rw [hm]; decide +kernel, hread.symm.trans (by decide), hagrees⟩

end Lexing
