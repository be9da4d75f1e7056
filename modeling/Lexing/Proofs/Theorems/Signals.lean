import Lexing.Proofs.Lemmas.Signals

/-!
# Signal tokens are reported when they are taken

An analysis that is to report signal tokens sends one warning for each of them that its sink takes, right behind the call
(`analyze_reports_signals`). Nothing is sent for a token that the sink refuses, and nothing when reports are not wanted. The
sink may send events too, also such warnings; what it sends stays apart from the reports.
-/

namespace Lexing

namespace Analyzer

variable {σ : Type} {limits : Limits} {source : String} {analyzer : Analyzer} {accept : Sink (σ × Session)} {state : σ}
  {session : Session}

/-- What an analysis that returns has sent is told by the exchanges with its sink. -/
theorem exists_accounts_of_analyze (hkeeps : accept.KeepsLog) (hs : session.service.isSome) {analyzed : Analyzed σ}
    (h : analyzer.analyze limits accept source state session = .ok analyzed) :
    ∃ exchanges events,
      analyzer.analyze limits accept.observedBeside source (state, []) session =
          .ok (analyzed.withCalls (exchanges.map Exchange.call)) ∧
        session.Sends events analyzed.session ∧ Accounts limits analyzer.settings accept exchanges events := by
  obtain ⟨calls, -, hobserved, -, -⟩ := exists_taken_of_analyze h
  obtain ⟨message, facts, scanned, hscan, closing, hclosing, hquiet⟩ := exists_scan_of_analyze hobserved
  obtain ⟨opening, hopening, hremark⟩ := Session.exists_sends_trace limits hs message facts
  -- The scan into the counting sink around the observed sink is a row of exchanges.
  have hfollowed := followed_into limits analyzer.settings hkeeps state hopening.ready (.start source.length)
    (Segmentation.delivery limits source)
  rw [← Scanner.eq_into_of_scan hscan] at hfollowed
  obtain ⟨exchanges, hcalls, hfits, hexchanged⟩ := hfollowed
  obtain rfl : calls = exchanges.map Exchange.call := hcalls
  obtain ⟨event, hevent, hnews⟩ := hquiet scanned.settings.fileContext scanned.context
  have hclosed : scanned.Sends [event] analyzed.session := by
    have happlied : analyzed.session = closing.apply limits scanned := hclosing
    rw [happlied]
    exact Session.sends_apply hexchanged.ready closing hevent
  exact ⟨exchanges, _, hobserved, (hopening.trans hexchanged).trans hclosed,
    Exchange.accounts_of_fits hfits hremark (List.forall_mem_singleton.2 hnews)⟩

/-- So is what the counting scan has sent, also when the analysis has nothing to quote afterwards. -/
theorem exists_accounts_of_scan (limits : Limits) (h : source.utf8ByteSize < sizeBound) (settings : AnalysisSettings)
    (hkeeps : accept.KeepsLog) (state : σ) (hs : session.service.isSome) (metrics : Metrics) :
    ∃ outcome exchanges events,
      Scanner.scan limits (recording limits settings accept) ⟨state, session, metrics⟩ source = .ok outcome ∧
        session.Sends events outcome.sink.session ∧ Accounts limits settings accept exchanges events := by
  obtain ⟨exchanges, -, hfits, hexchanged⟩ :=
    followed_into limits settings hkeeps state hs metrics (Segmentation.delivery limits source)
  have hsim : (Segmentation.delivery limits source).into (recording limits settings accept) ⟨state, session, metrics⟩ = _ :=
    (simulates_recording_observed settings accept).into_eq ⟨(state, []), session, metrics⟩ _
  have hnone : ∀ event ∈ ([] : List Event), event.isWarning = false := fun _ he => absurd he List.not_mem_nil
  have haccounts := Exchange.accounts_of_fits hfits hnone hnone
  rw [List.nil_append, List.append_nil] at haccounts
  refine ⟨_, exchanges, _, Scanner.scan_eq h _ _, ?_, haccounts⟩
  rw [hsim]
  exact hexchanged

end Analyzer

open Analyzer

/-- Let an analyzer analyse a text into any sink that keeps the log, in a session with a service. When it returns, however long
the text is, the events that were sent are those of the exchanges with the sink, which an observed sink sees as its calls: the
reports among them answer one to one and in order to the signal tokens that the sink took, or there are none, as the settings
say. Their number is counted. Below the bound it does return, unless the sink refuses a token with an error that points inside a
character; and what the counting scan sends is of this kind in any case. -/
theorem analyze_reports_signals (limits : Limits) (source : String) (analyzer : Analyzer) {σ : Type} {accept : Sink (σ × Session)}
    (hkeeps : accept.KeepsLog) (state : σ) {session : Session} (hs : session.service.isSome) :
    (∀ analyzed, analyzer.analyze limits accept source state session = .ok analyzed → ∃ exchanges events,
      analyzer.analyze limits accept.observedBeside source (state, []) session =
          .ok (analyzed.withCalls (exchanges.map Exchange.call)) ∧
        session.Sends events analyzed.session ∧ Accounts limits analyzer.settings accept exchanges events ∧
        (analyzer.settings.reportSignals = true →
          (exchanges.filterMap Exchange.report).length = analyzed.analyzer.metrics.signals)) ∧
    (source.utf8ByteSize < sizeBound →
      ((∃ analyzed, analyzer.analyze limits accept source state session = .ok analyzed) ∨
        ∃ before token error, (accept before token).2 = some error ∧ error.PointsInside source) ∧
      ∃ outcome exchanges events, Scanner.scan limits (recording limits analyzer.settings accept)
          ⟨state, session, .start source.length⟩ source = .ok outcome ∧
        session.Sends events outcome.sink.session ∧ Accounts limits analyzer.settings accept exchanges events) := by
  refine ⟨?_, fun h => ⟨returns_or_points_inside limits h accept analyzer state session, ?_⟩⟩
  · intro analyzed hanalyze
    obtain ⟨exchanges, events, hobserved, hsends, haccounts⟩ := exists_accounts_of_analyze hkeeps hs hanalyze
    refine ⟨exchanges, events, hobserved, hsends, haccounts, ?_⟩
    intro hon
    -- The calls are those whose tokens were counted.
    obtain ⟨calls, -, hcalls, hanalyzer, -⟩ := exists_taken_of_analyze hanalyze
    have hsame : calls = exchanges.map Exchange.call :=
      congrArg (fun analyzed => analyzed.sink.2) (Except.ok.inj (hcalls.symm.trans hobserved))
    rw [hanalyzer, (Metrics.countsOf_ofTokens _ _ _).signals_eq, List.countP_eq_length_filter, hsame]
    exact (haccounts.reports hon).length_eq.symm
  · exact exists_accounts_of_scan limits h analyzer.settings hkeeps state hs (.start source.length)

/-- A writer whose outlet has room for one line takes the first of two malformed words and refuses the second. Only the first is
reported. -/
theorem analyze_reports_signals_written :
    let session := { Session.fresh .builtIn "" with service := some ⟨.warning, none, []⟩ }
    let writer := ListingWriter.ofOutlet (⟨ByteArray.empty, some 40, false, false⟩ : Outlet) ⟨.plain, false, false, false⟩
    let analyzer : Analyzer := ⟨⟨false, false, true⟩, .start 0⟩
    (ListingWriter.accept .development : Sink (ListingWriter Outlet × Session)).KeepsLog ∧ session.service.isSome ∧
      ∃ analyzed token event,
        analyzer.analyze .development (ListingWriter.accept .development) "1a 2b" writer session = .ok analyzed ∧
        analyzed.result = .error (.sinkFailed "closed") ∧ analyzed.analyzer.metrics.signals = 1 ∧
        Event.signalWarnings analyzed.session.sent.toList = [event] ∧ Event.IsReport .development token event ∧
        token.value.kind ∈ [Kind.invalid, .inclusion] := by
  intro session writer analyzer
  have hquiet := ListingWriter.quiet_accept Outlet .development
  have hone : (do
      let analyzed ← analyzer.analyze .development (ListingWriter.accept .development) "1a 2b" writer session
      return (analyzed.result, analyzed.analyzer.metrics.signals)) = Except.ok (.error (.sinkFailed "closed"), 1) := rfl
  obtain ⟨analyzed, hrun, hends⟩ := exists_of_bind_eq_ok hone
  obtain ⟨hresult, hsignals⟩ := Prod.mk.inj (Except.ok.inj hends)
  obtain ⟨exchanges, events, -, hsends, haccounts, hnumber⟩ :=
    (analyze_reports_signals .development "1a 2b" analyzer hquiet.keepsLog writer rfl).1 analyzed hrun
  obtain ⟨event, hevent⟩ := List.length_eq_one_iff.1 ((hnumber rfl).trans hsignals)
  have hreports := haccounts.reports rfl
  rw [hevent] at hreports
  obtain ⟨token, hreport, htoken⟩ : ∃ token, Event.IsReport .development token event ∧
      token ∈ Calls.signals (exchanges.map Exchange.call) := by
    generalize Calls.signals (exchanges.map Exchange.call) = tokens at hreports ⊢
    cases hreports with
    | cons hreport _ => exact ⟨_, hreport, List.mem_cons_self⟩
  refine ⟨hquiet.keepsLog, rfl, analyzed, token, event, hrun, hresult, hsignals, ?_, hreport, ?_⟩
  · have hsent : analyzed.session.sent.toList = events := hsends.sent
    rw [hsent, haccounts.silent hquiet.silent, hevent]
  · exact of_decide_eq_true (List.mem_filter.1 htoken).2

end Lexing
