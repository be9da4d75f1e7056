import Lexing.Proofs.Lemmas.Analysis
import Lexing.Proofs.Lemmas.Listing
import Lexing.Proofs.Lemmas.Logging
import Lexing.Proofs.Lemmas.Metrics

/-!
# Reports on signal tokens

An analysis hands a token to its sink first. Only when the sink has taken it, and it is a signal token, a warning is sent about
it, if such reports are wanted. The sink may log itself, so the events of a run come in exchanges, one for each call: what the
sink sent, and then the report, if there is one. One call is one exchange (`exists_exchange`), and a run of calls is a row of
them (`followed_into`). What an analysis sends in front of the calls and behind them are no warnings (`exists_scan_of_analyze`).

So the warnings under the code of signal tokens are told by the exchanges alone (`Accounts`).
-/

namespace Lexing

/-! ## Events sent -/

/-- Between two states of a session these events were sent, and a service is still there. -/
structure Session.Sends (events : List Event) (before after : Session) : Prop where
  ready : after.service.isSome
  sent : after.sent.toList = before.sent.toList ++ events

namespace Session

variable {limits : Limits} {session before between after : Session} {events more : List Event}

theorem sends_nil (hs : session.service.isSome) : Sends [] session session := ⟨hs, (List.append_nil _).symm⟩

theorem Sends.trans (h : Sends events before between) (hmore : Sends more between after) : Sends (events ++ more) before after :=
  ⟨hmore.ready, by rw [hmore.sent, h.sent, List.append_assoc]⟩

/-- Between two states of a session the same events were sent, however they are told. -/
theorem Sends.unique (h : Sends events before after) (hmore : Sends more before after) : events = more :=
  List.append_cancel_left (h.sent.symm.trans hmore.sent)

/-- A call that makes an event sends it. -/
theorem sends_apply (hs : session.service.isSome) (call : LogCall) {event : Event}
    (h : call.event? limits session.settings.fileContext session.context = some event) :
    Sends [event] session (call.apply limits session) := by
  obtain ⟨errors, happly⟩ := LogCall.exists_apply_eq hs h
  rw [happly]
  exact ⟨hs, Array.toList_push⟩

/-- A remark that is wanted or not is no warning. -/
theorem exists_sends_trace (limits : Limits) (hs : session.service.isSome) (message : String) (facts : List (String × String)) :
    ∃ events, Sends events session (session.trace limits message facts) ∧ ∀ event ∈ events, event.isWarning = false := by
  unfold trace
  split
  · refine ⟨_, sends_apply hs (.debug message facts) rfl, ?_⟩
    intro event he
    rw [List.mem_singleton.1 he]
    rfl
  · exact ⟨[], sends_nil hs, nofun⟩

end Session

namespace Event

/-- The warnings under the code of signal tokens among some events. -/
def signalWarnings (events : List Event) : List Event :=
  events.filter fun event => event.isWarning && event.code = Code.signalToken

theorem signalWarnings_append (events more : List Event) :
    signalWarnings (events ++ more) = signalWarnings events ++ signalWarnings more := List.filter_append ..

theorem signalWarnings_eq_nil {events : List Event} (h : ∀ event ∈ events, event.isWarning = false) :
    signalWarnings events = [] := by
  refine List.filter_eq_nil_iff.2 ?_
  intro event he
  simp [h event he]

/-- A fact of another name than those of the file is found as it was told. -/
theorem get?_factsOf_other {key : String} (hfile : compare key "file" ≠ .eq) (hid : compare key "file_id" ≠ .eq) (named : Bool)
    (context : Option FileContext) (facts : List (String × String)) :
    Assoc.get? compare key (factsOf named context facts) = Assoc.get? compare key (tell [] facts) := by
  have hfacts : factsOf named context facts = tell (tell [] facts) (fileFacts named context) := List.foldl_append
  rw [hfacts]
  match named, context with
  | true, some file => exact (Assoc.get?_insert_other hid _ _).trans (Assoc.get?_insert_other hfile _ _)
  | true, none | false, _ => rfl

/-- The report on a token: a warning that names the kind of the token, gives its place, and has its text as a fact. -/
structure IsReport (limits : Limits) (token : Located Token) (event : Event) : Prop where
  level_eq : event.level = .warning
  code_eq : event.code = Code.signalToken
  span_eq : event.span = some token.span
  text_eq : Assoc.get? compare "text" event.context = some token.value.text
  message_eq : event.message = clampMessage limits.maxMessageLength (token.value.kind.name ++ " token")
  message_whole : 24 ≤ limits.maxMessageLength → event.message = token.value.kind.name ++ " token"

/-- No kind has a name of more than eighteen bytes. -/
theorem utf8ByteSize_name_token_le (kind : Kind) : (kind.name ++ " token").utf8ByteSize ≤ 24 := by cases kind <;> decide

/-- The warning that an analysis logs about a token is the report on it. -/
theorem isReport_of_event? {limits : Limits} {token : Located Token} {event : Event} {named : Bool} {context : Option FileContext}
    (h : (LogCall.warning (some Code.signalToken) s!"{token.value.kind.name} token" (some token.span)
      [("text", token.value.text)]).event? limits named context = some event) : IsReport limits token event := by
  obtain rfl := Option.some.inj h
  refine ⟨rfl, rfl, rfl, ?_, rfl, ?_⟩
  · rw [get?_factsOf_other (by decide) (by decide)]
    exact Assoc.get?_insert_self List.Pairwise.nil "text" token.value.text
  · exact fun hroom => if_pos ((utf8ByteSize_name_token_le token.value.kind).trans hroom)

/-- A report is one of the warnings under its code. -/
theorem IsReport.signalWarnings_eq {limits : Limits} {token : Located Token} {event : Event} (h : IsReport limits token event) :
    signalWarnings [event] = [event] := by
  refine List.filter_eq_self.2 ?_
  intro other hother
  rw [List.mem_singleton.1 hother, isWarning, h.level_eq, h.code_eq]
  decide

end Event

/-! ## Exchanges -/

namespace Sink

variable {σ : Type}

/-- The sink may send events, but takes none back and leaves a service where there is one. -/
def KeepsLog (accept : Sink (σ × Session)) : Prop :=
  ∀ state (session : Session) token, session.service.isSome → ∃ events, session.Sends events (accept (state, session) token).1.2

/-- The sink sends no warnings under the code of signal tokens itself. -/
def Silent (accept : Sink (σ × Session)) : Prop :=
  ∀ state (session : Session) token events, session.service.isSome →
    session.Sends events (accept (state, session) token).1.2 → Event.signalWarnings events = []

/-- The sink sends no warnings at all, and takes nothing back. -/
def Quiet (accept : Sink (σ × Session)) : Prop :=
  ∀ state (session : Session) token, session.service.isSome →
    ∃ events, session.Sends events (accept (state, session) token).1.2 ∧ ∀ event ∈ events, event.isWarning = false

theorem Quiet.keepsLog {accept : Sink (σ × Session)} (h : accept.Quiet) : accept.KeepsLog := fun state _ token hs =>
  let ⟨events, hsends, _⟩ := h state _ token hs
  ⟨events, hsends⟩

theorem Quiet.silent {accept : Sink (σ × Session)} (h : accept.Quiet) : accept.Silent := by
  intro state session token events hs hsends
  obtain ⟨quiet, hquiet, hnone⟩ := h state session token hs
  rw [hsends.unique hquiet]
  exact Event.signalWarnings_eq_nil hnone

/-- What every call keeps is kept by an offering. -/
theorem offer_invariant {accept : Sink σ} {P : σ → Prop} (hstep : ∀ state token, P state → P (accept state token).1) {state : σ}
    (h : P state) (tokens : List (Located Token)) : P (accept.offer state tokens).1 := by
  induction tokens generalizing state with
  | nil => exact h
  | cons token rest ih =>
    have hafter := hstep state token h
    rcases ha : accept state token with ⟨after, _ | error⟩
    · rw [ha] at hafter
      rw [offer_of_taken ha]
      exact ih hafter
    · rw [ha] at hafter
      rw [offer_of_refused ha]
      exact hafter

end Sink

/-- A writer sends nothing but errors. -/
theorem ListingWriter.quiet_accept (ω : Type) [Medium ω] (limits : Limits) :
    Sink.Quiet (accept limits : Sink (ListingWriter ω × Session)) := by
  rintro ⟨outlet, settings, written⟩ session token hs
  by_cases hshows : Listing.shows settings token
  · rcases hwrite : Medium.write outlet (Listing.line settings token).toUTF8 with ⟨next, _ | reason⟩
    · rw [accept_of_written limits hshows hwrite]
      exact ⟨[], Session.sends_nil hs, nofun⟩
    · rw [accept_of_unwritten limits hshows hwrite]
      refine ⟨_, Session.sends_apply hs (.error Code.writeFailed _ _ _) rfl, ?_⟩
      intro event he
      rw [List.mem_singleton.1 he]
      rfl
  · rw [accept_of_hidden limits hshows]
    exact ⟨[], Session.sends_nil hs, nofun⟩

/-- One call of a sink in an analysis: the token and the answer, the events that the sink sent, and the report behind it, if
there is one. -/
structure Exchange where
  token : Located Token
  answer : Option ScanError
  own : List Event
  report : Option Event

namespace Exchange

variable {σ : Type}

/-- The call of an exchange. -/
def call (exchange : Exchange) : Located Token × Option ScanError := (exchange.token, exchange.answer)

/-- The events of an exchange. -/
def events (exchange : Exchange) : List Event := exchange.own ++ exchange.report.toList

/-- What an exchange is in an analysis: the sink gave the answer and sent its own events, and a report follows when reports are
wanted and the sink took a signal token. -/
structure Fits (limits : Limits) (settings : AnalysisSettings) (accept : Sink (σ × Session)) (exchange : Exchange) : Prop where
  answered : ∃ state session, session.service.isSome ∧ (accept (state, session) exchange.token).2 = exchange.answer ∧
    session.Sends exchange.own (accept (state, session) exchange.token).1.2
  reported_iff : exchange.report.isSome ↔
    settings.reportSignals = true ∧ exchange.answer = none ∧ exchange.token.value.kind ∈ [Kind.invalid, .inclusion]
  isReport : ∀ event ∈ exchange.report, Event.IsReport limits exchange.token event

end Exchange

namespace Analyzer

open Sink

variable {σ : Type} {limits : Limits} {settings : AnalysisSettings} {accept : Sink (σ × Session)}

/-- Behind a token that was taken its report is sent, if reports are wanted and the token is a signal; else nothing is. -/
theorem exists_report (limits : Limits) (settings : AnalysisSettings) {session : Session} (hs : session.service.isSome)
    (token : Located Token) :
    ∃ report : Option Event, (report.isSome ↔ settings.reportSignals = true ∧ token.value.kind ∈ [Kind.invalid, .inclusion]) ∧
      (∀ event ∈ report, Event.IsReport limits token event) ∧
      session.Sends report.toList
        (if settings.reportSignals && token.value.kind.isSignal then
          session.logWarning limits (some Code.signalToken) s!"{token.value.kind.name} token" (some token.span)
            [("text", token.value.text)]
        else session) := by
  obtain ⟨event, hevent⟩ : ∃ event, (LogCall.warning (some Code.signalToken) s!"{token.value.kind.name} token" (some token.span)
      [("text", token.value.text)]).event? limits session.settings.fileContext session.context = some event := ⟨_, rfl⟩
  have hsignal : token.value.kind.isSignal = true ↔ token.value.kind ∈ [Kind.invalid, .inclusion] := by
    rw [Kind.isSignal_eq, decide_eq_true_eq]
  rw [← hsignal, ← Bool.and_eq_true]
  cases settings.reportSignals && token.value.kind.isSignal with
  | true =>
    refine ⟨some event, by simp, ?_, Session.sends_apply hs _ hevent⟩
    rintro _ ⟨⟩
    exact Event.isReport_of_event? hevent
  | false => exact ⟨none, by simp, nofun, Session.sends_nil hs⟩

/-- A call of the counting sink is one exchange. -/
theorem exists_exchange (limits : Limits) (settings : AnalysisSettings) (hkeeps : accept.KeepsLog) (state : σ) {session : Session}
    (hs : session.service.isSome) (metrics : Metrics) (token : Located Token) :
    ∃ exchange : Exchange, exchange.Fits limits settings accept ∧
      exchange.call = (token, (recording limits settings accept ⟨state, session, metrics⟩ token).2) ∧
      session.Sends exchange.events (recording limits settings accept ⟨state, session, metrics⟩ token).1.session := by
  obtain ⟨own, hown⟩ := hkeeps state session token hs
  have hanswered : ∃ before session', session'.service.isSome ∧
      (accept (before, session') token).2 = (accept (state, session) token).2 ∧
      session'.Sends own (accept (before, session') token).1.2 := ⟨state, session, hs, rfl, hown⟩
  rcases ha : accept (state, session) token with ⟨⟨after, behind⟩, _ | error⟩
  · rw [ha] at hown hanswered
    obtain ⟨report, hiff, his, hsent⟩ := exists_report limits settings hown.ready token
    refine ⟨⟨token, none, own, report⟩, ⟨hanswered, by simpa using hiff, his⟩, ?_, ?_⟩
    · simp only [Exchange.call, recording, ha]
    · simp only [recording, ha]
      exact hown.trans hsent
  · rw [ha] at hown hanswered
    refine ⟨⟨token, some error, own, none⟩, ⟨hanswered, by simp, fun _ he => by cases he⟩, ?_, ?_⟩
    · simp only [Exchange.call, recording, ha]
    · simp only [recording, ha]
      exact hown.trans (Session.sends_nil hown.ready)

/-- The calls that were written down are those of some exchanges, and what was sent since a start are their events. -/
def Followed (limits : Limits) (settings : AnalysisSettings) (accept : Sink (σ × Session)) (start : Session)
    (recorded : Recorded (σ × Calls)) : Prop :=
  ∃ exchanges : List Exchange, recorded.sink.2 = exchanges.map Exchange.call ∧
    (∀ exchange ∈ exchanges, exchange.Fits limits settings accept) ∧
    start.Sends (exchanges.flatMap Exchange.events) recorded.session

variable {start : Session}

/-- In front of the first call there is no exchange. -/
theorem followed_start (hs : start.service.isSome) (state : σ) (metrics : Metrics) :
    Followed limits settings accept start ⟨(state, []), start, metrics⟩ :=
  ⟨[], rfl, fun _ h => absurd h List.not_mem_nil, Session.sends_nil hs⟩

/-- One more call is one more exchange. -/
theorem Followed.next (hkeeps : accept.KeepsLog) {recorded : Recorded (σ × Calls)}
    (h : Followed limits settings accept start recorded) (token : Located Token) :
    Followed limits settings accept start (recording limits settings accept.observedBeside recorded token).1 := by
  obtain ⟨⟨state, calls⟩, session, metrics⟩ := recorded
  obtain ⟨exchanges, hcalls, hfits, hsends⟩ := h
  obtain ⟨exchange, hfit, hcall, hsent⟩ := exists_exchange limits settings hkeeps state hsends.ready metrics token
  have hsim : recording limits settings accept ⟨state, session, metrics⟩ token = _ :=
    simulates_recording_observed settings accept ⟨(state, calls), session, metrics⟩ token
  have hrecords : Records (recording limits settings accept.observedBeside) _ := records_recording_observed settings accept
  have hwritten := hrecords ⟨(state, calls), session, metrics⟩ token
  have hlast : exchange.call =
      (token, (recording limits settings accept.observedBeside ⟨(state, calls), session, metrics⟩ token).2) := by
    rw [hcall]
    exact congrArg (fun answered => (token, answered.2)) hsim
  have hlog : session.Sends exchange.events
      (recording limits settings accept.observedBeside ⟨(state, calls), session, metrics⟩ token).1.session := by
    have hsame := congrArg (fun answered => answered.1.session) hsim
    exact hsame ▸ hsent
  refine ⟨exchanges ++ [exchange], ?_, ?_, ?_⟩
  · rw [hwritten, ← hlast, hcalls, List.map_append, List.map_singleton]
  · intro other hother
    rcases List.mem_append.1 hother with hother | hother
    · exact hfits other hother
    · rw [List.mem_singleton.1 hother]
      exact hfit
  · rw [List.flatMap_append, List.flatMap_singleton]
    exact hsends.trans hlog

/-- A delivery into the counting sink is a row of exchanges. -/
theorem followed_into (limits : Limits) (settings : AnalysisSettings) (hkeeps : accept.KeepsLog) (state : σ)
    (hs : start.service.isSome) (metrics : Metrics) (delivery : Delivery) :
    Followed limits settings accept start
      (delivery.into (recording limits settings accept.observedBeside) ⟨(state, []), start, metrics⟩).sink := by
  rw [Delivery.sink_into]
  exact offer_invariant (fun _ token h => h.next hkeeps token) (followed_start hs state metrics) delivery.tokens

/-! ## Before and behind the calls -/

/-- An analysis that returns is a remark, the scan into the counting sink, and the news of its end. -/
theorem exists_scan_of_analyze {source : String} {analyzer : Analyzer} {state : σ} {session : Session} {analyzed : Analyzed σ}
    (h : analyzer.analyze limits accept source state session = .ok analyzed) :
    ∃ message facts scanned, Scanner.scan limits (recording limits analyzer.settings accept)
        ⟨state, session.trace limits message facts, .start source.length⟩ source =
          .ok ⟨⟨analyzed.sink, scanned, analyzed.analyzer.metrics⟩, analyzed.result⟩ ∧
      ∃ call : LogCall, analyzed.session = call.apply limits scanned ∧
        ∀ named context, ∃ event, call.event? limits named context = some event ∧ event.isWarning = false := by
  unfold analyze at h
  obtain ⟨⟨⟨last, scanned, counts⟩, error | count⟩, hscan, h⟩ := exists_of_bind_eq_ok h
  · obtain ⟨quoted, -, h⟩ := exists_of_bind_eq_ok h
    cases h
    exact ⟨_, _, scanned, hscan, .error error.code _ none _, rfl, fun _ _ => ⟨_, rfl, rfl⟩⟩
  · obtain ⟨significant, -, h⟩ := exists_of_bind_eq_ok h
    cases h
    exact ⟨_, _, scanned, hscan, .success Code.analysisComplete _ _, rfl, fun _ _ => ⟨_, rfl, rfl⟩⟩

end Analyzer

/-! ## Warnings -/

/-- The tokens that are reported when reports are wanted: the signals among the tokens that were taken. -/
def Calls.signals (calls : Calls) : List (Located Token) :=
  calls.taken.filter fun token => token.value.kind ∈ [Kind.invalid, .inclusion]

/-- What some exchanges tell of events: the warnings under the code of signal tokens are those of the sink, and the reports. These
answer one to one and in order to the signal tokens that were taken, if reports are wanted, and else there are none. A silent sink
leaves the reports alone. -/
structure Accounts {σ : Type} (limits : Limits) (settings : AnalysisSettings) (accept : Sink (σ × Session))
    (exchanges : List Exchange) (events : List Event) : Prop where
  fits : ∀ exchange ∈ exchanges, exchange.Fits limits settings accept
  warnings_eq : Event.signalWarnings events =
    exchanges.flatMap fun exchange => Event.signalWarnings exchange.own ++ exchange.report.toList
  reports : settings.reportSignals = true →
    List.Forall₂ (Event.IsReport limits) (Calls.signals (exchanges.map Exchange.call)) (exchanges.filterMap Exchange.report)
  no_reports : settings.reportSignals = false → exchanges.filterMap Exchange.report = []
  silent : accept.Silent → Event.signalWarnings events = exchanges.filterMap Exchange.report

namespace Exchange

variable {σ : Type} {limits : Limits} {settings : AnalysisSettings} {accept : Sink (σ × Session)} {exchanges : List Exchange}

/-- The warnings of an exchange are those of the sink, and the report. -/
theorem Fits.signalWarnings_events {exchange : Exchange} (h : exchange.Fits limits settings accept) :
    Event.signalWarnings exchange.events = Event.signalWarnings exchange.own ++ exchange.report.toList := by
  rw [events, Event.signalWarnings_append]
  cases hreport : exchange.report with
  | none => rfl
  | some event => rw [Option.toList_some, (h.isReport event hreport).signalWarnings_eq]

/-- A silent sink has sent none of the warnings of an exchange. -/
theorem Fits.signalWarnings_own {exchange : Exchange} (h : exchange.Fits limits settings accept) (hsilent : accept.Silent) :
    Event.signalWarnings exchange.own = [] := by
  obtain ⟨state, session, hs, -, hown⟩ := h.answered
  exact hsilent state session exchange.token exchange.own hs hown

/-- The reports answer to the signal tokens that were taken. -/
theorem forall₂_reports (h : ∀ exchange ∈ exchanges, exchange.Fits limits settings accept) (hon : settings.reportSignals = true) :
    List.Forall₂ (Event.IsReport limits) (Calls.signals (exchanges.map call)) (exchanges.filterMap report) := by
  induction exchanges with
  | nil => exact List.Forall₂.nil
  | cons exchange rest ih =>
    have hfits := h exchange List.mem_cons_self
    have hrest := ih fun other hother => h other (List.mem_cons_of_mem exchange hother)
    obtain ⟨token, answer, own, report⟩ := exchange
    have hiff : report.isSome ↔ answer = none ∧ token.value.kind ∈ [Kind.invalid, .inclusion] := by
      simpa [hon] using hfits.reported_iff
    by_cases hsignal : answer = none ∧ token.value.kind ∈ [Kind.invalid, .inclusion]
    · -- The report of the exchange answers to its token.
      obtain ⟨event, rfl⟩ := Option.isSome_iff_exists.1 (hiff.2 hsignal)
      obtain ⟨rfl, hkind⟩ := hsignal
      have hsignals : Calls.signals ((⟨token, none, own, some event⟩ :: rest : List Exchange).map call) =
          token :: Calls.signals (rest.map call) := List.filter_cons_of_pos (decide_eq_true hkind)
      rw [hsignals]
      exact List.Forall₂.cons (hfits.isReport event rfl) hrest
    · obtain rfl : report = none := Option.not_isSome_iff_eq_none.1 fun hreport => hsignal (hiff.1 hreport)
      have hsignals : Calls.signals ((⟨token, answer, own, none⟩ :: rest : List Exchange).map call) =
          Calls.signals (rest.map call) := by
        cases answer with
        | some error => rfl
        | none => exact List.filter_cons_of_neg fun hkind => hsignal ⟨rfl, of_decide_eq_true hkind⟩
      rw [hsignals]
      exact hrest

/-- The events of exchanges are told by them, also with other events around them that are no warnings. -/
theorem accounts_of_fits (h : ∀ exchange ∈ exchanges, exchange.Fits limits settings accept) {opening closing : List Event}
    (hopening : ∀ event ∈ opening, event.isWarning = false) (hclosing : ∀ event ∈ closing, event.isWarning = false) :
    Accounts limits settings accept exchanges (opening ++ exchanges.flatMap events ++ closing) := by
  have hwarnings : Event.signalWarnings (opening ++ exchanges.flatMap events ++ closing) =
      exchanges.flatMap fun exchange => Event.signalWarnings exchange.own ++ exchange.report.toList := by
    rw [Event.signalWarnings_append, Event.signalWarnings_append, Event.signalWarnings_eq_nil hopening,
      Event.signalWarnings_eq_nil hclosing, List.nil_append, List.append_nil, Event.signalWarnings, List.filter_flatMap]
    exact List.flatMap_congr fun exchange he => (h exchange he).signalWarnings_events
  refine ⟨h, hwarnings, forall₂_reports h, ?_, ?_⟩
  · intro hoff
    refine List.filterMap_eq_nil_iff.2 fun exchange he => Option.not_isSome_iff_eq_none.1 fun hreport => ?_
    have hon := ((h exchange he).reported_iff.1 hreport).1
    rw [hoff] at hon
    cases hon
  · intro hsilent
    rw [hwarnings, List.filterMap_eq_flatMap_toList]
    refine List.flatMap_congr fun exchange he => ?_
    rw [(h exchange he).signalWarnings_own hsilent, List.nil_append]

end Exchange

end Lexing
