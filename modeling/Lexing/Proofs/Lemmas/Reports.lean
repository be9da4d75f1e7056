import Lexing.Proofs.Lemmas.Admission
import Lexing.Proofs.Lemmas.Logging

/-!
# Errors that are reported

Whatever a piece of work does, what it sends to the service goes behind what was sent before. `Reports` says which errors are among the
events sent, by their codes. A piece of work that reads an input reports the error that it ends with and no other
(`Reading.Reported`).
-/

namespace Lexing

/-- The codes of the errors among some events. -/
def Event.errorCodes (events : List Event) : List String := (events.filter Event.isError).map Event.code

/-- The codes of the errors that work which ends in a result is to report: the code of its own error, if it ends with one. -/
def codesOf {ε α : Type} (code : ε → String) : Except ε α → List String
  | .ok _ => []
  | .error error => [code error]

namespace Session

/-- Between two states of a session some events were sent, the errors among them under these codes. -/
structure Reports (codes : List String) (before after : Session) : Prop where
  service_eq : after.service = before.service
  sent : ∃ events, after.sent.toList = before.sent.toList ++ events ∧ Event.errorCodes events = codes

variable {before between after session : Session} {codes more : List String}

/-! ## Sessions -/

/-- Nothing is reported when nothing is sent. -/
theorem reports_of_sent_eq (hservice : after.service = before.service) (hsent : after.sent = before.sent) : Reports [] before after :=
  ⟨hservice, [], by rw [hsent, List.append_nil], rfl⟩

theorem Reports.trans (h : Reports codes before between) (hmore : Reports more between after) :
    Reports (codes ++ more) before after := by
  obtain ⟨first, hfirst, hcodes⟩ := h.sent
  obtain ⟨second, hsecond, hmoreCodes⟩ := hmore.sent
  refine ⟨hmore.service_eq.trans h.service_eq, first ++ second, ?_, ?_⟩
  · rw [hsecond, hfirst, List.append_assoc]
  · rw [← hcodes, ← hmoreCodes, Event.errorCodes, List.filter_append, List.map_append]
    rfl

/-- The service stays installed. -/
theorem Reports.ready (h : Reports codes before after) (hs : before.service.isSome) : after.service.isSome := by
  rw [h.service_eq]
  exact hs

/-! ## Calls -/

/-- A call that makes an event sends it: an error is reported, and nothing else is one. -/
theorem reports_apply (limits : Limits) (hs : session.service.isSome) (call : LogCall) {event : Event}
    (h : call.event? limits session.settings.fileContext session.context = some event) :
    Reports (if event.isError then [event.code] else []) session (call.apply limits session) := by
  obtain ⟨errors, happly⟩ := LogCall.exists_apply_eq hs h
  rw [happly]
  refine ⟨rfl, [event], Array.toList_push, ?_⟩
  cases he : event.isError <;> simp [Event.errorCodes, he]

theorem reports_logError (limits : Limits) (hs : session.service.isSome) (code message : String) (span : Option Span)
    (facts : List (String × String)) : Reports [code] session (session.logError limits code message span facts) :=
  reports_apply limits hs (.error code message span facts) rfl

theorem reports_logWarning (limits : Limits) (hs : session.service.isSome) (code : Option String) (message : String)
    (span : Option Span) (facts : List (String × String)) :
    Reports [] session (session.logWarning limits code message span facts) :=
  reports_apply limits hs (.warning code message span facts) rfl

theorem reports_logSuccess (limits : Limits) (hs : session.service.isSome) (code message : String) (facts : List (String × String)) :
    Reports [] session (session.logSuccess limits code message facts) :=
  reports_apply limits hs (.success code message facts) rfl

theorem reports_logInfo (limits : Limits) (hs : session.service.isSome) (message : String) (facts : List (String × String)) :
    Reports [] session (session.logInfo limits message facts) :=
  reports_apply limits hs (.info message facts) rfl

theorem reports_trace (limits : Limits) (hs : session.service.isSome) (message : String) (facts : List (String × String)) :
    Reports [] session (session.trace limits message facts) := by
  unfold trace
  split
  · exact reports_apply limits hs (.debug message facts) rfl
  · exact reports_of_sent_eq rfl rfl

end Session

/-! ## Reading an input -/

namespace Reading

variable {α β : Type}

/-- The work reports the error that it ends with, and no other; it reports none if it ends well. -/
def Reported (reading : Reading α) : Prop :=
  ∀ session : Session, session.service.isSome →
    Session.Reports (codesOf InputError.code (reading.run session).1) session (reading.run session).2

theorem reported_pure (value : α) : Reported (pure value) := fun _ _ => Session.reports_of_sent_eq rfl rfl

/-- A change of the session that reports nothing. -/
theorem reported_modify {change : Session → Session}
    (h : ∀ session, session.service.isSome → Session.Reports [] session (change session)) :
    Reported (modify change : Reading PUnit) := h

/-- Work that goes on when nothing has gone wrong. -/
theorem Reported.bind {reading : Reading α} (h : reading.Reported) {next : α → Reading β}
    (hn : ∀ value, (next value).Reported) : Reported (reading >>= next) := by
  intro session hs
  have hfirst := h session hs
  rw [run_bind]
  rcases hrun : reading.run session with ⟨error | value, between⟩
  · rw [hrun] at hfirst
    exact hfirst
  · rw [hrun] at hfirst
    exact hfirst.trans (hn value between (hfirst.ready hs))

end Reading

namespace Input

open Reading Session

variable {limits : Limits}

theorem reported_remark (message : String) (facts : List (String × String)) : (remark limits message facts).Reported :=
  reported_modify fun _ hs => reports_trace limits hs message facts

/-- Work that gives up with an error reports it. -/
theorem reported_fail {α : Type} (error : InputError) (message : String) (facts : List (String × String)) :
    (fail (α := α) limits error message facts).Reported :=
  fun _ hs => reports_logError limits hs error.code message none facts

theorem reported_checkSize (size : Nat) (name : String) : (checkSize limits size name).Reported := by
  unfold checkSize
  split
  · exact reported_fail _ _ _
  · exact reported_pure ()

theorem reported_logSuccess (settings : ReadingSettings) (name : String) (input : InputText) :
    (logSuccess limits settings name input).Reported := by
  refine reported_modify fun session hs => ?_
  split
  · exact reports_logSuccess limits hs _ _ _
  · exact reports_logSuccess limits hs _ _ _

theorem reported_finish (settings : ReadingSettings) (name source : String) (metadata : Metadata) :
    (finish limits settings name source metadata).Reported := by
  unfold finish
  simp only
  split
  · exact reported_fail _ _ _
  · split
    · refine (reported_modify fun _ hs => reports_logWarning limits hs _ _ _ _).bind fun _ => ?_
      exact (reported_logSuccess settings name _).bind fun _ => reported_pure _
    · exact (reported_logSuccess settings name _).bind fun _ => reported_pure _

theorem reported_ofReader (settings : ReadingSettings) (name : String) (reader : Reader) :
    (ofReader limits settings name reader).Reported := by
  refine (reported_remark _ _).bind fun _ => ?_
  split
  · exact reported_fail _ _ _
  · refine (reported_checkSize _ _).bind fun _ => ?_
    split
    · exact reported_fail _ _ _
    · exact reported_finish settings name _ _

theorem reported_locate (files : FileSystem) (path : String) : (locate limits files path).Reported := by
  unfold locate
  split
  · exact reported_fail _ _ _
  · split
    · exact reported_fail _ _ _
    · exact reported_fail _ _ _
    · exact reported_pure _
    · exact reported_pure _

theorem reported_ofFile (settings : ReadingSettings) (files : FileSystem) (path : String) :
    (ofFile limits settings files path).Reported := by
  refine (reported_remark _ _).bind fun _ => (reported_locate files path).bind fun found => ?_
  obtain ⟨place, size, content⟩ := found
  refine (reported_remark _ _).bind fun _ => (reported_remark _ _).bind fun _ => (reported_checkSize _ _).bind fun _ => ?_
  split
  · exact reported_fail _ _ _
  · split
    · exact reported_fail _ _ _
    · exact (reported_remark _ _).bind fun _ => reported_finish settings path _ _

end Input

end Lexing
