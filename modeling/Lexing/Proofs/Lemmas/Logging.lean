import Lexing.Proofs.Lemmas.Ledger
import Lexing.Session

/-!
# Calls that log

Sending an event writes lines and changes nothing else of a session (`exists_send_eq`). An error or a warning goes to the ledger
too, under the file that is worked on (`exists_apply_eq`).

So what a run of calls does is told by the calls alone: which event each of them makes, and what is worked on then (`journal`).
`Tracks` says this of the session behind the calls, and one more call keeps it (`Tracks.apply`).
-/

namespace Lexing

/-! ## Facts of an event -/

namespace Event

/-- A table with some facts told one after another. -/
def tell (table facts : List (String × String)) : List (String × String) :=
  facts.foldl (fun table fact => Assoc.insert compare fact.1 fact.2 table) table

/-- The facts that name the file worked on, if it is to be named. -/
def fileFacts (named : Bool) (context : Option FileContext) : List (String × String) :=
  match named, context with
  | true, some file => [("file", file.path.text), ("file_id", toString file.id)]
  | _, _ => []

/-- The facts of an event that is told some facts, and then those that name the file. -/
def factsOf (named : Bool) (context : Option FileContext) (facts : List (String × String)) : List (String × String) :=
  tell [] (facts ++ fileFacts named context)

theorem withFacts_eq (event : Event) (facts : List (String × String)) :
    event.withFacts facts = { event with context := tell event.context facts } := by
  induction facts generalizing event with
  | nil => rfl
  | cons fact rest ih => exact ih (event.withFact fact.1 fact.2)

/-- Facts that are told keep a table in order, each name once. -/
theorem sorted_tell {table : List (String × String)} (h : Assoc.Sorted compare table) (facts : List (String × String)) :
    Assoc.Sorted compare (tell table facts) := by
  induction facts generalizing table with
  | nil => exact h
  | cons fact rest ih => exact ih (h.insert fact.1 fact.2)

/-- An event that names the file worked on has this file's path and number under the two names, whatever else it was told. -/
theorem get?_factsOf (file : FileContext) (facts : List (String × String)) :
    Assoc.get? compare "file" (factsOf true (some file) facts) = some file.path.text ∧
      Assoc.get? compare "file_id" (factsOf true (some file) facts) = some (toString file.id) := by
  have htold : Assoc.Sorted compare (tell [] facts) := sorted_tell List.Pairwise.nil facts
  have hother : compare "file" "file_id" ≠ .eq := by decide
  have hfacts : factsOf true (some file) facts =
      Assoc.insert compare "file_id" (toString file.id) (Assoc.insert compare "file" file.path.text (tell [] facts)) :=
    List.foldl_append
  rw [hfacts, Assoc.get?_insert_other hother, Assoc.get?_insert_self htold,
    Assoc.get?_insert_self (htold.insert "file" file.path.text)]
  exact ⟨rfl, rfl⟩

end Event

namespace Session

variable {limits : Limits} {session : Session} {event : Event}

/-! ## Sending and recording -/

/-- Writing lines changes the error stream only. -/
theorem exists_foldl_print (session : Session) (lines : List String) :
    ∃ errors, lines.foldl (fun session line => session.print (line ++ "\n")) session = { session with errors := errors } := by
  induction lines generalizing session with
  | nil => exact ⟨session.errors, rfl⟩
  | cons line rest ih =>
    obtain ⟨errors, h⟩ := ih (session.print (line ++ "\n"))
    exact ⟨errors, h⟩

/-- With a service, an event that is sent is one more event sent, and some lines on the error stream. -/
theorem exists_send_eq (h : session.service.isSome) (event : Event) :
    ∃ errors, session.send event = { session with sent := session.sent.push event, errors := errors } := by
  obtain ⟨service, hs⟩ := Option.isSome_iff_exists.1 h
  obtain ⟨errors, hlines⟩ :=
    exists_foldl_print { session with sent := session.sent.push event } (service.lines session.stamp event)
  refine ⟨errors, ?_⟩
  unfold send
  rw [hs]
  simpa only [hs] using hlines

theorem attachFile_eq (session : Session) (event : Event) :
    session.attachFile event = event.withFacts (Event.fileFacts session.settings.fileContext session.context) := by
  unfold attachFile Event.fileFacts
  cases session.settings.fileContext <;> cases session.context <;> rfl

/-- A new event is completed with its place and its facts. -/
theorem complete_eq (session : Session) (level : Level) (code message : String) (span : Option Span)
    (facts : List (String × String)) :
    session.complete (.plain limits level code message) span facts =
      ⟨level, code, Event.clampMessage limits.maxMessageLength message, span,
        Event.factsOf session.settings.fileContext session.context facts⟩ := by
  have htold (event : Event) : session.attachFile (event.withFacts facts) =
      { event with context := Event.tell event.context (facts ++ Event.fileFacts session.settings.fileContext session.context) } := by
    rw [attachFile_eq, ← Event.withFacts_eq, Event.withFacts, Event.withFacts, Event.withFacts, List.foldl_append]
  unfold complete
  rw [htold]
  cases span <;> rfl

end Session

/-! ## Calls -/

/-- A call that says what file is worked on, or logs. -/
inductive LogCall where
  | enter (path : Path) (id : Nat)
  | leave
  | error (code message : String) (span : Option Span) (facts : List (String × String))
  | warning (code : Option String) (message : String) (span : Option Span) (facts : List (String × String))
  | success (code message : String) (facts : List (String × String))
  | info (message : String) (facts : List (String × String))
  | debug (message : String) (facts : List (String × String))
deriving DecidableEq, Repr

namespace LogCall

/-- Makes a call. -/
def apply (limits : Limits) (session : Session) : LogCall → Session
  | enter path id => session.setContext path id
  | leave => session.clearContext
  | error code message span facts => session.logError limits code message span facts
  | warning code message span facts => session.logWarning limits code message span facts
  | success code message facts => session.logSuccess limits code message facts
  | info message facts => session.logInfo limits message facts
  | debug message facts => session.logDebug limits message facts

/-- Makes calls one after another. -/
def applyAll (limits : Limits) (session : Session) (calls : List LogCall) : Session :=
  calls.foldl (fun session call => call.apply limits session) session

/-- What is worked on after a call. -/
def contextAfter (context : Option FileContext) : LogCall → Option FileContext
  | enter path id => some ⟨path, id⟩
  | leave => none
  | _ => context

/-- The event that a call makes while some file or none is worked on: its level, its code, its message cut to size, its place and
its facts. -/
def event? (limits : Limits) (named : Bool) (context : Option FileContext) (call : LogCall) : Option Event :=
  let event (level : Level) (code message : String) (span : Option Span) (facts : List (String × String)) : Option Event :=
    some ⟨level, code, Event.clampMessage limits.maxMessageLength message, span, Event.factsOf named context facts⟩
  match call with
  | enter _ _ | leave => none
  | error code message span facts => event .error code message span facts
  | warning code message span facts => event .warning (code.getD Code.plainWarning) message span facts
  | success code message facts => event .info code message none facts
  | info message facts => event .info Code.plainInfo message none facts
  | debug message facts => event .debug Code.plainDebug message none facts

/-- The events that calls make, in order, each with what is worked on when it is made. -/
def journal (limits : Limits) (named : Bool) : Option FileContext → List LogCall → List (Option FileContext × Event)
  | _, [] => []
  | context, call :: rest =>
    ((call.event? limits named context).map fun event => (context, event)).toList ++
      journal limits named (call.contextAfter context) rest

/-- The file and the event of an entry of a journal that is to be collected: an error or a warning made while a file is worked on. -/
def collect? (entry : Option FileContext × Event) : Option (Path × Event) :=
  if entry.2.isError || entry.2.isWarning then entry.1.map fun file => (file.path, entry.2) else none

/-- The errors and warnings of a journal, each with the file that was worked on. -/
def collected (entries : List (Option FileContext × Event)) : List (Path × Event) := entries.filterMap collect?

variable {limits : Limits} {named : Bool} {session : Session} {call : LogCall} {calls : List LogCall} {context : Option FileContext}
  {event : Event}

/-! ### One call -/

/-- A call that makes no event is about the file that is worked on. -/
theorem eq_of_event?_eq_none (h : call.event? limits named context = none) : (∃ path id, call = enter path id) ∨ call = leave := by
  cases call with
  | enter path id => exact Or.inl ⟨path, id, rfl⟩
  | leave => exact Or.inr rfl
  | _ => cases h

/-- A call that makes an event leaves the work on the same file. -/
theorem contextAfter_of_event? (h : call.event? limits named context = some event) : call.contextAfter context = context := by
  cases call with
  | enter | leave => cases h
  | _ => rfl

/-- A call that makes an event sends it, and records it if it is to be collected. -/
theorem exists_apply_eq (hs : session.service.isSome)
    (h : call.event? limits session.settings.fileContext session.context = some event) :
    ∃ errors, call.apply limits session =
      { session with
        sent := session.sent.push event
        errors := errors
        ledger := match collect? (session.context, event) with
          | some (path, event) => session.ledger.map fun ledger => ledger.record limits path event
          | none => session.ledger } := by
  obtain ⟨errors, hsend⟩ := Session.exists_send_eq hs event
  refine ⟨errors, ?_⟩
  cases call with
  | enter | leave => cases h
  | error code message span facts =>
    obtain rfl := Option.some.inj h
    simp only [apply, Session.logError, Event.error, Session.complete_eq, hsend, Session.record]
    cases session.context <;> rfl
  | warning code message span facts =>
    obtain rfl := Option.some.inj h
    simp only [apply, Session.logWarning, Event.warning, Session.complete_eq, hsend, Session.record]
    cases session.context <;> rfl
  | success code message facts =>
    obtain rfl := Option.some.inj h
    simp only [apply, Session.logSuccess, Event.success, Session.complete_eq, hsend]
    rfl
  | info message facts =>
    obtain rfl := Option.some.inj h
    simp only [apply, Session.logInfo, Event.info, Session.complete_eq, hsend]
    rfl
  | debug message facts =>
    obtain rfl := Option.some.inj h
    simp only [apply, Session.logDebug, Event.debug, Session.complete_eq, hsend]
    rfl

/-! ### Journals -/

/-- More calls put their journal behind the journal of those before them. -/
theorem journal_append (limits : Limits) (named : Bool) (context : Option FileContext) (calls more : List LogCall) :
    journal limits named context (calls ++ more) =
      journal limits named context calls ++ journal limits named (calls.foldl contextAfter context) more := by
  induction calls generalizing context with
  | nil => rfl
  | cons first rest ih => rw [List.cons_append, journal, ih, journal, List.append_assoc, List.foldl_cons]

/-- The journal of one call is its event, if it makes one. -/
theorem journal_singleton (limits : Limits) (named : Bool) (context : Option FileContext) (call : LogCall) :
    journal limits named context [call] = ((call.event? limits named context).map fun event => (context, event)).toList :=
  List.append_nil _

/-- An event of a journal that names the file worked on has its path and number as facts. -/
theorem facts_of_mem_journal {file : FileContext} (h : (some file, event) ∈ journal limits true context calls) :
    Assoc.get? compare "file" event.context = some file.path.text ∧
      Assoc.get? compare "file_id" event.context = some (toString file.id) := by
  induction calls generalizing context with
  | nil => cases h
  | cons call rest ih =>
    rw [journal] at h
    rcases List.mem_append.1 h with h | h
    · obtain ⟨made, hmade, heq⟩ := Option.map_eq_some_iff.1 (Option.mem_toList.1 h)
      obtain ⟨rfl, rfl⟩ := Prod.mk.inj heq
      cases call with
      | enter | leave => cases hmade
      | _ =>
        obtain rfl := Option.some.inj hmade
        exact Event.get?_factsOf file _
    · exact ih h

theorem collected_append (entries : List (Option FileContext × Event)) (entry : Option FileContext × Event) :
    collected (entries ++ [entry]) = collected entries ++ (collect? entry).toList := by
  rw [collected, collected, List.filterMap_append]
  cases hc : collect? entry <;> simp [hc]

/-- What is collected is an error or a warning, for the file that was worked on. -/
theorem collect?_eq_some_iff {entry : Option FileContext × Event} {path : Path} :
    collect? entry = some (path, event) ↔
      ∃ file, entry = (some file, event) ∧ path = file.path ∧ (event.isError ∨ event.isWarning) := by
  obtain ⟨context, made⟩ := entry
  unfold collect?
  constructor
  · intro h
    split at h
    · rename_i hkind
      obtain ⟨file, rfl, hf⟩ := Option.map_eq_some_iff.1 h
      obtain ⟨rfl, rfl⟩ := Prod.mk.inj hf
      exact ⟨file, rfl, rfl, Bool.or_eq_true_iff.1 hkind⟩
    · cases h
  · rintro ⟨file, heq, rfl, hkind⟩
    obtain ⟨rfl, rfl⟩ := Prod.mk.inj heq
    rw [if_pos (Bool.or_eq_true_iff.2 hkind)]
    rfl

/-! ### Runs of calls -/

/-- Every file with events in a ledger is in its table of files, and so is the file that is worked on. -/
structure Covers (ledger : Ledger) (context : Option FileContext) : Prop where
  sorted : Assoc.Sorted Path.compare ledger.contexts
  current : ∀ file ∈ context, (Assoc.get? Path.compare file.path ledger.contexts).isSome
  files : ∀ entry ∈ ledger.events, (Assoc.get? Path.compare entry.1 ledger.contexts).isSome

variable {ledger : Ledger}

theorem covers_empty : Covers .empty none where
  sorted := List.Pairwise.nil
  current := nofun
  files := nofun

/-- A file that is worked on is in the table, and the files that were stay there. -/
theorem Covers.enter (h : Covers ledger context) (path : Path) (id : Nat) :
    Covers (ledger.recordContext path id) (some ⟨path, id⟩) := by
  have hself : Assoc.get? Path.compare path (ledger.recordContext path id).contexts = some id :=
    Assoc.get?_insert_self h.sorted path id
  refine ⟨h.sorted.insert path id, ?_, ?_⟩
  · intro file hf
    obtain rfl := Option.some.inj hf
    rw [hself]
    rfl
  · intro entry he
    by_cases heq : Path.compare entry.1 path = .eq
    · rw [Assoc.get?_congr heq, hself]
      rfl
    · rw [Ledger.recordContext, Assoc.get?_insert_other heq]
      exact h.files entry he

theorem Covers.leave (h : Covers ledger context) : Covers ledger none := ⟨h.sorted, nofun, h.files⟩

/-- An event that is recorded for the file that is worked on is one of a file in the table. -/
theorem Covers.record {file : FileContext} (h : Covers ledger (some file)) (event : Event) :
    Covers (ledger.record limits file.path event) (some file) := by
  rcases Nat.lt_or_ge ledger.size limits.maxErrorCollection with hroom | hfull
  · rw [Ledger.record_of_room hroom]
    refine ⟨h.sorted, h.current, ?_⟩
    intro entry he
    rcases Assoc.key_of_mem_alter he with hk | ⟨old, ho, hk⟩
    · rw [hk]
      exact h.current file rfl
    · rw [hk]
      exact h.files old ho
  · rwa [Ledger.record_of_full hfull]

/-- What is told of a session behind some calls by the calls alone. -/
structure Tracks (limits : Limits) (start : Session) (calls : List LogCall) (session : Session) : Prop where
  settings_eq : session.settings = start.settings
  service_eq : session.service = start.service
  context_eq : session.context = calls.foldl contextAfter start.context
  sent_eq : session.sent.toList =
    start.sent.toList ++ (journal limits start.settings.fileContext start.context calls).map Prod.snd
  ledger : ∃ ledger, session.ledger = some ledger ∧
    ledger.Follows limits (collected (journal limits start.settings.fileContext start.context calls)) ∧ Covers ledger session.context

variable {start : Session}

theorem tracks_start (hledger : start.ledger = some .empty) (hcontext : start.context = none) : Tracks limits start [] start where
  settings_eq := rfl
  service_eq := rfl
  context_eq := rfl
  sent_eq := by rw [journal, List.map_nil, List.append_nil]
  ledger := ⟨.empty, hledger, Ledger.follows_empty limits, hcontext ▸ covers_empty⟩

/-- One more call. -/
theorem Tracks.apply (hs : start.service.isSome) (h : Tracks limits start calls session) (call : LogCall) :
    Tracks limits start (calls ++ [call]) (call.apply limits session) := by
  obtain ⟨ledger, hledger, hfollows, hcovers⟩ := h.ledger
  have hcontext := h.context_eq
  cases hevent : call.event? limits session.settings.fileContext session.context with
  | none =>
    have hjournal : journal limits start.settings.fileContext start.context (calls ++ [call]) =
        journal limits start.settings.fileContext start.context calls := by
      rw [journal_append, journal_singleton, ← hcontext, ← h.settings_eq, hevent]
      exact List.append_nil _
    rcases eq_of_event?_eq_none hevent with ⟨path, id, rfl⟩ | rfl
    · refine ⟨h.settings_eq, h.service_eq, ?_, ?_, ledger.recordContext path id, ?_, ?_, hcovers.enter path id⟩
      · rw [List.foldl_append]
        rfl
      · rw [hjournal]
        exact h.sent_eq
      · simp only [LogCall.apply, Session.setContext, hledger, Option.map_some]
      · rw [hjournal]
        exact hfollows.recordContext path id
    · refine ⟨h.settings_eq, h.service_eq, ?_, ?_, ledger, hledger, ?_, hcovers.leave⟩
      · rw [List.foldl_append]
        rfl
      · rw [hjournal]
        exact h.sent_eq
      · rw [hjournal]
        exact hfollows
  | some event =>
    have hjournal : journal limits start.settings.fileContext start.context (calls ++ [call]) =
        journal limits start.settings.fileContext start.context calls ++ [(session.context, event)] := by
      rw [journal_append, journal_singleton, ← hcontext, ← h.settings_eq, hevent]
      rfl
    have hkept : call.contextAfter session.context = session.context := contextAfter_of_event? hevent
    obtain ⟨errors, happly⟩ := exists_apply_eq (h.service_eq ▸ hs) hevent
    rw [happly]
    refine ⟨h.settings_eq, h.service_eq, ?_, ?_, ?_⟩
    · rw [List.foldl_append, ← hcontext]
      exact hkept.symm
    · rw [hjournal, List.map_append, ← List.append_assoc, ← h.sent_eq]
      exact Array.toList_push
    · rw [hjournal, collected_append]
      cases hcollect : collect? (session.context, event) with
      | none =>
        refine ⟨ledger, hledger, ?_, hcovers⟩
        rw [Option.toList_none, List.append_nil]
        exact hfollows
      | some entry =>
        obtain ⟨path, event⟩ := entry
        obtain ⟨file, heq, rfl, -⟩ := collect?_eq_some_iff.1 hcollect
        obtain ⟨hfile, rfl⟩ := Prod.mk.inj heq
        refine ⟨ledger.record limits file.path event, ?_, hfollows.record file.path event, ?_⟩
        · simp only [hledger, Option.map_some]
        · simp only [hfile] at hcovers ⊢
          exact hcovers.record event

/-- Any calls, from a session with a service, an empty ledger and no file that is worked on. -/
theorem tracks_applyAll (hs : start.service.isSome) (hledger : start.ledger = some .empty) (hcontext : start.context = none)
    (calls : List LogCall) : Tracks limits start calls (applyAll limits start calls) := by
  induction calls using List.reverseRecOn with
  | nil => exact tracks_start hledger hcontext
  | append_singleton calls call ih =>
    rw [applyAll, List.foldl_append]
    exact ih.apply hs call

/-! ### Two services -/

/-- Two sessions with services that agree in everything the ledger depends on. -/
structure Agree (session other : Session) : Prop where
  ready : session.service.isSome ∧ other.service.isSome
  settings_eq : session.settings = other.settings
  context_eq : session.context = other.context
  ledger_eq : session.ledger = other.ledger

/-- The same call leaves sessions that agree in agreement. -/
theorem Agree.apply {other : Session} (h : Agree session other) (limits : Limits) (call : LogCall) :
    Agree (call.apply limits session) (call.apply limits other) := by
  cases hevent : call.event? limits session.settings.fileContext session.context with
  | none =>
    rcases eq_of_event?_eq_none hevent with ⟨path, id, rfl⟩ | rfl
    · refine ⟨h.ready, h.settings_eq, rfl, ?_⟩
      simp only [LogCall.apply, Session.setContext, h.ledger_eq]
    · exact ⟨h.ready, h.settings_eq, rfl, h.ledger_eq⟩
  | some event =>
    have hevent' := hevent
    rw [h.settings_eq, h.context_eq] at hevent'
    obtain ⟨errors, happly⟩ := exists_apply_eq h.ready.1 hevent
    obtain ⟨errors', happly'⟩ := exists_apply_eq h.ready.2 hevent'
    rw [happly, happly']
    exact ⟨h.ready, h.settings_eq, h.context_eq, by simp only [h.context_eq, h.ledger_eq]⟩

theorem Agree.applyAll {other : Session} (h : Agree session other) (limits : Limits) (calls : List LogCall) :
    Agree (applyAll limits session calls) (applyAll limits other calls) := by
  induction calls generalizing session other with
  | nil => exact h
  | cons call rest ih => exact ih (h.apply limits call)

end LogCall

end Lexing
