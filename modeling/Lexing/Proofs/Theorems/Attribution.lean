import Lexing.Proofs.Lemmas.Logging

/-!
# Events and their files

Which file an event belongs to is told by the calls before it: by the last that said what is worked on. `applyAll_attributed` says
that the service gets every event, and the ledger the errors and warnings that belong to a file, under this file and as the service
gets them. What the service lets through makes no difference to the ledger.
-/

namespace Lexing.LogCall

/-- Any calls, from a session with a service, an empty ledger and no file that is worked on. The service is handed the events of the
journal. Of the errors and warnings that belong to a file the ledger keeps, in order, the portion of that file or its start, and all of
them while they are within both caps; nothing else is kept but notices that there were more. Another service makes no difference.
If files are to be named, each event of a file names it; and each file with events is in the table of files. -/
theorem applyAll_attributed (limits : Limits) {start : Session} (hservice : start.service.isSome)
    (hledger : start.ledger = some .empty) (hcontext : start.context = none) (calls : List LogCall) :
    let entries := journal limits start.settings.fileContext none calls
    let belonging := Ledger.eventsFor (collected entries)
    ∃ ledger, (applyAll limits start calls).ledger = some ledger ∧
      (applyAll limits start calls).sent.toList = start.sent.toList ++ entries.map Prod.snd ∧
      (∀ path, ledger.eventsOf path <+: Ledger.portion limits (belonging path)) ∧
      (ledger.size < limits.maxErrorCollection → ∀ path, ledger.eventsOf path = Ledger.portion limits (belonging path)) ∧
      ((collected entries).length ≤ limits.maxErrorCollection →
        ∀ path, (belonging path).length ≤ limits.maxEventsPerFile → ledger.eventsOf path = belonging path) ∧
      (∀ path, ∀ event ∈ ledger.eventsOf path, event = Ledger.overflowNotice limits ∨
        ∃ file, (some file, event) ∈ entries ∧ file.path.parts = path.parts ∧ (event.isError ∨ event.isWarning)) ∧
      (∀ service, (applyAll limits { start with service := some service } calls).ledger = some ledger) ∧
      (start.settings.fileContext = true → ∀ file event, (some file, event) ∈ entries →
        Assoc.get? compare "file" event.context = some file.path.text ∧
          Assoc.get? compare "file_id" event.context = some (toString file.id)) ∧
      ∀ entry ∈ ledger.events, (Assoc.get? Path.compare entry.1 ledger.contexts).isSome := by
  intro entries belonging
  have htracks : Tracks limits start calls (applyAll limits start calls) := tracks_applyAll hservice hledger hcontext calls
  obtain ⟨ledger, hafter, hfollows, hcovers⟩ := htracks.ledger
  have hsent := htracks.sent_eq
  rw [hcontext] at hfollows hsent
  refine ⟨ledger, hafter, hsent, hfollows.begins, hfollows.complete, ?_, ?_, ?_, ?_, hcovers.files⟩
  · intro hfew path hportion
    rw [hfollows.complete_of_few hfew path]
    exact Ledger.portion_of_le hportion
  · intro path event he
    rcases Ledger.mem_or_eq_of_mem_portion ((hfollows.begins path).subset he) with he | rfl
    · obtain ⟨other, hother, hp⟩ := Ledger.mem_eventsFor_iff.1 he
      obtain ⟨entry, hentry, hcollect⟩ := List.mem_filterMap.1 hother
      obtain ⟨file, rfl, rfl, hkind⟩ := collect?_eq_some_iff.1 hcollect
      exact Or.inr ⟨file, hentry, hp, hkind⟩
    · exact Or.inl rfl
  · intro service
    have hagree : Agree { start with service := some service } start := ⟨⟨rfl, hservice⟩, rfl, rfl, rfl⟩
    exact (hagree.applyAll limits calls).ledger_eq.trans hafter
  · intro hnamed file event he
    simp only [entries, hnamed] at he
    exact facts_of_mem_journal he

/-- A service that lets errors through and no warnings: the warning about `a` is collected all the same, and names the file in place
of what it was told. What comes before and after `a` is collected nowhere. -/
theorem applyAll_attributed_between :
    let start := { Session.fresh .builtIn "" with service := some ⟨.error, none, []⟩, ledger := some .empty }
    let calls :=
      [ .error "E001" "too early" none [], .enter ⟨"a"⟩ 7, .warning none "about a" none [("file", "b")], .info "no warning" [],
        .leave, .warning none "too late" none [] ]
    let kept := ⟨.warning, Code.plainWarning, Event.clampMessage 4096 "about a", none, [("file", "a"), ("file_id", "7")]⟩
    ∃ ledger, (applyAll .development start calls).ledger = some ledger ∧ (applyAll .development start calls).sent.size = 4 ∧
      ledger.eventsOf ⟨"a"⟩ = [kept] ∧ ledger.eventsOf ⟨"b"⟩ = [] := by
  intro start calls kept
  have hjournal : journal .development start.settings.fileContext none calls =
      [ (none, ⟨.error, "E001", Event.clampMessage 4096 "too early", none, []⟩), (some ⟨⟨"a"⟩, 7⟩, kept),
        ( some ⟨⟨"a"⟩, 7⟩,
          ⟨.info, Code.plainInfo, Event.clampMessage 4096 "no warning", none, [("file", "a"), ("file_id", "7")]⟩ ),
        (none, ⟨.warning, Code.plainWarning, Event.clampMessage 4096 "too late", none, []⟩) ] := by rfl
  have hservice : start.service.isSome := rfl
  obtain ⟨ledger, hafter, hsent, -, -, hwhole, -⟩ := applyAll_attributed .development hservice rfl rfl calls
  have hsize : (applyAll .development start calls).sent.size = 4 := by
    rw [← Array.length_toList, hsent, hjournal]
    rfl
  have hcollected : collected (journal .development start.settings.fileContext none calls) = [(⟨"a"⟩, kept)] := by
    rw [hjournal]
    rfl
  rw [hcollected] at hwhole
  have hb : (Path.mk "a").parts ≠ (Path.mk "b").parts := by decide
  have hkeptA : Ledger.eventsFor [(⟨"a"⟩, kept)] ⟨"a"⟩ = [kept] := by simp [Ledger.eventsFor]
  have hkeptB : Ledger.eventsFor [(⟨"a"⟩, kept)] ⟨"b"⟩ = [] := by simp [Ledger.eventsFor, hb]
  refine ⟨ledger, hafter, hsize, ?_, ?_⟩
  · rw [hwhole (by decide) ⟨"a"⟩ (by rw [hkeptA]; decide), hkeptA]
  · rw [hwhole (by decide) ⟨"b"⟩ (by rw [hkeptB]; decide), hkeptB]

end Lexing.LogCall
