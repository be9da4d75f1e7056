import Lexing.Proofs.Lemmas.Nesting

/-!
# What nested work forgets

Work on a file ends with no file worked on, whatever was worked on before. So when work on a second file is done within work on a first
one, what the first logs behind it belongs to no file (`withinFile_forgets_file`): the service gets it, and the ledger does not.
-/

namespace Lexing.Work

open LogCall

/-- Work on a file, with further work nested in it to any depth, from a session behind any calls. The work is done to its end. Its
events belong to the file of the innermost work around them, but to none behind nested work; errors and warnings that belong to a file
are collected, so far as there is room, and the others are only sent. Afterwards nothing is worked on, also when something was before.
Each call belongs where the shape of the work says, or else to no file; and all do as it says exactly when nothing logs behind nested
work but further nested work. -/
theorem withinFile_forgets_file (limits : Limits) {start : Session} (hservice : start.service.isSome)
    (hledger : start.ledger = some .empty) (hcontext : start.context = none) (before : List LogCall) (path : Path) (id : Nat)
    (work : Work) :
    let session := applyAll limits start before
    let named := start.settings.fileContext
    let shaped := work.logged true (some ⟨path, id⟩)
    let actual := work.logged false (some ⟨path, id⟩)
    let records := collected (journal limits named none before ++ made limits named actual)
    ∃ after ledger, session.withinFile path id (work.run limits) = .ok ((), after) ∧
      after.context = none ∧ (after.context = session.context ↔ session.context = none) ∧
      after.sent.toList = session.sent.toList ++ (made limits named actual).map Prod.snd ∧
      after.ledger = some ledger ∧
      (∀ file, ledger.eventsOf file <+: Ledger.portion limits (Ledger.eventsFor records file)) ∧
      (ledger.size < limits.maxErrorCollection →
        ∀ file, ledger.eventsOf file = Ledger.portion limits (Ledger.eventsFor records file)) ∧
      (records.length ≤ limits.maxErrorCollection → ∀ file, (Ledger.eventsFor records file).length ≤ limits.maxEventsPerFile →
        ledger.eventsOf file = Ledger.eventsFor records file) ∧
      List.Forall₂ (fun a b => a.2 = b.2 ∧ (a.1 = b.1 ∨ a.1 = none)) actual shaped ∧
      (actual = shaped ↔ work.nestsLast false) := by
  intro session named shaped actual records
  let whole := Work.within path id work .done
  have hbefore : Tracks limits start before session := tracks_applyAll hservice hledger hcontext before
  have hafter : Tracks limits start (before ++ whole.calls) (applyAll limits start (before ++ whole.calls)) :=
    tracks_applyAll hservice hledger hcontext _
  have hrun : session.withinFile path id (work.run limits) = .ok ((), applyAll limits start (before ++ whole.calls)) := by
    rw [withinFile_run_eq, applyAll, applyAll, List.foldl_append]
    rfl
  have hjournal (context : Option FileContext) : journal limits named context whole.calls = made limits named actual := by
    have hlogged : whole.logged false context = actual := List.append_nil _
    rw [journal_calls, hlogged]
  have hend : (applyAll limits start (before ++ whole.calls)).context = none := by
    rw [hafter.context_eq, List.foldl_append, foldl_contextAfter_within]
  have hsent := hafter.sent_eq
  rw [journal_append, hjournal, List.map_append, ← List.append_assoc, ← hbefore.sent_eq] at hsent
  obtain ⟨ledger, hkept, hfollows, -⟩ := hafter.ledger
  rw [journal_append, hjournal, hcontext] at hfollows
  refine ⟨_, ledger, hrun, hend, by rw [hend]; exact eq_comm, hsent, hkept, hfollows.begins, hfollows.complete, ?_,
    forall₂_logged work (Or.inl rfl), logged_eq_iff work false ⟨path, id⟩⟩
  intro hfew file hportion
  rw [hfollows.complete_of_few hfew file]
  exact Ledger.portion_of_le hportion

/-- Work on `a` while `o` is worked on, with work on `b` at its end: the events belong where the shape says, and `o` is not taken up
again. -/
theorem withinFile_forgets_file_outside :
    let start := { Session.fresh .builtIn "" with service := some ⟨.error, none, []⟩, ledger := some .empty }
    let session := applyAll .development start [.enter ⟨"o"⟩ 0]
    let inner := Work.log (.warning none "inner" none []) rfl .done
    let work := Work.log (.error "E001" "early" none []) rfl (.within ⟨"b"⟩ 2 inner .done)
    let early := ⟨.error, "E001", Event.clampMessage 4096 "early", none, [("file", "a"), ("file_id", "1")]⟩
    let nested := ⟨.warning, Code.plainWarning, Event.clampMessage 4096 "inner", none, [("file", "b"), ("file_id", "2")]⟩
    ∃ after ledger, session.withinFile ⟨"a"⟩ 1 (work.run .development) = .ok ((), after) ∧
      session.context = some ⟨⟨"o"⟩, 0⟩ ∧ after.context = none ∧ after.ledger = some ledger ∧
      ledger.eventsOf ⟨"a"⟩ = [early] ∧ ledger.eventsOf ⟨"b"⟩ = [nested] ∧
      work.logged false (some ⟨⟨"a"⟩, 1⟩) = work.logged true (some ⟨⟨"a"⟩, 1⟩) := by
  intro start session inner work early nested
  have hservice : start.service.isSome := rfl
  obtain ⟨after, ledger, hrun, hcontext, -, -, hkept, -, -, hfew, -, hshape⟩ :=
    withinFile_forgets_file .development hservice rfl rfl [.enter ⟨"o"⟩ 0] ⟨"a"⟩ 1 work
  have hrecords : collected (journal .development start.settings.fileContext none [.enter ⟨"o"⟩ 0] ++
      made .development start.settings.fileContext (work.logged false (some ⟨⟨"a"⟩, 1⟩))) =
        [(⟨"a"⟩, early), (⟨"b"⟩, nested)] := rfl
  rw [hrecords] at hfew
  have hne : (Path.mk "a").parts ≠ (Path.mk "b").parts := by decide
  have ha : Ledger.eventsFor [(⟨"a"⟩, early), (⟨"b"⟩, nested)] ⟨"a"⟩ = [early] := by simp [Ledger.eventsFor, hne.symm]
  have hb : Ledger.eventsFor [(⟨"a"⟩, early), (⟨"b"⟩, nested)] ⟨"b"⟩ = [nested] := by simp [Ledger.eventsFor, hne]
  refine ⟨after, ledger, hrun, rfl, hcontext, hkept, ?_, ?_, hshape.2 rfl⟩
  · rw [hfew (by decide) ⟨"a"⟩ (by rw [ha]; decide), ha]
  · rw [hfew (by decide) ⟨"b"⟩ (by rw [hb]; decide), hb]

/-- Work on `b` within work on `a`, while `o` is worked on. The error behind it should belong to `a`; it is sent and not collected,
and `o` is not taken up again. -/
theorem withinFile_loses_late_error :
    let start := { Session.fresh .builtIn "" with service := some ⟨.error, none, []⟩, ledger := some .empty }
    let session := start.setContext ⟨"o"⟩ 0
    let late := LogCall.error "E001" "late" none []
    let inner := Work.log (.warning none "inner" none []) rfl .done
    let work := Work.within ⟨"b"⟩ 2 inner (.log late rfl .done)
    ∃ after ledger, session.withinFile ⟨"a"⟩ 1 (work.run .development) = .ok ((), after) ∧
      (some ⟨⟨"a"⟩, 1⟩, late) ∈ work.logged true (some ⟨⟨"a"⟩, 1⟩) ∧
      after.sent.size = 2 ∧ after.ledger = some ledger ∧ ledger.size = 1 ∧ ledger.eventsOf ⟨"a"⟩ = [] ∧
      session.context = some ⟨⟨"o"⟩, 0⟩ ∧ after.context = none := by
  intro start session late inner work
  exact ⟨_, _, rfl, by simp [work, inner, Work.logged], rfl, rfl, rfl, rfl, rfl, rfl⟩

end Lexing.Work
