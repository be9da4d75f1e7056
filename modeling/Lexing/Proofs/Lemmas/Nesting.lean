import Lexing.Proofs.Lemmas.Logging

/-!
# Work within work

Work on a file logs, and may work on further files in between. `Work` is a tree of this, which runs by `Session.withinFile`, and its
run is that of its calls one after another (`Work.run_eq`).

Under which file a call of the tree logs can be read off in two ways (`Work.logged`). When nested work ends, the file from before is
taken up again, as the shape of the tree says; or nothing is worked on any more, as a session does it (`Work.journal_calls`). The
first way is the second when all that logs in its own right does so in front of the nested work (`Work.logged_eq_iff`).
-/

namespace Lexing

namespace LogCall

/-- Whether a call logs. -/
def logs : LogCall → Bool
  | enter _ _ | leave => false
  | _ => true

/-- The events of calls that log while some file or none is worked on. -/
def made (limits : Limits) (named : Bool) (entries : List (Option FileContext × LogCall)) : List (Option FileContext × Event) :=
  entries.filterMap fun entry => (entry.2.event? limits named entry.1).map fun event => (entry.1, event)

variable {limits : Limits} {named : Bool}

theorem made_append (entries more : List (Option FileContext × LogCall)) :
    made limits named (entries ++ more) = made limits named entries ++ made limits named more :=
  List.filterMap_append

theorem contextAfter_of_logs {call : LogCall} (h : call.logs) (context : Option FileContext) :
    call.contextAfter context = context := by
  cases call with
  | enter | leave => cases h
  | _ => rfl

end LogCall

/-- Work on a file: calls that log, and work on further files, one after another. -/
inductive Work where
  | done
  | log (call : LogCall) (logs : call.logs) (rest : Work)
  | within (path : Path) (id : Nat) (inner rest : Work)

namespace Work

open LogCall

variable {limits : Limits} {named : Bool}

/-- Does the work. -/
def run (limits : Limits) : Work → Session → Except Fault (Unit × Session)
  | done, session => .ok ((), session)
  | log call _ rest, session => rest.run limits (call.apply limits session)
  | within path id inner rest, session =>
    match session.withinFile path id (inner.run limits) with
    | .ok ((), session) => rest.run limits session
    | .error fault => .error fault

/-- The calls of the work, also those that begin and end nested work. -/
def calls : Work → List LogCall
  | done => []
  | log call _ rest => call :: rest.calls
  | within path id inner rest => .enter path id :: (inner.calls ++ .leave :: rest.calls)

/-- The calls of the work that log, each with what is worked on then. Behind nested work the file from before is taken up again, or
nothing is worked on. -/
def logged (resumes : Bool) : Option FileContext → Work → List (Option FileContext × LogCall)
  | _, done => []
  | context, log call _ rest => (context, call) :: rest.logged resumes context
  | context, within path id inner rest =>
    inner.logged resumes (some ⟨path, id⟩) ++ rest.logged resumes (if resumes then context else none)

/-- Whether nothing logs behind nested work but further nested work. In a part of the work there may have been nested work before. -/
def nestsLast (nested : Bool) : Work → Bool
  | done => true
  | log _ _ rest => !nested && rest.nestsLast nested
  | within _ _ inner rest => inner.nestsLast false && rest.nestsLast true

/-! ## Runs -/

/-- Work never faults, and does its calls one after another. -/
theorem run_eq (work : Work) (session : Session) : work.run limits session = .ok ((), applyAll limits session work.calls) := by
  induction work generalizing session with
  | done => rfl
  | log call _ rest ih => exact ih (call.apply limits session)
  | within path id inner rest ihInner ihRest =>
    simp only [run, Session.withinFile, ihInner, ihRest, calls, applyAll, List.foldl_cons, List.foldl_append]
    rfl

/-- Work on a file is nested work with nothing behind it. -/
theorem withinFile_run_eq (work : Work) (path : Path) (id : Nat) (session : Session) :
    session.withinFile path id (work.run limits) = .ok ((), applyAll limits session (within path id work done).calls) := by
  rw [← run_eq]
  simp only [run, Session.withinFile, run_eq]

/-- Nothing is worked on behind nested work. -/
theorem foldl_contextAfter_within (path : Path) (id : Nat) (work : Work) (context : Option FileContext) :
    (within path id work done).calls.foldl contextAfter context = none := by
  rw [calls, List.foldl_cons, List.foldl_append]
  rfl

/-- The events of a run are those of the calls that log, and nothing is worked on behind nested work. -/
theorem journal_calls (work : Work) (context : Option FileContext) :
    journal limits named context work.calls = made limits named (work.logged false context) := by
  induction work generalizing context with
  | done => rfl
  | log call logs rest ih =>
    rw [calls, journal, contextAfter_of_logs logs, ih, logged]
    cases hevent : call.event? limits named context <;> simp [made, hevent]
  | within path id inner rest ihInner ihRest =>
    have henter : journal limits named context (calls (.within path id inner rest)) =
        journal limits named (some ⟨path, id⟩) (inner.calls ++ .leave :: rest.calls) := rfl
    have hleave (context : Option FileContext) : journal limits named context (.leave :: rest.calls) =
        journal limits named none rest.calls := rfl
    rw [henter, journal_append, hleave, ihInner, ihRest, logged, made_append]
    rfl

/-! ## The two readings -/

/-- The same calls log in both readings, and where these differ nothing is worked on. -/
theorem forall₂_logged (work : Work) {context other : Option FileContext} (h : context = other ∨ context = none) :
    List.Forall₂ (fun a b => a.2 = b.2 ∧ (a.1 = b.1 ∨ a.1 = none)) (work.logged false context) (work.logged true other) := by
  induction work generalizing context other with
  | done => exact .nil
  | log call _ rest ih => exact .cons ⟨rfl, h⟩ (ih h)
  | within path id inner rest ihInner ihRest => exact List.rel_append (ihInner (Or.inl rfl)) (ihRest (Or.inr rfl))

/-- The two readings are the same when nothing logs behind nested work but further nested work. -/
theorem logged_eq_iff (work : Work) (nested : Bool) (file : FileContext) :
    work.logged false (if nested then none else some file) = work.logged true (some file) ↔ work.nestsLast nested := by
  induction work generalizing nested file with
  | done => exact ⟨fun _ => rfl, fun _ => rfl⟩
  | log call _ rest ih =>
    have hrest := ih nested file
    cases nested with
    | false => simpa [logged, nestsLast] using hrest
    | true => simp [logged, nestsLast]
  | within path id inner rest ihInner ihRest =>
    have hlength := (forall₂_logged inner (Or.inl (rfl : some ⟨path, id⟩ = _))).length_eq
    have hinner := ihInner false ⟨path, id⟩
    have hrest := ihRest true file
    simp only [Bool.false_eq_true, if_false, if_true] at hinner hrest
    rw [logged, logged, nestsLast, Bool.and_eq_true, ← hinner, ← hrest]
    constructor
    · exact fun h => List.append_inj h hlength
    · rintro ⟨hi, hr⟩
      simp [hi, hr]

end Work

end Lexing
