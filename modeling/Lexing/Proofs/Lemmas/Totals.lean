import Lexing.Proofs.Lemmas.Ledger
import Mathlib.Data.Finset.Card
import Mathlib.Data.List.DropRight

/-!
# Totals of a ledger

A ledger sees a file when an event is recorded for it, or when it is entered as one that is worked on. What was seen since the ledger
was cleared last decides which files its two tables hold (`Reflects`): none is held that was not seen, and each that was entered is.
So the totals, which are counted over the tables, are counts over the files seen (`Reflects.countP_events`). Only the number of all
files is another matter: it is that of the longer table, which is the number of files seen exactly when one table holds the files of
the other (`Path.max_length_distinct_eq_iff`).
-/

namespace Lexing

/-! ## Spellings and files -/

namespace Path

variable {path : Path} {paths others : List Path}

/-- Paths with one spelling left of each file. -/
def distinct (paths : List Path) : List Path := paths.pwFilter fun a b => a.parts ≠ b.parts

/-- Each of some paths is a spelling of one of the others. -/
def Among (paths others : List Path) : Prop := ∀ path ∈ paths, ∃ other ∈ others, other.parts = path.parts

theorem pairwise_distinct (paths : List Path) : (distinct paths).Pairwise fun a b => a.parts ≠ b.parts :=
  List.pairwise_pwFilter _

theorem mem_of_mem_distinct (h : path ∈ distinct paths) : path ∈ paths := List.pwFilter_subset _ h

/-- No file is lost with its other spellings. -/
theorem among_distinct (paths : List Path) : Among paths (distinct paths) := by
  intro path hp
  by_contra hnone
  have hapart : ∀ file ∈ distinct paths, path.parts ≠ file.parts := by
    intro file hf heq
    exact hnone ⟨file, hf, heq.symm⟩
  refine (List.forall_mem_pwFilter ?_ path paths).1 hapart path hp rfl
  intro a b c hac
  by_cases hab : a.parts = b.parts
  · exact Or.inr (hab ▸ hac)
  · exact Or.inl hab

/-- There are as many files as there are lists of parts. -/
theorem length_distinct (paths : List Path) : (distinct paths).length = (paths.map parts).toFinset.card := by
  rw [List.card_toFinset, List.dedup, List.pwFilter_map, List.length_map]
  rfl

theorem among_iff_subset : Among paths others ↔ (paths.map parts).toFinset ⊆ (others.map parts).toFinset := by
  simp only [Among, Finset.subset_iff, List.mem_toFinset, List.mem_map, forall_exists_index, and_imp, forall_apply_eq_imp_iff₂]

/-- Of two lists of paths neither names more files than both together. -/
theorem max_length_distinct_le (paths others : List Path) :
    max (distinct paths).length (distinct others).length ≤ (distinct (paths ++ others)).length := by
  simp only [length_distinct, List.map_append, List.toFinset_append]
  exact max_le (Finset.card_le_card Finset.subset_union_left) (Finset.card_le_card Finset.subset_union_right)

/-- The longer of two lists of files has all files of both exactly when it has the files of the other. -/
theorem max_length_distinct_eq_iff (paths others : List Path) :
    max (distinct paths).length (distinct others).length = (distinct (paths ++ others)).length ↔
      Among paths others ∨ Among others paths := by
  simp only [length_distinct, List.map_append, List.toFinset_append, among_iff_subset]
  generalize (paths.map parts).toFinset = s
  generalize (others.map parts).toFinset = t
  constructor
  · intro h
    rcases Nat.le_total s.card t.card with hle | hle
    · rw [max_eq_right hle] at h
      have heq := Finset.eq_of_subset_of_card_le Finset.subset_union_right (Nat.le_of_eq h.symm)
      exact Or.inl (heq ▸ Finset.subset_union_left)
    · rw [max_eq_left hle] at h
      have heq := Finset.eq_of_subset_of_card_le Finset.subset_union_left (Nat.le_of_eq h.symm)
      exact Or.inr (heq ▸ Finset.subset_union_right)
  · rintro (hsub | hsub)
    · rw [Finset.union_eq_right.2 hsub, max_eq_right (Finset.card_le_card hsub)]
    · rw [Finset.union_eq_left.2 hsub, max_eq_left (Finset.card_le_card hsub)]

end Path

namespace Ledger

/-! ## Actions -/

/-- What is done with a ledger. -/
inductive Action where
  /-- An event is recorded for a file. -/
  | record (path : Path) (event : Event)
  /-- A file is entered as one that is worked on. -/
  | enter (path : Path) (id : Nat)
  /-- The ledger is cleared. -/
  | clear
deriving DecidableEq, Repr

/-- Does one thing with a ledger. -/
def apply (limits : Limits) (ledger : Ledger) : Action → Ledger
  | .record path event => ledger.record limits path event
  | .enter path id => ledger.recordContext path id
  | .clear => ledger.clear

/-- Does one thing after another. -/
def applyAll (limits : Limits) (ledger : Ledger) (actions : List Action) : Ledger := actions.foldl (apply limits) ledger

/-- The actions behind the last one that clears the ledger. -/
def sinceClear (actions : List Action) : List Action := actions.rtakeWhile fun action => action ≠ .clear

/-- The record that an action makes. -/
def Action.record? : Action → Option (Path × Event)
  | .record path event => some (path, event)
  | _ => none

/-- The file that an action enters. -/
def Action.entered? : Action → Option Path
  | .enter path _ => some path
  | _ => none

/-- The records since the ledger was cleared last. -/
def recordsOf (actions : List Action) : List (Path × Event) := (sinceClear actions).filterMap Action.record?

/-- The files that events were recorded for since then, as they were spelled. -/
def recordedPaths (actions : List Action) : List Path := (recordsOf actions).map Prod.fst

/-- The files that were entered since then, as they were spelled. -/
def enteredPaths (actions : List Action) : List Path := (sinceClear actions).filterMap Action.entered?

/-- The files seen since then, each once. -/
def filesOf (actions : List Action) : List Path := Path.distinct (enteredPaths actions ++ recordedPaths actions)

/-- The warnings kept for a file. -/
def warningsOf (ledger : Ledger) (path : Path) : List Event := (ledger.eventsOf path).filter Event.isWarning

/-- Whether a warning is kept for a file. -/
def hasWarnings (ledger : Ledger) (path : Path) : Bool := !(ledger.warningsOf path).isEmpty

/-- Whether neither an error nor a warning is kept for a file. -/
def isQuiet (ledger : Ledger) (path : Path) : Bool := !ledger.hasErrors path && !ledger.hasWarnings path

variable {limits : Limits} {actions : List Action} {ledger : Ledger} {path : Path} {event : Event} {id : Nat}

theorem applyAll_concat (limits : Limits) (ledger : Ledger) (actions : List Action) (action : Action) :
    applyAll limits ledger (actions ++ [action]) = (applyAll limits ledger actions).apply limits action := by
  rw [applyAll, List.foldl_append]
  rfl

theorem sinceClear_concat_clear (actions : List Action) : sinceClear (actions ++ [.clear]) = [] :=
  List.rtakeWhile_concat_neg _ _ _ (by simp)

theorem sinceClear_concat {action : Action} (h : action ≠ .clear) (actions : List Action) :
    sinceClear (actions ++ [action]) = sinceClear actions ++ [action] :=
  List.rtakeWhile_concat_pos _ _ _ (by simpa using h)

/-! ### What was seen -/

@[simp] theorem recordsOf_concat_record (actions : List Action) (path : Path) (event : Event) :
    recordsOf (actions ++ [.record path event]) = recordsOf actions ++ [(path, event)] := by
  rw [recordsOf, sinceClear_concat (by simp), List.filterMap_append]
  rfl

@[simp] theorem recordsOf_concat_enter (actions : List Action) (path : Path) (id : Nat) :
    recordsOf (actions ++ [.enter path id]) = recordsOf actions := by
  rw [recordsOf, sinceClear_concat (by simp), List.filterMap_append]
  exact List.append_nil _

@[simp] theorem recordsOf_concat_clear (actions : List Action) : recordsOf (actions ++ [.clear]) = [] := by
  rw [recordsOf, sinceClear_concat_clear]
  rfl

@[simp] theorem enteredPaths_concat_record (actions : List Action) (path : Path) (event : Event) :
    enteredPaths (actions ++ [.record path event]) = enteredPaths actions := by
  rw [enteredPaths, sinceClear_concat (by simp), List.filterMap_append]
  exact List.append_nil _

@[simp] theorem enteredPaths_concat_enter (actions : List Action) (path : Path) (id : Nat) :
    enteredPaths (actions ++ [.enter path id]) = enteredPaths actions ++ [path] := by
  rw [enteredPaths, sinceClear_concat (by simp), List.filterMap_append]
  rfl

@[simp] theorem enteredPaths_concat_clear (actions : List Action) : enteredPaths (actions ++ [.clear]) = [] := by
  rw [enteredPaths, sinceClear_concat_clear]
  rfl

/-! ## What the tables hold -/

/-- A ledger holds what was seen since it was cleared: of the events what it keeps of the records, and exactly the files that were
entered. -/
structure Reflects (limits : Limits) (actions : List Action) (ledger : Ledger) : Prop where
  follows : Follows limits (recordsOf actions) ledger
  sorted : Assoc.Sorted Path.compare ledger.contexts
  entered : ∀ path, (Assoc.get? Path.compare path ledger.contexts).isSome ↔
    ∃ other ∈ enteredPaths actions, other.parts = path.parts

theorem reflects_empty (limits : Limits) : Reflects limits [] empty where
  follows := follows_empty limits
  sorted := List.Pairwise.nil
  entered path := by simp [empty, Assoc.get?, enteredPaths, sinceClear]

theorem Reflects.record (h : Reflects limits actions ledger) (path : Path) (event : Event) :
    Reflects limits (actions ++ [.record path event]) (ledger.record limits path event) := by
  have hcontexts : (ledger.record limits path event).contexts = ledger.contexts := by
    unfold Ledger.record
    split <;> rfl
  refine ⟨?_, ?_, ?_⟩
  · rw [recordsOf_concat_record]
    exact h.follows.record path event
  · rw [hcontexts]
    exact h.sorted
  · intro other
    rw [hcontexts, enteredPaths_concat_record]
    exact h.entered other

theorem Reflects.enter (h : Reflects limits actions ledger) (path : Path) (id : Nat) :
    Reflects limits (actions ++ [.enter path id]) (ledger.recordContext path id) := by
  refine ⟨?_, h.sorted.insert path id, ?_⟩
  · rw [recordsOf_concat_enter]
    exact h.follows.recordContext path id
  · intro other
    rw [enteredPaths_concat_enter]
    by_cases heq : Path.compare other path = .eq
    · have hfound : (Assoc.get? Path.compare other (ledger.recordContext path id).contexts).isSome := by
        rw [Assoc.get?_congr heq, recordContext, Assoc.get?_insert_self h.sorted]
        rfl
      exact iff_of_true hfound ⟨path, by simp, (Path.compare_eq_iff.1 heq).symm⟩
    · have hne : path.parts ≠ other.parts := fun hp => heq (Path.compare_eq_iff.2 hp.symm)
      rw [recordContext, Assoc.get?_insert_other heq, h.entered]
      simp [or_and_right, exists_or, hne]

theorem reflects_clear (limits : Limits) (actions : List Action) (ledger : Ledger) :
    Reflects limits (actions ++ [.clear]) ledger.clear := by
  have hempty := reflects_empty limits
  refine ⟨?_, hempty.sorted, ?_⟩
  · rw [recordsOf_concat_clear]
    exact hempty.follows
  · intro path
    rw [enteredPaths_concat_clear]
    exact hempty.entered path

/-- Whatever was done with a ledger that was empty. -/
theorem reflects_applyAll (limits : Limits) (actions : List Action) : Reflects limits actions (applyAll limits empty actions) := by
  induction actions using List.reverseRecOn with
  | nil => exact reflects_empty limits
  | append_singleton actions action ih =>
    rw [applyAll_concat]
    cases action with
    | record path event => exact ih.record path event
    | enter path id => exact ih.enter path id
    | clear => exact reflects_clear limits actions (applyAll limits empty actions)

/-! ## Counts over files -/

/-- A test that fails on no events holds of what is kept of a file exactly when the file is in the table and it holds there. -/
theorem any_get?_eq (ledger : Ledger) {test : List Event → Bool} (h : test [] = false) (path : Path) :
    (Assoc.get? Path.compare path ledger.events).any (fun events => test events.toList) = test (ledger.eventsOf path) := by
  rw [eventsOf]
  cases Assoc.get? Path.compare path ledger.events with
  | none => exact h.symm
  | some events => rfl

variable {files : List Path}

/-- The files in the table of events were recorded. -/
theorem Reflects.exists_recorded (h : Reflects limits actions ledger) (hall : Path.Among (recordedPaths actions) files) :
    ∀ entry ∈ ledger.events, ∃ file ∈ files, file.parts = entry.1.parts := by
  intro entry he
  obtain ⟨earlier, hr, hp⟩ := h.follows.recorded entry he
  obtain ⟨file, hf, hfile⟩ := hall earlier.1 (List.mem_map_of_mem hr)
  exact ⟨file, hf, hfile.trans hp⟩

/-- The files in the other table were entered. -/
theorem Reflects.exists_entered (h : Reflects limits actions ledger) (hall : Path.Among (enteredPaths actions) files) :
    ∀ entry ∈ ledger.contexts, ∃ file ∈ files, file.parts = entry.1.parts := by
  intro entry he
  have hfound : (Assoc.get? Path.compare entry.1 ledger.contexts).isSome := by
    rw [Assoc.get?_of_mem h.sorted he]
    rfl
  obtain ⟨other, ho, hp⟩ := (h.entered entry.1).1 hfound
  obtain ⟨file, hf, hfile⟩ := hall other ho
  exact ⟨file, hf, hfile.trans hp⟩

/-- The entries of the table of events whose events pass a test are as many as the files whose events do. -/
theorem Reflects.countP_events (h : Reflects limits actions ledger) (test : List Event → Bool) (hnone : test [] = false)
    (hapart : files.Pairwise fun a b => a.parts ≠ b.parts) (hall : Path.Among (recordedPaths actions) files) :
    (ledger.events.map Prod.snd).countP (fun events => test events.toList) =
      files.countP fun file => test (ledger.eventsOf file) := by
  rw [Assoc.countP_values h.follows.sorted _ (Path.pairwise_compare_ne hapart)
    (Path.exists_compare_eq (h.exists_recorded hall))]
  simp only [any_get?_eq ledger hnone]

/-- A sum over the table of events is one over the files. -/
theorem Reflects.total_events (h : Reflects limits actions ledger) (measure : List Event → Nat) (hnone : measure [] = 0)
    (hapart : files.Pairwise fun a b => a.parts ≠ b.parts) (hall : Path.Among (recordedPaths actions) files) :
    Assoc.total (fun _ events => measure events.toList) ledger.events =
      (files.map fun file => measure (ledger.eventsOf file)).sum :=
  total_eq_sum_eventsOf h.follows.sorted measure hnone hapart (h.exists_recorded hall)

/-- The files seen are told apart. -/
theorem pairwise_filesOf (actions : List Action) : (filesOf actions).Pairwise fun a b => a.parts ≠ b.parts :=
  Path.pairwise_distinct _

/-- The files seen hold those that events were recorded for. -/
theorem among_recorded_filesOf (actions : List Action) : Path.Among (recordedPaths actions) (filesOf actions) := by
  intro path hp
  exact Path.among_distinct _ path (List.mem_append_right _ hp)

/-- A file that events are kept for is among the files seen. -/
theorem Reflects.exists_file (h : Reflects limits actions ledger) (hkept : ledger.eventsOf path ≠ []) :
    ∃ file ∈ filesOf actions, file.parts = path.parts := by
  have hrecorded : eventsFor (recordsOf actions) path ≠ [] := by
    intro hnil
    have hbegins := h.follows.begins path
    rw [hnil, portion_of_le (Nat.zero_le _)] at hbegins
    exact hkept (List.prefix_nil.1 hbegins)
  obtain ⟨entry, he, hp⟩ := exists_of_eventsFor_ne_nil hrecorded
  obtain ⟨file, hf, hfile⟩ := among_recorded_filesOf actions entry.1 (List.mem_map_of_mem he)
  exact ⟨file, hf, hfile.trans hp⟩

/-- There is an entry in the table of files for each file that was entered. -/
theorem Reflects.length_contexts (h : Reflects limits actions ledger) :
    ledger.contexts.length = (Path.distinct (enteredPaths actions)).length := by
  have hcount := Assoc.countP_values h.sorted (fun _ => true) (Path.pairwise_compare_ne (Path.pairwise_distinct _))
    (Path.exists_compare_eq (h.exists_entered (Path.among_distinct _)))
  have hall : ∀ file ∈ Path.distinct (enteredPaths actions),
      ((Assoc.get? Path.compare file ledger.contexts).any fun _ => true) = true := by
    intro file hf
    obtain ⟨id, hid⟩ := Option.isSome_iff_exists.1 ((h.entered file).2 ⟨file, Path.mem_of_mem_distinct hf, rfl⟩)
    rw [hid]
    rfl
  rw [List.countP_eq_length.2 hall, List.countP_true, List.length_map] at hcount
  exact hcount

/-- There is an entry in the table of events for each file that events are kept for. -/
theorem Reflects.length_events (h : Reflects limits actions ledger) (hapart : files.Pairwise fun a b => a.parts ≠ b.parts)
    (hall : Path.Among (recordedPaths actions) files) :
    ledger.events.length = files.countP fun file => !(ledger.eventsOf file).isEmpty := by
  rw [← h.countP_events (fun events => !events.isEmpty) rfl hapart hall, ← List.length_map Prod.snd, eq_comm,
    List.countP_eq_length]
  intro events he
  obtain ⟨entry, hentry, rfl⟩ := List.mem_map.1 he
  simpa using h.follows.nonempty entry hentry

theorem errorCount_eq (events : Array Event) : errorCount events = (events.toList.filter Event.isError).length := by
  rw [errorCount, ← Array.countP_toList, List.countP_eq_length_filter]

theorem warningCount_eq (events : Array Event) : warningCount events = (events.toList.filter Event.isWarning).length := by
  rw [warningCount, ← Array.countP_toList, List.countP_eq_length_filter]

theorem decide_length_pos (events : List Event) : decide (0 < events.length) = !events.isEmpty := by
  cases events <;> rfl

theorem decide_length_eq_zero (events : List Event) : decide (events.length = 0) = events.isEmpty := by
  cases events <;> rfl

/-- The totals of a ledger are counts over the files seen since it was cleared. -/
theorem Reflects.exists_summary (h : Reflects limits actions ledger) : ∃ summary, ledger.summary = .ok summary ∧
    summary.files = max (Path.distinct (enteredPaths actions)).length
      ((filesOf actions).countP fun file => !(ledger.eventsOf file).isEmpty) ∧
    summary.failed = (filesOf actions).countP ledger.hasErrors ∧
    summary.warned = (filesOf actions).countP (fun file => !ledger.hasErrors file && ledger.hasWarnings file) ∧
    summary.failed + summary.warned + summary.successful = summary.files ∧
    summary.errors = ((filesOf actions).map fun file => (ledger.errorsOf file).length).sum ∧
    summary.warnings = ((filesOf actions).map fun file => (ledger.warningsOf file).length).sum := by
  have hapart := pairwise_filesOf actions
  have hall := among_recorded_filesOf actions
  obtain ⟨summary, hok, hfiles, hfailed, hwarned, hsum, herrors, hwarnings⟩ := exists_summary_eq ledger
  refine ⟨summary, hok, ?_, ?_, ?_, hsum, ?_, ?_⟩
  · rw [hfiles, h.length_contexts, h.length_events hapart hall]
  · simp only [hfailed, errorCount_eq, decide_length_pos]
    exact h.countP_events (fun events => !(events.filter Event.isError).isEmpty) rfl hapart hall
  · simp only [hwarned, errorCount_eq, warningCount_eq, decide_length_pos, decide_length_eq_zero]
    rw [h.countP_events (fun events => (events.filter Event.isError).isEmpty && !(events.filter Event.isWarning).isEmpty) rfl
      hapart hall]
    simp only [hasErrors, hasWarnings, Bool.not_not]
    rfl
  · simp only [herrors, errorCount_eq]
    exact h.total_events (fun events => (events.filter Event.isError).length) rfl hapart hall
  · simp only [hwarnings, warningCount_eq]
    exact h.total_events (fun events => (events.filter Event.isWarning).length) rfl hapart hall

/-- No event is an error and a warning at once. -/
theorem length_errors_add_length_warnings_le (events : List Event) :
    (events.filter Event.isError).length + (events.filter Event.isWarning).length ≤ events.length := by
  induction events with
  | nil => exact Nat.le_refl 0
  | cons event rest ih =>
    rw [List.filter_cons, List.filter_cons, List.length_cons]
    cases hlevel : event.level <;> simp [Event.isError, Event.isWarning, hlevel] <;> omega

/-- The errors and warnings kept are among the events kept. -/
theorem Reflects.sum_errors_add_sum_warnings_le (h : Reflects limits actions ledger) :
    ((filesOf actions).map fun file => (ledger.errorsOf file).length).sum +
      ((filesOf actions).map fun file => (ledger.warningsOf file).length).sum ≤ ledger.size := by
  have hsize : ledger.size = ((filesOf actions).map fun file => (ledger.eventsOf file).length).sum :=
    h.total_events List.length rfl (pairwise_filesOf actions) (among_recorded_filesOf actions)
  rw [hsize, ← List.sum_map_add]
  exact List.sum_le_sum fun file _ => length_errors_add_length_warnings_le (ledger.eventsOf file)

/-- Each of some files has failed, or it has warnings and no errors, or it is quiet. -/
theorem length_eq_countP_add (ledger : Ledger) (files : List Path) :
    files.length = files.countP ledger.hasErrors +
      files.countP (fun file => !ledger.hasErrors file && ledger.hasWarnings file) + files.countP ledger.isQuiet := by
  induction files with
  | nil => rfl
  | cons file rest ih =>
    rw [List.length_cons, List.countP_cons, List.countP_cons, List.countP_cons, isQuiet]
    cases ledger.hasErrors file <;> cases ledger.hasWarnings file <;> simp <;> omega

/-- As long as no more is recorded than may be kept in all, events are kept for each file that some were recorded for. -/
theorem Reflects.eventsOf_ne_nil (h : Reflects limits actions ledger)
    (hfew : (recordsOf actions).length ≤ limits.maxErrorCollection) (hp : path ∈ recordedPaths actions) :
    ledger.eventsOf path ≠ [] := by
  obtain ⟨entry, he, rfl⟩ := List.mem_map.1 hp
  have hevent : entry.2 ∈ eventsFor (recordsOf actions) entry.1 := mem_eventsFor_iff.2 ⟨entry.1, he, rfl⟩
  rw [h.follows.complete_of_few hfew]
  exact portion_ne_nil (List.ne_nil_of_mem hevent)

end Ledger

end Lexing
