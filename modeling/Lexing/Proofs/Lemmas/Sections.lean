import Lexing.Proofs.Lemmas.Totals

/-!
# Sections of a report

A report has a section for each file that an error or a warning is kept for, with the errors in front of the warnings, and its text
is made from the sections alone (`report_eq`). The sections are a table in the order of paths, and what is in it is told by what the
ledger keeps (`mem_sections_iff`): for each file the errors and the warnings, each in the order in which they came, and nothing of
how they were mixed. As long as both caps are kept to, that is told by the records in turn, so records that are alike in this
(`Alike`) have the same sections.
-/

namespace Lexing.Ledger

/-- What a section of a report lists: the errors and the warnings of a file. -/
structure Findings where
  errors : List Event
  warnings : List Event
deriving DecidableEq, Repr

namespace Findings

/-- The errors and the warnings among some events. -/
def ofEvents (events : List Event) : Findings := ⟨events.filter Event.isError, events.filter Event.isWarning⟩

/-- The events that a section lists, in order. -/
def entries (findings : Findings) : List Event := findings.errors ++ findings.warnings

end Findings

/-- The text of an entry of a report. -/
def entryText (path : Path) (event : Event) : String :=
  if event.isError then errorEntry path event else warningEntry path event

/-- The text of a section: its heading, an entry for each event, and an empty line. -/
def sectionText (part : Path × Findings) : String :=
  s!"Checking {part.1.text}...\n" ++ String.join (part.2.entries.map (entryText part.1)) ++ "\n"

/-- The text of a report: its sections, and how many errors and warnings there are in them. -/
def reportText (parts : List (Path × Findings)) : String :=
  let errors := (parts.map fun part => part.2.errors.length).sum
  let warnings := (parts.map fun part => part.2.warnings.length).sum
  String.join (parts.map sectionText) ++ (if 0 < errors then s!"Total errors: {errors}\n" else "") ++
    if 0 < warnings then s!"Total warnings: {warnings}\n" else ""

/-- The section of a file, if it has one. -/
def sectionOf? (entry : Path × Array Event) : Option (Path × Findings) :=
  let findings := Findings.ofEvents entry.2.toList
  if findings.entries = [] then none else some (entry.1, findings)

/-- The sections of the report on a ledger. -/
def sections (ledger : Ledger) : List (Path × Findings) := ledger.events.filterMap sectionOf?

/-- The entries of a report, each with its file. -/
def entriesOf (parts : List (Path × Findings)) : List (Path × Event) :=
  parts.flatMap fun part => part.2.entries.map fun event => (part.1, event)

variable {limits : Limits} {records others : List (Path × Event)} {ledger : Ledger} {path other : Path} {event : Event}

/-! ## The text of a report -/

theorem entryText_of_isError (h : event.isError) (path : Path) : entryText path event = errorEntry path event := if_pos h

theorem entryText_of_isWarning (h : event.isWarning) (path : Path) : entryText path event = warningEntry path event := by
  have hlevel : event.level = .warning := by simpa [Event.isWarning] using h
  exact if_neg (by simp [Event.isError, hlevel])

/-- Errors have the entries of errors, and warnings those of warnings. -/
theorem join_entries_ofEvents (path : Path) (events : List Event) :
    String.join ((Findings.ofEvents events).entries.map (entryText path)) =
      String.join ((events.filter Event.isError).map (errorEntry path)) ++
        String.join ((events.filter Event.isWarning).map (warningEntry path)) := by
  have herrors : (events.filter Event.isError).map (entryText path) = (events.filter Event.isError).map (errorEntry path) :=
    List.map_congr_left fun event he => entryText_of_isError (List.mem_filter.1 he).2 path
  have hwarnings : (events.filter Event.isWarning).map (entryText path) =
      (events.filter Event.isWarning).map (warningEntry path) :=
    List.map_congr_left fun event he => entryText_of_isWarning (List.mem_filter.1 he).2 path
  rw [Findings.entries, Findings.ofEvents, List.map_append, herrors, hwarnings, String.join_append]

theorem entries_ofEvents_eq_nil_iff {events : List Event} : (Findings.ofEvents events).entries = [] ↔
    events.filter Event.isError = [] ∧ events.filter Event.isWarning = [] := List.append_eq_nil_iff

/-- The report on a file is the text of its section, if it has one. -/
theorem fileReport_eq (entry : Path × Array Event) :
    fileReport entry.1 entry.2.toList = ((sectionOf? entry).map sectionText).getD "" := by
  unfold fileReport sectionOf?
  by_cases h : (Findings.ofEvents entry.2.toList).entries = []
  · obtain ⟨herrors, hwarnings⟩ := entries_ofEvents_eq_nil_iff.1 h
    simp [h, herrors, hwarnings]
  · have hsome : ¬((entry.2.toList.filter Event.isError).isEmpty && (entry.2.toList.filter Event.isWarning).isEmpty) := by
      simpa [entries_ofEvents_eq_nil_iff] using h
    simp only [h, if_false, if_neg hsome, Option.map_some, Option.getD_some, sectionText, join_entries_ofEvents,
      String.append_assoc]

theorem sectionOf?_eq_none_iff {entry : Path × Array Event} :
    sectionOf? entry = none ↔ (Findings.ofEvents entry.2.toList).entries = [] := by
  simp [sectionOf?]

theorem sectionOf?_eq_some_iff {entry : Path × Array Event} {part : Path × Findings} : sectionOf? entry = some part ↔
    (Findings.ofEvents entry.2.toList).entries ≠ [] ∧ part = (entry.1, Findings.ofEvents entry.2.toList) := by
  unfold sectionOf?
  by_cases h : (Findings.ofEvents entry.2.toList).entries = []
  · simp [h]
  · simp only [h, if_false, Option.some.injEq, ne_eq, not_false_eq_true, true_and]
    exact eq_comm

/-- The reports on the files make up the texts of the sections. -/
theorem join_fileReports (table : List (Path × Array Event)) :
    String.join (table.map fun entry => fileReport entry.1 entry.2.toList) =
      String.join ((table.filterMap sectionOf?).map sectionText) := by
  induction table with
  | nil => rfl
  | cons entry rest ih =>
    rw [List.map_cons, String.join_cons, ih, fileReport_eq]
    cases h : sectionOf? entry with
    | none => simp [h]
    | some part => simp [h]

/-- A sum over the files is one over the sections, when nothing comes from a file without a section. -/
theorem total_findings (measure : Findings → Nat) (hnone : ∀ findings, findings.entries = [] → measure findings = 0)
    (table : List (Path × Array Event)) :
    Assoc.total (fun _ events => measure (Findings.ofEvents events.toList)) table =
      ((table.filterMap sectionOf?).map fun part => measure part.2).sum := by
  induction table with
  | nil => rfl
  | cons entry rest ih =>
    rw [Assoc.total, ih]
    cases h : sectionOf? entry with
    | none =>
      rw [List.filterMap_cons_none h, hnone _ (sectionOf?_eq_none_iff.1 h), Nat.zero_add]
    | some part =>
      rw [List.filterMap_cons_some h, List.map_cons, List.sum_cons, (sectionOf?_eq_some_iff.1 h).2]

/-- The report on a ledger is made from its sections. -/
theorem report_eq (ledger : Ledger) : ledger.report = .ok (reportText (sections ledger)) := by
  obtain ⟨summary, hok, -, -, -, -, herrors, hwarnings⟩ := exists_summary_eq ledger
  have herrorsOf : summary.errors = ((sections ledger).map fun part => part.2.errors.length).sum := by
    simp only [herrors, errorCount_eq]
    exact total_findings (fun findings => findings.errors.length) (fun _ h => by simp [(List.append_eq_nil_iff.1 h).1])
      ledger.events
  have hwarningsOf : summary.warnings = ((sections ledger).map fun part => part.2.warnings.length).sum := by
    simp only [hwarnings, warningCount_eq]
    exact total_findings (fun findings => findings.warnings.length)
      (fun _ h => by simp [(List.append_eq_nil_iff.1 h).2]) ledger.events
  have hjoin := join_fileReports ledger.events
  unfold report
  simp only [hok, bind, Except.bind, pure, Except.pure, herrorsOf, hwarningsOf]
  rw [hjoin]
  rfl

/-! ## The sections of a ledger -/

/-- A file has a section when an error or a warning is kept for it, and the section lists these. -/
theorem mem_sections_iff (h : Assoc.Sorted Path.compare ledger.events) {part : Path × Findings} : part ∈ sections ledger ↔
    (∃ events, (part.1, events) ∈ ledger.events) ∧ part.2 = .ofEvents (ledger.eventsOf part.1) ∧ part.2.entries ≠ [] := by
  have hkept : ∀ entry ∈ ledger.events, ledger.eventsOf entry.1 = entry.2.toList := by
    intro entry he
    rw [eventsOf, Assoc.get?_of_mem h he]
    rfl
  rw [sections, List.mem_filterMap]
  constructor
  · rintro ⟨entry, he, hsection⟩
    obtain ⟨hne, rfl⟩ := sectionOf?_eq_some_iff.1 hsection
    exact ⟨⟨entry.2, he⟩, by rw [hkept entry he], hne⟩
  · rintro ⟨⟨events, he⟩, hfindings, hne⟩
    have hevents : ledger.eventsOf part.1 = events.toList := hkept (part.1, events) he
    rw [hevents] at hfindings
    exact ⟨(part.1, events), he, sectionOf?_eq_some_iff.2 ⟨hfindings ▸ hne, Prod.ext rfl hfindings⟩⟩

/-- The sections are in the order of paths, and no file has two. -/
theorem sorted_sections (h : Assoc.Sorted Path.compare ledger.events) : Assoc.Sorted Path.compare (sections ledger) := by
  refine List.Pairwise.filterMap sectionOf? ?_ h
  intro a b hlt part hpart other hother
  rw [(sectionOf?_eq_some_iff.1 hpart).2, (sectionOf?_eq_some_iff.1 hother).2]
  exact hlt

/-- A file that events are kept for is in the table, in some spelling. -/
theorem exists_mem_of_eventsOf_ne_nil (h : ledger.eventsOf path ≠ []) : ∃ entry ∈ ledger.events, entry.1.parts = path.parts := by
  rw [eventsOf] at h
  cases hget : Assoc.get? Path.compare path ledger.events with
  | none =>
    rw [hget] at h
    exact absurd rfl h
  | some events =>
    obtain ⟨entry, he, heq, -⟩ := Assoc.exists_mem_of_get? hget
    exact ⟨entry, he, (Path.compare_eq_iff.1 heq).symm⟩

/-! ## Entries -/

theorem entriesOf_cons (part : Path × Findings) (parts : List (Path × Findings)) :
    entriesOf (part :: parts) = part.2.entries.map (fun event => (part.1, event)) ++ entriesOf parts := rfl

/-- A file has its findings listed, or nothing when there are none. -/
theorem entriesOf_filterMap_cons (entry : Path × Array Event) (rest : List (Path × Array Event)) :
    entriesOf ((entry :: rest).filterMap sectionOf?) =
      (Findings.ofEvents entry.2.toList).entries.map (fun event => (entry.1, event)) ++ entriesOf (rest.filterMap sectionOf?) := by
  cases h : sectionOf? entry with
  | none => rw [List.filterMap_cons_none h, sectionOf?_eq_none_iff.1 h, List.map_nil, List.nil_append]
  | some part => rw [List.filterMap_cons_some h, entriesOf_cons, (sectionOf?_eq_some_iff.1 h).2]

theorem eventsFor_append (records more : List (Path × Event)) (path : Path) :
    eventsFor (records ++ more) path = eventsFor records path ++ eventsFor more path := by
  rw [eventsFor, List.filter_append, List.map_append]
  rfl

theorem eventsFor_map_of_eq (h : path.parts = other.parts) (events : List Event) :
    eventsFor (events.map fun event => (path, event)) other = events := by
  induction events with
  | nil => rfl
  | cons event rest ih => simp_all [eventsFor]

theorem eventsFor_map_of_ne (h : path.parts ≠ other.parts) (events : List Event) :
    eventsFor (events.map fun event => (path, event)) other = [] := by
  simp [eventsFor, h]

/-- The entries for a file are its findings. -/
theorem eventsFor_entriesOf_filterMap {table : List (Path × Array Event)} (h : Assoc.Sorted Path.compare table) (path : Path) :
    eventsFor (entriesOf (table.filterMap sectionOf?)) path =
      (Findings.ofEvents ((Assoc.get? Path.compare path table).getD #[]).toList).entries := by
  induction table with
  | nil => rfl
  | cons entry rest ih =>
    obtain ⟨hfirst, hrest⟩ := List.pairwise_cons.1 h
    rw [entriesOf_filterMap_cons, eventsFor_append, ih hrest, Assoc.get?]
    by_cases heq : Path.compare path entry.1 = .eq
    · -- The other files come behind this one, so none of them is this one again.
      have hnone : Assoc.get? Path.compare path rest = none := by
        refine Assoc.get?_eq_none_of_lt fun other ho => ?_
        rw [Std.TransCmp.congr_left heq]
        exact hfirst other ho
      rw [if_pos heq, hnone, eventsFor_map_of_eq (Path.compare_eq_iff.1 heq).symm]
      exact List.append_nil _
    · have hne : entry.1.parts ≠ path.parts := fun hp => heq (Path.compare_eq_iff.2 hp.symm)
      rw [if_neg heq, eventsFor_map_of_ne hne, List.nil_append]

/-- A report has an entry for each error that is kept for a file, and then one for each warning. -/
theorem eventsFor_entriesOf_sections (h : Assoc.Sorted Path.compare ledger.events) (path : Path) :
    eventsFor (entriesOf (sections ledger)) path = ledger.errorsOf path ++ ledger.warningsOf path :=
  eventsFor_entriesOf_filterMap h path

/-! ## Empty reports -/

theorem sectionText_ne_empty (part : Path × Findings) : sectionText part ≠ "" := by
  intro h
  have hlength := congrArg String.length h
  simp [sectionText] at hlength

theorem reportText_eq_empty_iff {parts : List (Path × Findings)} : reportText parts = "" ↔ parts = [] := by
  constructor
  · intro h
    cases parts with
    | nil => rfl
    | cons part rest =>
      have hjoin := (String.append_eq_empty_iff.1 (String.append_eq_empty_iff.1 h).1).1
      rw [List.map_cons, String.join_cons, String.append_eq_empty_iff] at hjoin
      exact absurd hjoin.1 (sectionText_ne_empty part)
  · rintro rfl
    rfl

/-- A report is empty exactly when neither an error nor a warning is kept. -/
theorem reportText_sections_eq_empty_iff (h : Assoc.Sorted Path.compare ledger.events) : reportText (sections ledger) = "" ↔
    ∀ path, ∀ event ∈ ledger.eventsOf path, ¬event.isError ∧ ¬event.isWarning := by
  have hentries : ∀ path, eventsFor (entriesOf (sections ledger)) path = [] ↔
      ∀ event ∈ ledger.eventsOf path, ¬event.isError ∧ ¬event.isWarning := by
    intro path
    rw [eventsFor_entriesOf_sections h, List.append_eq_nil_iff, errorsOf, warningsOf, List.filter_eq_nil_iff,
      List.filter_eq_nil_iff, ← forall₂_and]
  rw [reportText_eq_empty_iff]
  constructor
  · intro hnil path
    rw [← hentries, hnil]
    rfl
  · intro hquiet
    refine List.eq_nil_iff_forall_not_mem.2 fun part hpart => ?_
    obtain ⟨-, hfindings, hne⟩ := (mem_sections_iff h).1 hpart
    rw [hfindings] at hne
    refine hne ?_
    rw [← (hentries part.1).2 (hquiet part.1), eventsFor_entriesOf_sections h]
    rfl

/-! ## Records that are alike -/

/-- Records that keep to both caps. -/
structure Fits (limits : Limits) (records : List (Path × Event)) : Prop where
  all_le : records.length ≤ limits.maxErrorCollection
  each_le : ∀ path, (eventsFor records path).length ≤ limits.maxEventsPerFile

/-- Two sequences of records spell each file in one way, and have the same errors of each file in the same order, and the same warnings
of each file in the same order. -/
structure Alike (records others : List (Path × Event)) : Prop where
  spelled : ∀ a ∈ records ++ others, ∀ b ∈ records ++ others, a.1.parts = b.1.parts → a.1 = b.1
  errors_eq : ∀ path, (eventsFor records path).filter Event.isError = (eventsFor others path).filter Event.isError
  warnings_eq : ∀ path, (eventsFor records path).filter Event.isWarning = (eventsFor others path).filter Event.isWarning

theorem Alike.symm (h : Alike records others) : Alike others records := by
  refine ⟨?_, fun path => (h.errors_eq path).symm, fun path => (h.warnings_eq path).symm⟩
  intro a ha b hb
  exact h.spelled a (List.perm_append_comm.subset ha) b (List.perm_append_comm.subset hb)

/-- Everything is kept of records that keep to the caps. -/
theorem Fits.eventsOf_eq (h : Fits limits records) (path : Path) :
    (recordAll limits empty records).eventsOf path = eventsFor records path := by
  rw [(follows_recordAll limits records).complete_of_few h.all_le, portion_of_le (h.each_le path)]

/-- A file is kept as it was spelled in some record. -/
theorem exists_record_of_mem_events (limits : Limits) (records : List (Path × Event)) :
    ∀ entry ∈ (recordAll limits empty records).events, ∃ event, (entry.1, event) ∈ records := by
  induction records using List.reverseRecOn with
  | nil =>
    intro entry he
    cases he
  | append_singleton records last ih =>
    intro entry he
    have hearlier : (∃ event, (entry.1, event) ∈ records) → ∃ event, (entry.1, event) ∈ records ++ [last] :=
      fun ⟨event, hevent⟩ => ⟨event, List.mem_append_left _ hevent⟩
    rw [recordAll_append] at he
    rcases Nat.lt_or_ge (recordAll limits empty records).size limits.maxErrorCollection with hroom | hfull
    · rw [recordAll, List.foldl_cons, List.foldl_nil, record_of_room hroom] at he
      rcases Assoc.key_of_mem_alter he with hkey | ⟨old, ho, hkey⟩
      · rw [hkey]
        exact ⟨last.2, List.mem_append_right _ List.mem_cons_self⟩
      · rw [hkey] at hearlier ⊢
        exact hearlier (ih old ho)
    · rw [recordAll_of_full hfull] at he
      exact hearlier (ih entry he)

/-- A section of a report is one of the report on records that are alike. -/
theorem Alike.mem_sections (h : Alike records others) (hfits : Fits limits records) (hfits' : Fits limits others)
    {part : Path × Findings} (hpart : part ∈ sections (recordAll limits empty records)) :
    part ∈ sections (recordAll limits empty others) := by
  have hsorted := (follows_recordAll limits records).sorted
  have hsorted' := (follows_recordAll limits others).sorted
  obtain ⟨⟨events, he⟩, hfindings, hne⟩ := (mem_sections_iff hsorted).1 hpart
  have hsame : Findings.ofEvents (eventsFor records part.1) = Findings.ofEvents (eventsFor others part.1) := by
    rw [Findings.ofEvents, Findings.ofEvents, h.errors_eq, h.warnings_eq]
  rw [hfits.eventsOf_eq, hsame] at hfindings
  refine (mem_sections_iff hsorted').2 ⟨?_, by rw [hfits'.eventsOf_eq, hfindings], hne⟩
  -- The findings are not empty, so the file is in the other table, too, and spelled as it is here.
  have hkept : (recordAll limits empty others).eventsOf part.1 ≠ [] := by
    rw [hfits'.eventsOf_eq]
    intro hnil
    rw [hfindings, hnil] at hne
    exact hne rfl
  obtain ⟨entry, hentry, hp⟩ := exists_mem_of_eventsOf_ne_nil hkept
  obtain ⟨first, hfirst⟩ := exists_record_of_mem_events limits records (part.1, events) he
  obtain ⟨second, hsecond⟩ := exists_record_of_mem_events limits others entry hentry
  have hspelled : entry.1 = part.1 :=
    h.spelled _ (List.mem_append_right _ hsecond) _ (List.mem_append_left _ hfirst) hp
  exact ⟨entry.2, hspelled ▸ hentry⟩

/-- Records that are alike have the same sections. -/
theorem Alike.sections_eq (h : Alike records others) (hfits : Fits limits records) (hfits' : Fits limits others) :
    sections (recordAll limits empty records) = sections (recordAll limits empty others) := by
  refine (sorted_sections (follows_recordAll limits records).sorted).eq_of_mem_iff
    (sorted_sections (follows_recordAll limits others).sorted) fun part => ?_
  exact ⟨h.mem_sections hfits hfits', h.symm.mem_sections hfits' hfits⟩

end Lexing.Ledger
