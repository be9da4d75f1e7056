import Lexing.Diagnostic.Ledger
import Lexing.Proofs.Lemmas.Tables
import Mathlib.Algebra.Order.BigOperators.Group.List
import Mathlib.Algebra.Order.Group.Nat
import Mathlib.Data.List.Induction
import Mathlib.Data.List.Infix

/-!
# What a ledger keeps

Of the events of one file a ledger with room keeps a portion: the first so many, and the notice when there were more. `Follows`
says what a ledger has kept of a sequence of records, and how: it holds of the empty ledger, and one more record keeps it
(`Follows.record`), so it holds after every sequence (`follows_recordAll`).
-/

namespace Lexing.Ledger

variable {limits : Limits} {records : List (Path × Event)} {ledger : Ledger} {path other : Path} {event : Event}

/-- Records events one after another, each for its file. -/
def recordAll (limits : Limits) (ledger : Ledger) (records : List (Path × Event)) : Ledger :=
  records.foldl (fun ledger entry => ledger.record limits entry.1 entry.2) ledger

/-- The events of a sequence of records that are for one file. Spellings with the same parts are one file. -/
def eventsFor (records : List (Path × Event)) (path : Path) : List Event :=
  (records.filter fun entry => entry.1.parts = path.parts).map Prod.snd

/-- The portion of a file's events that a ledger with room keeps: the first so many, and one notice when there were more. -/
def portion (limits : Limits) (events : List Event) : List Event :=
  events.take limits.maxEventsPerFile ++ if limits.maxEventsPerFile < events.length then [overflowNotice limits] else []

/-! ## The portion of one file -/

theorem portion_of_le {events : List Event} (h : events.length ≤ limits.maxEventsPerFile) : portion limits events = events := by
  rw [portion, if_neg (Nat.not_lt.2 h), List.append_nil, List.take_of_length_le h]

theorem portion_of_lt {events : List Event} (h : limits.maxEventsPerFile < events.length) :
    portion limits events = events.take limits.maxEventsPerFile ++ [overflowNotice limits] := by
  rw [portion, if_pos h]

/-- Something is kept of any events. -/
theorem portion_ne_nil {events : List Event} (h : events ≠ []) : portion limits events ≠ [] := by
  rcases Nat.lt_or_ge limits.maxEventsPerFile events.length with hlt | hle
  · rw [portion_of_lt hlt]
    exact List.concat_ne_nil _ _
  · rwa [portion_of_le hle]

/-- A portion holds events of its file, and the notice. -/
theorem mem_or_eq_of_mem_portion {events : List Event} (h : event ∈ portion limits events) :
    event ∈ events ∨ event = overflowNotice limits := by
  rcases List.mem_append.1 h with h | h
  · exact Or.inl (List.mem_of_mem_take h)
  · split at h
    · exact Or.inr (List.mem_singleton.1 h)
    · cases h

/-- One more event makes a portion longer or leaves it as it is. -/
theorem portion_prefix_append (limits : Limits) (events : List Event) (event : Event) :
    portion limits events <+: portion limits (events ++ [event]) := by
  rcases Nat.lt_or_ge limits.maxEventsPerFile events.length with hlt | hle
  · have hmore : limits.maxEventsPerFile < (events ++ [event]).length := by
      rw [List.length_append]
      exact Nat.lt_add_right _ hlt
    rw [portion_of_lt hlt, portion_of_lt hmore, List.take_append_of_le_length (Nat.le_of_lt hlt)]
  · rw [portion_of_le hle, portion, List.take_append, List.take_of_length_le hle, List.append_assoc]
    exact List.prefix_append _ _

/-- Keeping one more event of a file whose portion is kept. -/
theorem keep_portion {kept : Array Event} {events : List Event} (h : kept.toList = portion limits events) (event : Event) :
    (keep limits event kept).toList = portion limits (events ++ [event]) := by
  have hsize : kept.size = (portion limits events).length := by rw [← h, Array.length_toList]
  rcases Nat.lt_trichotomy events.length limits.maxEventsPerFile with hlt | heq | hgt
  · have hmore : (events ++ [event]).length ≤ limits.maxEventsPerFile := by
      rw [List.length_append]
      exact hlt
    rw [portion_of_le (Nat.le_of_lt hlt)] at h hsize
    rw [keep, if_pos (hsize ▸ hlt), Array.toList_push, h, portion_of_le hmore]
  · have hmore : limits.maxEventsPerFile < (events ++ [event]).length := by simp [heq]
    rw [portion_of_le (Nat.le_of_eq heq)] at h hsize
    rw [keep, if_neg (by omega), if_pos (by omega), Array.toList_push, h, portion_of_lt hmore,
      List.take_append_of_le_length (Nat.le_of_eq heq.symm), List.take_of_length_le (Nat.le_of_eq heq)]
  · have hmore : limits.maxEventsPerFile < (events ++ [event]).length := by
      rw [List.length_append]
      exact Nat.lt_add_right _ hgt
    have hfull : kept.size = limits.maxEventsPerFile + 1 := by
      rw [hsize, portion_of_lt hgt, List.length_append, List.length_take, Nat.min_eq_left (Nat.le_of_lt hgt)]
      rfl
    rw [keep, if_neg (by omega), if_neg (by omega), h, portion_of_lt hgt, portion_of_lt hmore,
      List.take_append_of_le_length (Nat.le_of_lt hgt)]

/-- Keeping an event leaves something kept. -/
theorem keep_ne_empty (limits : Limits) (event : Event) (kept : Array Event) : keep limits event kept ≠ #[] := by
  unfold keep
  split
  · exact Array.push_ne_empty
  · split
    · exact Array.push_ne_empty
    · rename_i hlt hne
      intro he
      subst he
      exact hne (Nat.le_antisymm (Nat.zero_le _) (Nat.not_lt.1 hlt))

/-- Keeping an event makes what is kept longer by one at most. -/
theorem size_keep_le (limits : Limits) (event : Event) (kept : Array Event) : (keep limits event kept).size ≤ kept.size + 1 := by
  unfold keep
  split
  · exact Nat.le_of_eq (Array.size_push event)
  · split
    · exact Nat.le_of_eq (Array.size_push _)
    · exact Nat.le_succ _

/-! ## Records and files -/

@[simp] theorem recordAll_nil (limits : Limits) (ledger : Ledger) : recordAll limits ledger [] = ledger := rfl

@[simp] theorem eventsFor_nil (path : Path) : eventsFor [] path = [] := rfl

theorem recordAll_append (limits : Limits) (ledger : Ledger) (records more : List (Path × Event)) :
    recordAll limits ledger (records ++ more) = recordAll limits (recordAll limits ledger records) more :=
  List.foldl_append

/-- One more record is one more event of its file. -/
theorem eventsFor_append_of_eq (h : path.parts = other.parts) :
    eventsFor (records ++ [(path, event)]) other = eventsFor records other ++ [event] := by
  simp [eventsFor, List.filter_append, h]

/-- One more record is none for the other files. -/
theorem eventsFor_append_of_ne (h : path.parts ≠ other.parts) :
    eventsFor (records ++ [(path, event)]) other = eventsFor records other := by
  simp [eventsFor, List.filter_append, h]

theorem mem_eventsFor_iff :
    event ∈ eventsFor records path ↔ ∃ other, (other, event) ∈ records ∧ other.parts = path.parts := by
  simp [eventsFor]

/-- The events of a file are those of each of its spellings. -/
theorem eventsFor_congr (h : path.parts = other.parts) (records : List (Path × Event)) :
    eventsFor records path = eventsFor records other := by
  rw [eventsFor, eventsFor, h]

/-- A file with events has a record. -/
theorem exists_of_eventsFor_ne_nil (h : eventsFor records path ≠ []) : ∃ entry ∈ records, entry.1.parts = path.parts := by
  obtain ⟨event, he⟩ := List.exists_mem_of_ne_nil _ h
  obtain ⟨other, hmem, hp⟩ := mem_eventsFor_iff.1 he
  exact ⟨(other, event), hmem, hp⟩

/-- What is kept of a file is found under each of its spellings. -/
theorem eventsOf_congr (h : path.parts = other.parts) (ledger : Ledger) : ledger.eventsOf path = ledger.eventsOf other := by
  rw [eventsOf, eventsOf, Assoc.get?_congr (Path.compare_eq_iff.2 h)]

/-- A sum over the events kept is one over files that are told apart, when all files that events are kept for are among them. -/
theorem total_eq_sum_eventsOf (h : Assoc.Sorted Path.compare ledger.events) (measure : List Event → Nat) (hnone : measure [] = 0)
    {files : List Path} (hapart : files.Pairwise fun a b => a.parts ≠ b.parts)
    (hall : ∀ entry ∈ ledger.events, ∃ file ∈ files, file.parts = entry.1.parts) :
    Assoc.total (fun _ events => measure events.toList) ledger.events =
      (files.map fun file => measure (ledger.eventsOf file)).sum := by
  rw [Assoc.total_eq_sum h (fun events : Array Event => measure events.toList) (Path.pairwise_compare_ne hapart)
    (Path.exists_compare_eq hall)]
  refine congrArg List.sum (List.map_congr_left fun file _ => ?_)
  rw [eventsOf]
  cases Assoc.get? Path.compare file ledger.events with
  | none => exact hnone.symm
  | some events => rfl

/-- The size of a ledger is the number of events kept, summed up over its files. -/
theorem size_eq_sum (h : Assoc.Sorted Path.compare ledger.events) {files : List Path}
    (hapart : files.Pairwise fun a b => a.parts ≠ b.parts)
    (hall : ∀ entry ∈ ledger.events, ∃ file ∈ files, file.parts = entry.1.parts) :
    ledger.size = (files.map fun file => (ledger.eventsOf file).length).sum :=
  total_eq_sum_eventsOf h List.length rfl hapart hall

/-! ## One record -/

/-- A ledger that is full takes no record. -/
theorem record_of_full (h : limits.maxErrorCollection ≤ ledger.size) (path : Path) (event : Event) :
    ledger.record limits path event = ledger := by
  rw [record, if_pos h]

/-- A ledger with room keeps an event with those of its file. -/
theorem record_of_room (h : ledger.size < limits.maxErrorCollection) (path : Path) (event : Event) :
    ledger.record limits path event = { ledger with
      events := Assoc.alter Path.compare path (fun events => keep limits event (events.getD #[])) ledger.events } := by
  rw [record, if_neg (Nat.not_le.2 h)]

/-- The event that a ledger with room takes is kept with those of its file, under each spelling. -/
theorem eventsOf_record_self (hs : Assoc.Sorted Path.compare ledger.events) (h : ledger.size < limits.maxErrorCollection)
    (hp : path.parts = other.parts) {events : List Event} (hkept : ledger.eventsOf other = portion limits events) :
    (ledger.record limits path event).eventsOf other = portion limits (events ++ [event]) := by
  rw [← eventsOf_congr hp] at hkept
  rw [record_of_room h, ← eventsOf_congr hp, eventsOf, Assoc.get?_alter_self hs, Option.getD_some]
  exact keep_portion hkept event

/-- What is kept of the other files stays. -/
theorem eventsOf_record_other (h : ledger.size < limits.maxErrorCollection) (hp : path.parts ≠ other.parts) :
    (ledger.record limits path event).eventsOf other = ledger.eventsOf other := by
  have hne : Path.compare other path ≠ .eq := fun heq => hp (Path.compare_eq_iff.1 heq).symm
  rw [record_of_room h, eventsOf, Assoc.get?_alter_other hne, eventsOf]

/-- A ledger with room becomes longer by one event at most. -/
theorem size_record_le (h : ledger.size < limits.maxErrorCollection) (path : Path) (event : Event) :
    (ledger.record limits path event).size ≤ ledger.size + 1 := by
  rw [record_of_room h]
  refine Assoc.total_alter_le (fun old => ?_) Path.compare path ledger.events
  refine Nat.le_trans (size_keep_le limits event _) ?_
  cases old <;> exact Nat.le_refl _

/-- A full ledger takes none of a sequence of records. -/
theorem recordAll_of_full (h : limits.maxErrorCollection ≤ ledger.size) (records : List (Path × Event)) :
    recordAll limits ledger records = ledger := by
  induction records with
  | nil => rfl
  | cons entry rest ih =>
    rw [recordAll, List.foldl_cons, record_of_full h]
    exact ih

/-! ## Sequences of records -/

/-- What a ledger has kept of a sequence of records: of each file the start of its portion, and the whole portion as long as there
is room, or when there are no more records than may be kept in all. -/
structure Follows (limits : Limits) (records : List (Path × Event)) (ledger : Ledger) : Prop where
  sorted : Assoc.Sorted Path.compare ledger.events
  recorded : ∀ entry ∈ ledger.events, ∃ earlier ∈ records, earlier.1.parts = entry.1.parts
  nonempty : ∀ entry ∈ ledger.events, entry.2 ≠ #[]
  begins : ∀ path, ledger.eventsOf path <+: portion limits (eventsFor records path)
  size_le : ledger.size ≤ limits.maxErrorCollection
  size_le_length : ledger.size ≤ records.length
  complete : ledger.size < limits.maxErrorCollection → ∀ path, ledger.eventsOf path = portion limits (eventsFor records path)
  complete_of_few : records.length ≤ limits.maxErrorCollection →
    ∀ path, ledger.eventsOf path = portion limits (eventsFor records path)

theorem eventsOf_empty (limits : Limits) (path : Path) : empty.eventsOf path = portion limits (eventsFor [] path) := by
  rw [eventsFor_nil, portion_of_le (Nat.zero_le _)]
  rfl

theorem follows_empty (limits : Limits) : Follows limits [] empty where
  sorted := List.Pairwise.nil
  recorded _ h := absurd h List.not_mem_nil
  nonempty _ h := absurd h List.not_mem_nil
  begins _ := List.nil_prefix
  size_le := Nat.zero_le _
  size_le_length := Nat.le_refl 0
  complete _ := eventsOf_empty limits
  complete_of_few _ := eventsOf_empty limits

/-- The table of files has no part in what is kept. -/
theorem Follows.recordContext (h : Follows limits records ledger) (path : Path) (id : Nat) :
    Follows limits records (ledger.recordContext path id) :=
  ⟨h.sorted, h.recorded, h.nonempty, h.begins, h.size_le, h.size_le_length, h.complete, h.complete_of_few⟩

/-- One more record. -/
theorem Follows.record (h : Follows limits records ledger) (path : Path) (event : Event) :
    Follows limits (records ++ [(path, event)]) (ledger.record limits path event) := by
  rcases Nat.lt_or_ge ledger.size limits.maxErrorCollection with hroom | hfull
  · -- There was room, so all portions were whole; they still are.
    have hwhole : ∀ other, (ledger.record limits path event).eventsOf other =
        portion limits (eventsFor (records ++ [(path, event)]) other) := by
      intro other
      by_cases hp : path.parts = other.parts
      · rw [eventsFor_append_of_eq hp]
        exact eventsOf_record_self h.sorted hroom hp (h.complete hroom other)
      · rw [eventsFor_append_of_ne hp, eventsOf_record_other hroom hp]
        exact h.complete hroom other
    have htable := record_of_room hroom path event
    have hlonger := size_record_le hroom path event
    refine ⟨?_, ?_, ?_, ?_, ?_, ?_, fun _ => hwhole, fun _ => hwhole⟩
    · rw [htable]
      exact h.sorted.alter path _
    · intro entry he
      rw [htable] at he
      rcases Assoc.key_of_mem_alter he with hk | ⟨old, ho, hk⟩
      · exact ⟨(path, event), by simp, by rw [hk]⟩
      · obtain ⟨earlier, hr, hp⟩ := h.recorded old ho
        exact ⟨earlier, List.mem_append_left _ hr, by rw [hk, hp]⟩
    · intro entry he
      rw [htable] at he
      rcases Assoc.of_mem_alter he with he | rfl | ⟨old, -, rfl⟩
      · exact h.nonempty entry he
      · exact keep_ne_empty limits event _
      · exact keep_ne_empty limits event _
    · intro other
      rw [hwhole other]
    · exact Nat.le_trans hlonger hroom
    · rw [List.length_append]
      exact Nat.le_trans hlonger (Nat.add_le_add_right h.size_le_length 1)
  · rw [record_of_full hfull]
    refine ⟨h.sorted, ?_, h.nonempty, ?_, h.size_le, ?_, ?_, ?_⟩
    · intro entry he
      obtain ⟨earlier, hr, hp⟩ := h.recorded entry he
      exact ⟨earlier, List.mem_append_left _ hr, hp⟩
    · intro other
      refine (h.begins other).trans ?_
      by_cases hp : path.parts = other.parts
      · rw [eventsFor_append_of_eq hp]
        exact portion_prefix_append limits _ event
      · rw [eventsFor_append_of_ne hp]
    · rw [List.length_append]
      exact Nat.le_add_right_of_le h.size_le_length
    · intro hlt
      exact absurd hlt (Nat.not_lt.2 hfull)
    · intro hfew
      have hmore := h.size_le_length
      rw [List.length_append, List.length_singleton] at hfew
      omega

/-- Whatever was recorded since the ledger was empty. -/
theorem follows_recordAll (limits : Limits) (records : List (Path × Event)) :
    Follows limits records (recordAll limits empty records) := by
  induction records using List.reverseRecOn with
  | nil => exact follows_empty limits
  | append_singleton records entry ih =>
    rw [recordAll_append]
    exact ih.record entry.1 entry.2

/-- When the portions of all files fit together, each of them is kept whole. -/
theorem Follows.eventsOf_eq (h : Follows limits records ledger) {files : List Path}
    (hapart : files.Pairwise fun a b => a.parts ≠ b.parts)
    (hall : ∀ entry ∈ records, ∃ file ∈ files, file.parts = entry.1.parts)
    (hfits : (files.map fun file => (portion limits (eventsFor records file)).length).sum ≤ limits.maxErrorCollection)
    (path : Path) : ledger.eventsOf path = portion limits (eventsFor records path) := by
  rcases Nat.lt_or_ge ledger.size limits.maxErrorCollection with hroom | hfull
  · exact h.complete hroom path
  · have hcovered : ∀ entry ∈ ledger.events, ∃ file ∈ files, file.parts = entry.1.parts := by
      intro entry he
      obtain ⟨earlier, hr, hp⟩ := h.recorded entry he
      obtain ⟨file, hf, heq⟩ := hall earlier hr
      exact ⟨file, hf, heq.trans hp⟩
    have hsum := size_eq_sum h.sorted hapart hcovered
    -- No portion is kept in part: the sum would be too small for a full ledger.
    have hwhole : ∀ file ∈ files, ledger.eventsOf file = portion limits (eventsFor records file) := by
      intro file hf
      refine (h.begins file).eq_of_length_le (Nat.le_of_not_lt fun hlt => ?_)
      have hless := List.sum_lt_sum (fun file => (ledger.eventsOf file).length)
        (fun file => (portion limits (eventsFor records file)).length) (fun file _ => (h.begins file).length_le) ⟨file, hf, hlt⟩
      omega
    by_cases hnone : eventsFor records path = []
    · have hbegins := h.begins path
      rw [hnone, portion_of_le (Nat.zero_le _)] at hbegins
      rw [hnone, portion_of_le (Nat.zero_le _), List.prefix_nil.1 hbegins]
    · obtain ⟨entry, he, hentry⟩ := exists_of_eventsFor_ne_nil hnone
      obtain ⟨file, hf, hfile⟩ := hall entry he
      have hp : file.parts = path.parts := hfile.trans hentry
      rw [← eventsOf_congr hp, ← eventsFor_congr hp]
      exact hwhole file hf

/-! ## Totals -/

/-- No file is among the failed and the warned ones at once, so there are not more of them than files. -/
theorem countP_failed_add_countP_warned_le (kept : List (Array Event)) :
    (kept.countP fun events => 0 < errorCount events) +
      (kept.countP fun events => errorCount events = 0 && 0 < warningCount events) ≤ kept.length := by
  induction kept with
  | nil => exact Nat.le_refl _
  | cons events rest ih =>
    rw [List.countP_cons, List.countP_cons, List.length_cons]
    by_cases h : errorCount events = 0
    · have hnone : ¬0 < errorCount events := by omega
      simp only [hnone, decide_false, Bool.false_eq_true, if_false]
      split <;> omega
    · simp only [h, decide_false, Bool.false_and, Bool.false_eq_true, if_false]
      split <;> omega

/-- The totals of any ledger can be told: no count falls below zero, and each is one over the two tables. -/
theorem exists_summary_eq (ledger : Ledger) : ∃ summary, ledger.summary = .ok summary ∧
    summary.files = max ledger.contexts.length ledger.events.length ∧
    summary.failed = (ledger.events.map Prod.snd).countP (fun events => 0 < errorCount events) ∧
    summary.warned = (ledger.events.map Prod.snd).countP (fun events => errorCount events = 0 && 0 < warningCount events) ∧
    summary.failed + summary.warned + summary.successful = summary.files ∧
    summary.errors = Assoc.total (fun _ events => errorCount events) ledger.events ∧
    summary.warnings = Assoc.total (fun _ events => warningCount events) ledger.events := by
  have hkept := countP_failed_add_countP_warned_le (ledger.events.map Prod.snd)
  have hlength : (ledger.events.map Prod.snd).length = ledger.events.length := List.length_map _
  unfold summary checkedSub
  simp only [bind, Except.bind, pure, Except.pure]
  rw [if_pos (by omega)]
  simp only
  rw [if_pos (by omega)]
  refine ⟨_, rfl, by rw [hlength], rfl, rfl, ?_, rfl, rfl⟩
  simp only
  omega

theorem exists_summary_eq_ok (ledger : Ledger) : ∃ summary, ledger.summary = .ok summary := by
  obtain ⟨summary, h, -⟩ := exists_summary_eq ledger
  exact ⟨summary, h⟩

end Lexing.Ledger
