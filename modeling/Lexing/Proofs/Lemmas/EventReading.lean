import Lexing.Diagnostic.Event
import Lexing.Proofs.Lemmas.ListingReading
import Lexing.Proofs.Lemmas.Tables

/-!
# Reading events

A reader of events in their JSON form, for which no event stands but only what its line shows. `readEvent?` reads a line as a JSON
object and looks its parts up by name, in whatever order they come. The place, the facts and the advice on the code may be missing; a
part that is there must be readable. The object of an event holds its entry (`entryOf?_toJson`), and the keys rise in it and in the
objects inside it (`keysRise_toJson`), so no key has a second value anywhere. The names of facts cannot get in the way: they are keys
of an object of their own.
-/

namespace Lexing

/-- The level of a label, if it is one. -/
def Level.ofLabel? (label : String) : Option Level := Level.all.find? fun level => level.label = label

/-! ## Objects -/

namespace Json

/-- The keys rise in a value and in all values inside it. -/
inductive KeysRise : Json → Prop where
  | text (value : String) : KeysRise (.text value)
  | count (value : Nat) : KeysRise (.count value)
  | flag (value : Bool) : KeysRise (.flag value)
  | object {fields : List (String × Json)} (sorted : Assoc.Sorted compare fields)
      (inside : ∀ field ∈ fields, KeysRise field.2) : KeysRise (.object fields)

/-- The value under a name in an object, if there is one. -/
def at? (name : String) : Json → Option Json
  | .object fields => fields.lookup name
  | _ => none

/-- The truth value under a name in an object, if there is one. -/
def flagAt? (name : String) (object : Json) : Option Bool :=
  match object.at? name with
  | some (.flag found) => some found
  | _ => none

/-- What a part of an object says, if the part is there. No object can be read that has the part when the part cannot. -/
def partAt? {α : Type} (name : String) (read : Json → Option α) (object : Json) : Option (Option α) :=
  match object.at? name with
  | some found => (read found).map some
  | none => some none

/-- An object of texts. -/
def texts (entries : List (String × String)) : Json := .object (entries.map fun (key, value) => (key, .text value))

/-- The text that a field holds, with its key. -/
def textField? : String × Json → Option (String × String)
  | (key, .text value) => some (key, value)
  | _ => none

/-- The texts that an object holds, when it holds nothing else. -/
def textsOf? : Json → Option (List (String × String))
  | .object fields => fields.mapM textField?
  | _ => none

theorem textsOf?_texts (entries : List (String × String)) : textsOf? (texts entries) = some entries := by
  have hread : (entries.map fun (key, value) => (key, Json.text value)).mapM textField? = some (entries.map id) :=
    Listing.mapM_map_eq_some entries fun _ _ => rfl
  rw [List.map_id] at hread
  exact hread

theorem keysRise_texts {entries : List (String × String)} (h : Assoc.Sorted compare entries) : KeysRise (texts entries) := by
  refine .object (List.pairwise_map.2 h) ?_
  intro field hfield
  obtain ⟨entry, -, rfl⟩ := List.mem_map.1 hfield
  exact .text entry.2

/-- The keys rise in an object when they are some of a list of names that rise, and the keys rise in all its values. -/
theorem KeysRise.of_sublist (names : List String) {fields : List (String × Json)}
    (hnames : names.Pairwise fun a b => compare a b = .lt) (hsub : (fields.map Prod.fst).Sublist names)
    (inside : ∀ field ∈ fields, KeysRise field.2) : KeysRise (.object fields) :=
  .object (List.pairwise_map.1 (hnames.sublist hsub)) inside

end Json

/-! ## Entries -/

namespace Event

open Json (flagAt? partAt? textsOf? texts KeysRise)
open Listing (textAt? countAt?)

/-- The lines and columns of a place. -/
structure Extent where
  startLine : Nat
  startColumn : Nat
  stopLine : Nat
  stopColumn : Nat
deriving DecidableEq, Repr

/-- The lines and columns of a span. -/
def Extent.ofSpan (span : Span) : Extent := ⟨span.start.line, span.start.column, span.stop.line, span.stop.column⟩

/-- What is known of the code of an error. -/
structure Advice where
  recoverable : Bool
  halts : Bool
  description : String
  action : String
deriving DecidableEq, Repr

/-- What is known of a code. -/
def Advice.ofCode (code : String) : Advice :=
  ⟨Registry.recoverable code, Registry.halts code, Registry.description code, Registry.action code⟩

/-- What a line of JSON says of an event. -/
structure Entry where
  stamp : String
  level : Level
  code : String
  message : String
  category : String
  severity : String
  extent : Option Extent
  facts : Option (List (String × String))
  advice : Option Advice
deriving DecidableEq, Repr

/-- The entry of an event: with lines and columns when the event has a place, with facts when it has any, and with advice when it is
an error. -/
def Entry.ofEvent (stamp : String) (event : Event) : Entry where
  stamp := stamp
  level := event.level
  code := event.code
  message := event.message
  category := Registry.category event.code
  severity := (Registry.severity event.code).name
  extent := event.span.map .ofSpan
  facts := if event.context = [] then none else some event.context
  advice := if event.level = .error then some (.ofCode event.code) else none

/-- Facts that are left out are none. -/
theorem Entry.getD_facts_ofEvent (stamp : String) (event : Event) : (ofEvent stamp event).facts.getD [] = event.context := by
  by_cases h : event.context = [] <;> simp [ofEvent, h]

/-- Events with the same entry are the same, but for what a place has besides lines and columns. -/
theorem Entry.ofEvent_inj {stamp otherStamp : String} {event other : Event} (h : ofEvent otherStamp other = ofEvent stamp event) :
    otherStamp = stamp ∧ other.level = event.level ∧ other.code = event.code ∧ other.message = event.message ∧
      other.context = event.context ∧ other.span.map .ofSpan = event.span.map Extent.ofSpan := by
  have hsame : other.context = event.context := by
    rw [← getD_facts_ofEvent otherStamp other, h, getD_facts_ofEvent]
  exact ⟨congrArg Entry.stamp h, congrArg Entry.level h, congrArg Entry.code h, congrArg Entry.message h, hsame,
    congrArg Entry.extent h⟩

/-- The lines and columns that an object holds. -/
def extentOf? (object : Json) : Option Extent := do
  let startLine ← countAt? "start_line" object
  let startColumn ← countAt? "start_column" object
  let stopLine ← countAt? "end_line" object
  let stopColumn ← countAt? "end_column" object
  return ⟨startLine, startColumn, stopLine, stopColumn⟩

/-- The advice that an object holds. -/
def adviceOf? (object : Json) : Option Advice := do
  let recoverable ← flagAt? "recoverable" object
  let halts ← flagAt? "requires_halt" object
  let description ← textAt? "description" object
  let action ← textAt? "recommended_action" object
  return ⟨recoverable, halts, description, action⟩

/-- The entry that an object holds. -/
def entryOf? (object : Json) : Option Entry := do
  let stamp ← textAt? "timestamp" object
  let level ← (textAt? "level" object).bind Level.ofLabel?
  let code ← textAt? "code" object
  let message ← textAt? "message" object
  let category ← textAt? "category" object
  let severity ← textAt? "severity" object
  let extent ← partAt? "span" extentOf? object
  let facts ← partAt? "context" textsOf? object
  let advice ← partAt? "error_metadata" adviceOf? object
  return ⟨stamp, level, code, message, category, severity, extent, facts, advice⟩

/-- The entry that a line holds. -/
def readEvent? (line : List Char) : Option Entry := (Json.parse? line).bind entryOf?

variable (stamp : String) (event : Event)

/-- The object of an event holds its entry. -/
theorem entryOf?_toJson : entryOf? (event.toJson stamp) = some (.ofEvent stamp event) := by
  obtain ⟨level, code, message, span, context⟩ := event
  cases context with
  | nil => cases span <;> cases level <;> rfl
  | cons fact rest =>
    -- All parts but the facts have fixed names, under which they are looked up.
    have hparts : entryOf? (toJson stamp ⟨level, code, message, span, fact :: rest⟩) =
        ((textsOf? (texts (fact :: rest))).map some).bind fun facts =>
          some { Entry.ofEvent stamp ⟨level, code, message, span, fact :: rest⟩ with facts := facts } := by
      cases span <;> cases level <;> rfl
    rw [hparts, Json.textsOf?_texts]
    rfl

/-- The line of an event holds its entry. -/
theorem readEvent?_json : readEvent? (event.json stamp).toList = some (.ofEvent stamp event) := by
  rw [readEvent?, json, Json.parse?_render, Option.bind_some, entryOf?_toJson]

/-- The names of the parts of an event, in order. -/
def partNames : List String :=
  ["category", "code", "context", "error_metadata", "level", "message", "severity", "span", "timestamp"]

/-- The names in the advice on a code, in order. -/
def adviceNames : List String := ["description", "recommended_action", "recoverable", "requires_halt"]

/-- The names in a place, in order. -/
def extentNames : List String := ["end_column", "end_line", "start_column", "start_line"]

/-- The keys rise in the object of an event, when the facts are in order. -/
theorem keysRise_toJson (h : Assoc.Sorted compare event.context) : KeysRise (event.toJson stamp) := by
  obtain ⟨level, code, message, span, context⟩ := event
  refine .of_sublist partNames (by decide) ?_ ?_
  · cases context <;> cases span <;> cases level <;> simp [isError, partNames]
  · -- Category and code, the facts, the advice, level and message and severity, the place, the stamp.
    simp only [List.forall_mem_append]
    refine ⟨⟨⟨⟨⟨?_, ?_⟩, ?_⟩, ?_⟩, ?_⟩, ?_⟩
    · simp [KeysRise.text]
    · split
      · exact List.forall_mem_nil _
      · exact List.forall_mem_singleton.2 (Json.keysRise_texts h)
    · split
      · refine List.forall_mem_singleton.2 (.of_sublist adviceNames (by decide) (.refl _) ?_)
        simp [KeysRise.text, KeysRise.flag]
      · exact List.forall_mem_nil _
    · simp [KeysRise.text]
    · split
      · refine List.forall_mem_singleton.2 (.of_sublist extentNames (by decide) (.refl _) ?_)
        simp [KeysRise.count]
      · exact List.forall_mem_nil _
    · simp [KeysRise.text]

end Event

end Lexing
