import Lexing.Proofs.Lemmas.EventReading
import Lexing.Proofs.Lemmas.Logging

/-!
# What the JSON form of an event tells

An event in its JSON form stays on its line, whatever its texts hold, and can be read back (`json_tells_apart`). No text of an event
can end the line, close the object or stand for another part of it.
-/

namespace Lexing.Event

/-- Whatever the code, the message, the place and the facts of an event are, its JSON form has no control character, so it is one
line. It can be parsed as one object, in which the keys rise at every depth, and it holds exactly the entry of the event. So events
that differ in level, code, message, facts or the lines and columns of their places never have the same form. -/
theorem json_tells_apart (stamp : String) (event : Event) (h : Assoc.Sorted compare event.context) :
    let line := (event.json stamp).toList
    (∀ c ∈ line, 0x20 ≤ c.toNat) ∧
      (∃ fields, Json.parse? line = some (.object fields) ∧ Json.KeysRise (.object fields)) ∧
      readEvent? line = some (.ofEvent stamp event) ∧
      ∀ otherStamp other, json otherStamp other = event.json stamp →
        otherStamp = stamp ∧ other.level = event.level ∧ other.code = event.code ∧ other.message = event.message ∧
          other.context = event.context ∧ other.span.map .ofSpan = event.span.map Extent.ofSpan := by
  intro line
  have hread : readEvent? line = some (.ofEvent stamp event) := readEvent?_json stamp event
  refine ⟨fun c hc => Json.printable_of_mem_render _ hc, ⟨_, Json.parse?_render _, keysRise_toJson stamp event h⟩, hread, ?_⟩
  intro otherStamp other hsame
  have hother := readEvent?_json otherStamp other
  rw [hsame] at hother
  exact Entry.ofEvent_inj (Option.some.inj (hother.symm.trans hread))

/-- An error whose texts hold quotes, a line feed and a backslash, and of whose facts one has the name of another part. -/
theorem json_tells_apart_quoted :
    let event := ((Event.error .development "E\"9" "one\ntwo").withFacts [("level", "DEBUG"), ("\x01\"", "\\")]).withSpan
      ⟨⟨0, 1, 1⟩, ⟨4, 2, 1⟩⟩
    Assoc.Sorted compare event.context ∧ '\n' ∉ (event.json "now").toList ∧
      readEvent? (event.json "now").toList =
        some ⟨"now", .error, "E\"9", "one\ntwo", "Unknown", "Medium", some ⟨1, 1, 2, 1⟩,
          some [("\x01\"", "\\"), ("level", "DEBUG")], some (.ofCode "E\"9")⟩ := by
  intro event
  have hsorted : Assoc.Sorted compare event.context := sorted_tell List.Pairwise.nil [("level", "DEBUG"), ("\x01\"", "\\")]
  obtain ⟨hprintable, -, hread, -⟩ := json_tells_apart "now" event hsorted
  refine ⟨hsorted, ?_, hread.trans ?_⟩
  · intro hfeed
    exact absurd (hprintable '\n' hfeed) (by decide)
  · decide

end Lexing.Event
