import Lexing.Proofs.Lemmas.Clamping

/-!
# Messages of bounded length

However an event is made, its message has no more bytes than the limit allows, but for a mark of three bytes behind a message that was
cut. `messages_clamped` says where it is cut: behind the last whole character that fits.
-/

namespace Lexing.Event

/-- The events that are made with a message: in one of the five ways, and then told of a place or of facts. -/
inductive MadeWith (limits : Limits) (message : String) : Event → Prop
  | error (code : String) : MadeWith limits message (.error limits code message)
  | warning (code : Option String) : MadeWith limits message (.warning limits code message)
  | info : MadeWith limits message (.info limits message)
  | success (code : String) : MadeWith limits message (.success limits code message)
  | debug : MadeWith limits message (.debug limits message)
  | withSpan {event : Event} (made : MadeWith limits message event) (span : Span) :
    MadeWith limits message (event.withSpan span)
  | withFact {event : Event} (made : MadeWith limits message event) (key value : String) :
    MadeWith limits message (event.withFact key value)

variable {limits : Limits} {message : String} {event : Event}

/-- However an event is made with a message, it has the message cut to size. -/
theorem MadeWith.message_eq (h : event.MadeWith limits message) :
    event.message = clampMessage limits.maxMessageLength message := by
  induction h with
  | withSpan _ _ ih => exact ih
  | withFact _ _ _ ih => exact ih
  | _ => rfl

/-- A message with at most so many bytes as are allowed stays as it is. A longer one is cut to its longest front part of whole
characters that has at most so many, and marked. The search for the cut, backwards from the limit, passes no boundary and none of its
steps leads below zero; it ends at a boundary after three steps at most, where the slice can be taken. So a message that was cut has
at least as many bytes as are allowed, and at most three more. -/
theorem messages_clamped (h : event.MadeWith limits message) :
    (message.utf8ByteSize ≤ limits.maxMessageLength → event.message = message) ∧
      (limits.maxMessageLength < message.utf8ByteSize →
        ∃ front steps, event.message = front ++ "..." ∧ Text.LongestFront limits.maxMessageLength message front ∧
          Text.BacksTo message limits.maxMessageLength steps ∧ steps ≤ 3 ∧
          Text.boundaryBefore message limits.maxMessageLength = limits.maxMessageLength - steps ∧
          Text.slice message 0 (limits.maxMessageLength - steps) = .ok front ∧
          limits.maxMessageLength ≤ event.message.utf8ByteSize ∧
          event.message.utf8ByteSize ≤ limits.maxMessageLength + 3) := by
  rw [h.message_eq]
  refine ⟨clampMessage_of_le, fun hlong => ?_⟩
  obtain ⟨steps, hsteps⟩ := Text.exists_backsTo message limits.maxMessageLength
  obtain ⟨front, hlongest, hbytes, hslice⟩ := hsteps.exists_longestFront
  have hthree := hsteps.steps_le_three (Nat.le_of_lt hlong)
  have hmessage := clampMessage_of_backsTo hlong hsteps hslice
  have hsize : (clampMessage limits.maxMessageLength message).utf8ByteSize = limits.maxMessageLength - steps + 3 := by
    rw [hmessage, String.utf8ByteSize_append, hbytes]
    rfl
  refine ⟨front, steps, hmessage, hlongest, hsteps, hthree, hsteps.boundaryBefore_eq, hslice, ?_, ?_⟩ <;> omega

/-- Four bytes at most: the limit lies before the last byte of a character of four, so the search takes three steps. -/
theorem messages_clamped_three_steps :
    let limits : Limits := { Limits.development with maxMessageLength := 4 }
    let event := (Event.warning limits none "a😀b").withFact "file" "a"
    event.MadeWith limits "a😀b" ∧ event.message = "a..." ∧ Text.BacksTo "a😀b" 4 3 ∧ 4 ≤ event.message.utf8ByteSize := by
  intro limits event
  have hmade : event.MadeWith limits "a😀b" := (MadeWith.warning none).withFact "file" "a"
  obtain ⟨front, steps, hmessage, -, hsteps, -, hboundary, hslice, hsize, -⟩ := (messages_clamped hmade).2 (by decide)
  have hstop : Text.boundaryBefore "a😀b" 4 = 1 := by decide
  have hthree : steps = 3 := by
    have hle : steps ≤ 4 := hsteps.steps_le
    have heq : 4 - steps = 1 := hboundary.symm.trans hstop
    omega
  subst hthree
  obtain rfl : "a" = front := Except.ok.inj ((by decide : Text.slice "a😀b" 0 1 = .ok "a").symm.trans hslice)
  exact ⟨hmade, hmessage, hsteps, hsize⟩

end Lexing.Event
