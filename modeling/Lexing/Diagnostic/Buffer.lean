import Lexing.Diagnostic.Event

/-!
# Buffers

A buffer holds the most recent events, as many as the limits allow. The oldest one makes room for a new one.
-/

namespace Lexing

/-- The most recent events, oldest first. -/
structure Buffer where
  events : Array Event
deriving Inhabited

namespace Buffer

/-- A buffer with nothing in it. -/
def empty : Buffer := ⟨#[]⟩

/-- Adds an event; when the buffer is full, as many of the oldest go as room is needed. -/
def push (limits : Limits) (buffer : Buffer) (event : Event) : Buffer :=
  let size := buffer.events.size
  if limits.logBufferSize ≤ size then
    ⟨(buffer.events.extract (size - limits.logBufferSize + 1) size).push event⟩
  else ⟨buffer.events.push event⟩

/-- The number of events held. -/
def size (buffer : Buffer) : Nat := buffer.events.size

/-- The events that pass a test. -/
def select (test : Event → Bool) (buffer : Buffer) : List Event := buffer.events.toList.filter test

/-- The events with a code. -/
def withCode (buffer : Buffer) (code : String) : List Event := buffer.select fun event => event.code = code

/-- The events of a category. -/
def inCategory (buffer : Buffer) (category : String) : List Event :=
  buffer.select fun event => Registry.category event.code = category

/-- Whether an error with a code is held. -/
def hasError (buffer : Buffer) (code : String) : Bool := buffer.events.any fun event => event.isError && event.code = code

/-- Whether a piece of information with a code is held. -/
def hasSuccess (buffer : Buffer) (code : String) : Bool :=
  buffer.events.any fun event => event.isInfo && event.code = code

end Buffer

end Lexing
