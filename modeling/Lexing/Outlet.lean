/-!
# Outlets

A listing is written to a medium: something that takes bytes and can be flushed, and may fail at either. An outlet is a medium that
takes bytes until it has no more room. Of a piece that does not fit it takes what fits; the rest is refused, either with a reason or
by taking no bytes. An outlet may also refuse to be flushed.
-/

namespace Lexing

/-- Something that bytes can be written to, and what is left of it after that; a reason is given when it fails. -/
class Medium (ω : Type) where
  /-- Writes all of some bytes. -/
  write : ω → ByteArray → ω × Option String
  /-- Makes sure that what was written has left. -/
  flush : ω → ω × Option String

/-- Where bytes are written to. -/
structure Outlet where
  /-- The bytes taken so far. -/
  delivered : ByteArray
  /-- The number of bytes that still fit, if there is a bound. -/
  room : Option Nat
  /-- Whether a full outlet takes no bytes where another would give a reason. -/
  silent : Bool
  /-- Whether flushing fails. -/
  flushFails : Bool
deriving Inhabited

namespace Outlet

/-- An outlet that takes everything. -/
def unlimited : Outlet := ⟨ByteArray.empty, none, false, false⟩

/-- What a full outlet gives as the reason. -/
def refusal (silent : Bool) : String := if silent then "failed to write whole buffer" else "closed"

/-- Writes all of some bytes, or as many as fit. -/
def write (outlet : Outlet) (bytes : ByteArray) : Outlet × Option String :=
  match outlet with
  | ⟨delivered, none, silent, flushFails⟩ => (⟨delivered ++ bytes, none, silent, flushFails⟩, none)
  | ⟨delivered, some room, silent, flushFails⟩ =>
    if bytes.size ≤ room then (⟨delivered ++ bytes, some (room - bytes.size), silent, flushFails⟩, none)
    else (⟨delivered ++ bytes.extract 0 room, some 0, silent, flushFails⟩, some (refusal silent))

/-- Flushes an outlet: the reason why that fails, if it does. -/
def flush (outlet : Outlet) : Option String := if outlet.flushFails then some "flush refused" else none

end Outlet

@[default_instance]
instance : Medium Outlet := ⟨Outlet.write, fun outlet => (outlet, outlet.flush)⟩

@[simp]
theorem Medium.write_outlet (outlet : Outlet) (bytes : ByteArray) : Medium.write outlet bytes = outlet.write bytes := rfl

@[simp]
theorem Medium.flush_outlet (outlet : Outlet) : Medium.flush outlet = (outlet, outlet.flush) := rfl

end Lexing
