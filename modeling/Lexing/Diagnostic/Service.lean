import Lexing.Diagnostic.Buffer

/-!
# Services

A service lets events through that are urgent enough and hands them to its targets, once for each time a target was
registered. Between the service and its targets there may be a distributor with a level of its own. A target is one of a row
of buffers, or a stream of lines.
-/

namespace Lexing

/-- What a service hands events to. -/
inductive Target where
  /-- The buffer of this number. -/
  | buffer (slot : Nat)
  /-- Lines for a person, up to a level. -/
  | console (level : Level)
  /-- Lines of JSON, up to a level. -/
  | structured (level : Level)
deriving DecidableEq, Repr, Inhabited

/-- A service: its own level, the level of its distributor if it has one, and its targets in the order of registration. -/
structure Service where
  minLevel : Level
  distributorLevel : Option Level
  targets : List Target
deriving DecidableEq, Repr, Inhabited

namespace Target

/-- The line that a target writes for an event, if it writes lines and the event is urgent enough for it. -/
def line? (stamp : String) (event : Event) : Target → Option String
  | buffer _ => none
  | console level => if event.level ≤ level then some event.line else none
  | structured level => if event.level ≤ level then some (event.json stamp) else none

end Target

namespace Service

/-- Whether a service lets a level through. -/
def lets (service : Service) (level : Level) : Bool := level ≤ service.minLevel

/-- Whether an event reaches the targets of a service. -/
def passes (service : Service) (event : Event) : Bool :=
  service.lets event.level && service.distributorLevel.all fun level => decide (event.level ≤ level)

/-- The targets that an event reaches, in order. -/
def deliver (service : Service) (event : Event) : List Target := if service.passes event then service.targets else []

/-- The lines that an event makes a service write. -/
def lines (service : Service) (stamp : String) (event : Event) : List String :=
  (service.deliver event).filterMap (·.line? stamp event)

end Service

/-- A service and the buffers that it writes to. -/
structure Switchboard where
  service : Service
  buffers : Array Buffer
deriving Inhabited

namespace Switchboard

/-- Puts an event into one buffer. -/
def put (limits : Limits) (event : Event) (buffers : Array Buffer) : Target → Array Buffer
  | .buffer slot => buffers.modify slot (·.push limits event)
  | _ => buffers

/-- Sends an event through the service. -/
def send (limits : Limits) (board : Switchboard) (event : Event) : Switchboard :=
  { board with buffers := (board.service.deliver event).foldl (put limits event) board.buffers }

/-- Puts an event into a buffer past the service. -/
def sendTo (limits : Limits) (board : Switchboard) (slot : Nat) (event : Event) : Switchboard :=
  { board with buffers := put limits event board.buffers (.buffer slot) }

/-- Empties a buffer. -/
def clear (board : Switchboard) (slot : Nat) : Switchboard :=
  { board with buffers := board.buffers.modify slot fun _ => .empty }

/-- The buffer of a number. -/
def buffer (board : Switchboard) (slot : Nat) : Buffer := board.buffers[slot]?.getD .empty

end Switchboard

end Lexing
