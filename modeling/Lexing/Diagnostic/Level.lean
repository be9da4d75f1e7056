/-!
# Levels

How much attention a diagnostic event deserves. The four levels are ordered from the most to the least urgent, so "at most
this level" means "at least this urgent".
-/

namespace Lexing

/-- The level of a diagnostic event. -/
inductive Level where
  | error
  | warning
  | info
  | debug
deriving DecidableEq, Repr, Inhabited

namespace Level

/-- Every level, the most urgent first. -/
def all : List Level := [error, warning, info, debug]

/-- The place of a level in the order from urgent to verbose. -/
def rank : Level → Nat
  | error => 0
  | warning => 1
  | info => 2
  | debug => 3

instance : LE Level := ⟨fun a b => a.rank ≤ b.rank⟩

instance (a b : Level) : Decidable (a ≤ b) := inferInstanceAs (Decidable (a.rank ≤ b.rank))

/-- The more verbose of two levels. -/
def max (a b : Level) : Level := if a ≤ b then b else a

/-- The word that stands for a level in an event's text. -/
def label : Level → String
  | error => "ERROR"
  | warning => "WARN"
  | info => "INFO"
  | debug => "DEBUG"

/-- The word that stands for a level in a settings document. -/
def word : Level → String
  | error => "error"
  | warning => "warning"
  | info => "info"
  | debug => "debug"

/-- The level's own name, as the diagnostics overview shows it. -/
def title : Level → String
  | error => "Error"
  | warning => "Warning"
  | info => "Info"
  | debug => "Debug"

end Level

end Lexing
