import Lexing.Assoc
import Lexing.Diagnostic.Registry
import Lexing.Json
import Lexing.Limits
import Lexing.Source.Span

/-!
# Events

A diagnostic event: a level, a code, a message of bounded length, the place it is about and a table of named facts. It can be
written as one line, as several, or as a JSON object on one line.
-/

namespace Lexing

/-- A diagnostic event. The facts of its context are in the order of their names, and no name occurs twice. -/
structure Event where
  level : Level
  code : String
  message : String
  span : Option Span
  context : List (String × String)
deriving DecidableEq, Repr, Inhabited

namespace Event

/-- A message of at most the given number of bytes stays as it is; a longer one is cut behind its last whole character that
fits, and marked. -/
def clampMessage (size : Nat) (message : String) : String :=
  if message.utf8ByteSize ≤ size then message
  else
    let stop := Text.boundaryBefore message size
    ((Text.slice message 0 stop).toOption.getD "") ++ "..."

/-- An event with no place and no context. -/
def plain (limits : Limits) (level : Level) (code message : String) : Event :=
  ⟨level, code, clampMessage limits.maxMessageLength message, none, []⟩

/-- An error. -/
def error (limits : Limits) (code message : String) : Event := plain limits .error code message

/-- A warning, under a code of its own or none. -/
def warning (limits : Limits) (code : Option String) (message : String) : Event :=
  plain limits .warning (code.getD Code.plainWarning) message

/-- A piece of information. -/
def info (limits : Limits) (message : String) : Event := plain limits .info Code.plainInfo message

/-- The news that something succeeded. -/
def success (limits : Limits) (code message : String) : Event := plain limits .info code message

/-- A remark for whoever looks into the program. -/
def debug (limits : Limits) (message : String) : Event := plain limits .debug Code.plainDebug message

/-- Says what place an event is about. -/
def withSpan (event : Event) (span : Span) : Event := { event with span := some span }

/-- Adds a fact, in place of an older one of the same name. -/
def withFact (event : Event) (key value : String) : Event :=
  { event with context := Assoc.insert compare key value event.context }

/-- Adds facts one after another. -/
def withFacts (event : Event) (facts : List (String × String)) : Event :=
  facts.foldl (fun event (key, value) => event.withFact key value) event

/-- Whether an event is an error. -/
def isError (event : Event) : Bool := event.level = .error

/-- Whether an event is a warning. -/
def isWarning (event : Event) : Bool := event.level = .warning

/-- Whether an event is a piece of information. -/
def isInfo (event : Event) : Bool := event.level = .info

/-- An event on one line. -/
def line (event : Event) : String :=
  let place :=
    match event.span with
    | some span => s!" at {span.start.render}"
    | none => ""
  s!"[{event.level.label}] {event.code} - {event.message}{place}"

/-- An event with what is known of its code and with its context, a line for each. -/
def detailed (event : Event) : String :=
  let metadata :=
    s!"\n  Category: {Registry.category event.code}\n  Severity: {(Registry.severity event.code).name}"
  let consequence :=
    if event.isError then
      s!"\n  Recoverable: {Registry.recoverable event.code}\n  Requires halt: {Registry.halts event.code}"
    else ""
  let description := Registry.description event.code
  let meaning := if description = Registry.noDescription then "" else s!"\n  Description: {description}"
  let action := Registry.action event.code
  let advice := if action = Registry.noAction then "" else s!"\n  Recommended action: {action}"
  let facts :=
    if event.context.isEmpty then ""
    else "\n  Context:" ++ String.join (event.context.map fun (key, value) => s!"\n    {key}: {value}")
  event.line ++ metadata ++ consequence ++ meaning ++ advice ++ facts

/-- The fields of an event as JSON, in the order of their names. -/
def toJson (stamp : String) (event : Event) : Json :=
  let context :=
    if event.context.isEmpty then []
    else [("context", Json.object (event.context.map fun (key, value) => (key, .text value)))]
  let metadata :=
    if event.isError then
      [("error_metadata", Json.object
        [ ("description", .text (Registry.description event.code)),
          ("recommended_action", .text (Registry.action event.code)),
          ("recoverable", .flag (Registry.recoverable event.code)),
          ("requires_halt", .flag (Registry.halts event.code)) ])]
    else []
  let place :=
    match event.span with
    | some span =>
      [("span", Json.object
        [ ("end_column", .count span.stop.column), ("end_line", .count span.stop.line),
          ("start_column", .count span.start.column), ("start_line", .count span.start.line) ])]
    | none => []
  .object
    ([("category", .text (Registry.category event.code)), ("code", .text event.code)] ++ context ++ metadata ++
      [ ("level", .text event.level.label), ("message", .text event.message),
        ("severity", .text (Registry.severity event.code).name) ] ++ place ++
      [("timestamp", .text stamp)])

/-- An event as a JSON object on one line, with the time it was made. -/
def json (stamp : String) (event : Event) : String := (event.toJson stamp).render

end Event

end Lexing
