import Lexing.Json
import Lexing.Settings.Basic
import Lexing.Token.Basic

/-!
# Lines of a listing

One line for each token. A line for a person gives the text as it stands, but for a blank run, whose control characters are
named so that the token stays on its line. A JSON line gives text, kind and place.
-/

namespace Lexing.Listing

/-- A blank character as a line shows it. -/
def escapeBlankChar (c : Char) : List Char :=
  if c = '\n' then ['\\', 'n']
  else if c = '\t' then ['\\', 't']
  else if c = '\r' then ['\\', 'r']
  else if c = '\x0b' then ['\\', 'v']
  else if c = '\x0c' then ['\\', 'f']
  else [c]

/-- A text with its blank control characters named. -/
def escapeBlank (s : String) : String := String.ofList (s.toList.flatMap escapeBlankChar)

/-- The text of a token as a line for a person shows it. -/
def shownText (token : Token) : String := if token.kind = .blank then escapeBlank token.text else token.text

/-- The line for a person, without its end. -/
def plainLine (positions : Bool) (token : Located Token) : String :=
  let place := if positions then s!" ({token.span.start.render})" else ""
  s!"Token: {shownText token.value} - Type: {token.value.kind.name}{place}"

/-- The JSON object of a token. -/
def toJson (token : Located Token) : Json :=
  .object
    [ ("text", .text token.value.text), ("type", .text token.value.kind.name), ("line", .count token.span.start.line),
      ("column", .count token.span.start.column), ("offset", .count token.span.start.offset) ]

/-- The line of a token, with its end. -/
def line (settings : ListingSettings) (token : Located Token) : String :=
  match settings.format with
  | .plain => plainLine settings.positions token ++ "\n"
  | .json => (toJson token).render ++ "\n"

/-- Whether a token has a line: blank runs have one only if that is wanted. -/
def shows (settings : ListingSettings) (token : Located Token) : Bool := !token.value.kind.isBlank || settings.blanks

end Lexing.Listing
