import Lexing.Text.Blank
import Lexing.Text.Lowercase

/-!
# Listing formats

A listing has one line for each token: a sentence for a person, or a JSON object.
-/

namespace Lexing

/-- How a listing writes a token. -/
inductive Format where
  | plain
  | json
deriving DecidableEq, Repr, Inhabited

namespace Format

/-- Every format. -/
def all : List Format := [plain, json]

/-- The name of a format. -/
def name : Format → String
  | plain => "plain"
  | json => "json"

/-- A word as formats are named by: without the blank space around it, in lower case. -/
def normalize (word : String) : String := Text.lowercase (Text.trim word)

/-- The format that a word names, if it names one; each has two names. -/
def parse? (word : String) : Option Format :=
  match normalize word with
  | "plain" | "text" => some plain
  | "json" | "jsonl" => some json
  | _ => none

/-- What is said of a word that names no format. -/
def complaint (word : String) : String := s!"Unknown output format: {normalize word}"

end Format

end Lexing
