import Lexing.CharClass
import Lexing.Fault
import Lexing.Token.Kind

/-!
# Classification

The kind of a complete candidate. The rules are tried in a fixed order and the first that fits decides, so a reserved word is
a keyword although it would make an identifier, and a lone minus sign an integer although it is an operator.
-/

namespace Lexing.Classification

/-- The reserved words. -/
def keywords : List String := ["int", "float", "if", "else", "while", "for", "return"]

/-- The only directive that is recognised. -/
def includeDirective : String := "#include"

/-- Whether a candidate is a reserved word. -/
def isKeyword (candidate : String) : Bool := keywords.contains candidate

/-- The characters of a candidate behind its sign, if it has one. -/
def unsigned : List Char → List Char
  | '-' :: rest => rest
  | cs => cs

/-- The kind of number that the characters of a candidate form. Behind the sign there are decimal digits and at most one
point, and a point has a digit beside it; no digits at all still count as an integer. -/
def numberKind? (cs : List Char) : Option Kind :=
  let digits := unsigned cs
  if cs.isEmpty || !digits.all (fun c => c.isDigit || c = '.') then none
  else
    match digits.count '.' with
    | 0 => some .integer
    | 1 => if digits.any Char.isDigit then some .float else none
    | _ => none

/-- Whether a candidate opens and closes with a quotation mark, which may not be the same one. -/
def isQuoted (cs : List Char) : Bool := 2 ≤ cs.length && cs.head? = some '"' && cs.getLast? = some '"'

/-- Whether a candidate opens a directive: a number sign and a letter. -/
def opensDirective : List Char → Bool
  | '#' :: c :: _ => c.isAlpha
  | _ => false

/-- The kind of a candidate by the rules on its characters; the rules on whole words are tried around them. -/
def kindOf (candidate : String) : Kind :=
  let cs := candidate.toList
  let first := cs.head?
  if isKeyword candidate then .keyword
  else
    match numberKind? cs with
    | some kind => kind
    | none =>
      if isQuoted cs then .string
      else if first.any CharClass.isOperator then .operator
      else if first.any CharClass.isPunctuation then .punctuation
      else if ['/', '/'].isPrefixOf cs then .comment
      else if cs.all CharClass.isBlank then .blank
      else if candidate = includeDirective then .inclusion
      else if opensDirective cs then .invalid
      else if first.any CharClass.isWord then .identifier
      else .invalid

/-- The kind of a candidate, which must have a character. -/
def classify (candidate : String) : Except Fault Kind :=
  if candidate = "" then .error .emptyCandidate else .ok (kindOf candidate)

end Lexing.Classification
