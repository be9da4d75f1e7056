import Lexing.Source.Span
import Lexing.Token.Classification

/-!
# Tokens

A token is the exact text it was read from and a kind.
-/

namespace Lexing

/-- One lexical unit. -/
structure Token where
  text : String
  kind : Kind
deriving DecidableEq, Repr, Inhabited

namespace Token

/-- The token of a complete candidate. -/
def ofCandidate (text : String) : Except Fault Token :=
  match Classification.classify text with
  | .ok kind => .ok ⟨text, kind⟩
  | .error fault => .error fault

/-- The number of characters of a token. -/
def length (token : Token) : Nat := token.text.length

end Token

end Lexing
