/-!
# Token kinds

Every token is of exactly one of eleven kinds. Two of them are signals: they report, as data, text that the analyser
recognises and does not support.
-/

namespace Lexing

/-- The kind of a token. -/
inductive Kind where
  | keyword
  | identifier
  | integer
  | float
  | string
  | operator
  | punctuation
  | comment
  | blank
  | invalid
  | inclusion
deriving DecidableEq, Repr, Inhabited

namespace Kind

/-- Every kind, in the order of listings. -/
def all : List Kind :=
  [keyword, identifier, integer, float, string, operator, punctuation, comment, blank, invalid, inclusion]

/-- The place of a kind in the order of listings. -/
def rank : Kind → Nat
  | keyword => 0
  | identifier => 1
  | integer => 2
  | float => 3
  | string => 4
  | operator => 5
  | punctuation => 6
  | comment => 7
  | blank => 8
  | invalid => 9
  | inclusion => 10

/-- The order of listings. -/
def compare (a b : Kind) : Ordering := Ord.compare a.rank b.rank

/-- The name of a kind, as listings show it. -/
def name : Kind → String
  | keyword => "Keyword"
  | identifier => "Identifier"
  | integer => "Integer"
  | float => "Float"
  | string => "String"
  | operator => "Operator"
  | punctuation => "Punctuation"
  | comment => "Comment"
  | blank => "Whitespace"
  | invalid => "Invalid Identifier"
  | inclusion => "Include Directive"

/-- Whether a kind reports malformed or unsupported text. -/
def isSignal : Kind → Bool
  | invalid | inclusion => true
  | _ => false

/-- Whether a kind is that of blank runs. -/
def isBlank : Kind → Bool
  | blank => true
  | _ => false

/-- Whether a kind is that of a literal value. -/
def isLiteral : Kind → Bool
  | integer | float | string => true
  | _ => false

/-- The list of all kinds leaves none out. -/
theorem mem_all (kind : Kind) : kind ∈ all := by cases kind <;> decide

/-- The list of all kinds is in the order of listings, and names none twice. -/
theorem pairwise_all : all.Pairwise fun a b => a.rank < b.rank := by decide

end Kind

end Lexing
