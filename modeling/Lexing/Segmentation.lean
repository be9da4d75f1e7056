import Lexing.CharClass
import Lexing.Token.Basic

/-!
# Segmentation

How a text falls into pieces, said without a scanner: a character that stands alone is a piece, and so is every longest run
of blank characters and every longest run of other characters.
-/

namespace Lexing.Segmentation

/-- Whether two neighbouring characters belong to one piece: neither stands alone, and both or none are blank. -/
def joined (a b : Char) : Bool :=
  !CharClass.standsAlone a && !CharClass.standsAlone b && CharClass.isBlank a == CharClass.isBlank b

/-- The pieces of a text. -/
def pieces (cs : List Char) : List (List Char) := cs.splitBy joined

/-- The kind of a piece: a blank run is blank, and all others are classified. -/
def kindOf (piece : List Char) : Kind :=
  if piece.all CharClass.isBlank then .blank else Classification.kindOf (String.ofList piece)

/-- The texts and kinds of the pieces of a text. -/
def pairs (cs : List Char) : List (String × Kind) :=
  (pieces cs).map fun piece => (String.ofList piece, kindOf piece)

end Lexing.Segmentation
