/-!
# Paths

A path is the text it was given as. Two paths are the same when they have the same parts, so doubled slashes, a slash at the
end and dots between the parts make no difference; a dot at the very start is a part of its own. Paths are ordered part by
part, not character by character.
-/

namespace Lexing

/-- A part of a path. -/
inductive PathPart where
  | root
  | current
  | parent
  | named (name : String)
deriving DecidableEq, Repr, Inhabited

namespace PathPart

/-- The place of a sort of part in the order of parts. -/
def rank : PathPart → Nat
  | root => 0
  | current => 1
  | parent => 2
  | named _ => 3

/-- The order of parts: by sort, and named parts by name. -/
def compare : PathPart → PathPart → Ordering
  | named a, named b => Ord.compare a b
  | a, b => Ord.compare a.rank b.rank

/-- The part that a piece of text between slashes stands for, behind the first. -/
def ofPiece? (piece : String) : Option PathPart :=
  if piece = "" ∨ piece = "." then none
  else if piece = ".." then some .parent
  else some (.named piece)

end PathPart

/-- A path, as it was spelled. -/
structure Path where
  text : String
deriving DecidableEq, Repr, Inhabited

namespace Path

/-- The pieces of some characters between slashes, of which there is one more than there are slashes. -/
def piecesOf : List Char → List (List Char)
  | [] => [[]]
  | c :: rest =>
    if c = '/' then [] :: piecesOf rest
    else
      match piecesOf rest with
      | [] => [[c]]
      | piece :: others => (c :: piece) :: others

/-- The pieces of a text between slashes. -/
def pieces (text : String) : List String := (piecesOf text.toList).map String.ofList

/-- The parts of a path. -/
def parts (path : Path) : List PathPart :=
  match pieces path.text with
  | [] => []
  | first :: rest =>
    let others := rest.filterMap PathPart.ofPiece?
    if first = "" then if rest.isEmpty then [] else .root :: others
    else if first = "." then .current :: others
    else (PathPart.ofPiece? first).toList ++ others

/-- The order of lists of parts. -/
def compareParts : List PathPart → List PathPart → Ordering
  | [], [] => .eq
  | [], _ :: _ => .lt
  | _ :: _, [] => .gt
  | a :: as, b :: bs => (a.compare b).then (compareParts as bs)

/-- The order of paths. -/
def compare (a b : Path) : Ordering := compareParts a.parts b.parts

end Path

end Lexing
