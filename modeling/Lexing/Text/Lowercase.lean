import Lexing.Text.CaseTables

/-!
# Lower case

A text is lowered character by character, with two exceptions: a capital I with a dot becomes two characters, and a capital
sigma takes its final form at the end of a word. A sigma ends a word when a cased character stands before it and none after
it, characters of the passed-over kind not counting.
-/

namespace Lexing.Text

/-- Whether a character lies in a table of ranges. -/
def inRanges (table : List (Nat × Nat)) (c : Char) : Bool :=
  table.any fun (first, last) => first ≤ c.toNat && c.toNat ≤ last

/-- Whether the nearest character that is not passed over is a cased one. -/
def reachesCased (cs : List Char) : Bool :=
  match cs.dropWhile (inRanges casePassedRanges) with
  | [] => false
  | c :: _ => inRanges casedRanges c

/-- The lower-case form of one character, in front of the characters that follow it and behind those, nearest first, that
precede it. -/
def lowerChar (before : List Char) (c : Char) (after : List Char) : List Char :=
  if c.toNat < 0x80 then [c.toLower]
  else if c = 'Σ' then if reachesCased before && !reachesCased after then ['ς'] else ['σ']
  else if c = 'İ' then ['i', '\u0307']
  else
    match caseRanges.findSome? (fun entry => entry.lower? c.toNat) with
    | some code => [Char.ofNat code]
    | none => [c]

/-- The lower-case form of the characters from some place on, the ones before it given nearest first. -/
def lowerFrom (before : List Char) : List Char → List Char
  | [] => []
  | c :: rest => lowerChar before c rest ++ lowerFrom (c :: before) rest

/-- The text in lower case. -/
def lowercase (s : String) : String := String.ofList (lowerFrom [] s.toList)

end Lexing.Text
