/-!
# Blank space in names and words

Words that a person types, a format's name or the text of a whole input, are judged by the Unicode property White_Space.
The token classes have a smaller class of their own.
-/

namespace Lexing.Text

/-- Whether a character has the Unicode property White_Space. -/
def isBlankSpace (c : Char) : Bool :=
  let code := c.toNat
  (0x9 ≤ code && code ≤ 0xd) || code = 0x20 || code = 0x85 || code = 0xa0 || code = 0x1680 ||
    (0x2000 ≤ code && code ≤ 0x200a) || code = 0x2028 || code = 0x2029 || code = 0x202f || code = 0x205f || code = 0x3000

/-- The text without the blank space at both its ends. -/
def trim (s : String) : String :=
  String.ofList ((s.toList.dropWhile isBlankSpace).reverse.dropWhile isBlankSpace).reverse

/-- Whether a text holds nothing but blank space. -/
def isBlankText (s : String) : Bool := s.toList.all isBlankSpace

/-- Every blank character that the core library knows is blank space. -/
theorem isBlankSpace_of_isWhitespace {c : Char} (h : c.isWhitespace) : isBlankSpace c := by
  simp only [Char.isWhitespace, Bool.or_eq_true, decide_eq_true_eq] at h
  rcases h with ((rfl | rfl) | rfl) | rfl <;> decide

end Lexing.Text
