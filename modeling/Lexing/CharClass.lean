/-!
# Character classes

Where a token ends is decided by the class of the next character alone. Operators and punctuation marks stand alone, blank
characters form runs, and all others form runs of their own; no character is in two of the classes.
-/

namespace Lexing.CharClass

/-- The characters that are operators. -/
def operators : List Char := ['+', '-', '*', '/', '=', '%', '<', '>', '&', '|', '!']

/-- The characters that are punctuation marks. -/
def punctuation : List Char := ['{', '}', '[', ']', ',', ';', '(', ')']

/-- The blank characters: space, tab, line feed, vertical tab, form feed and carriage return. -/
def blanks : List Char := [' ', '\t', '\n', '\x0b', '\x0c', '\r']

/-- Whether a character may start a word: an ASCII letter, an underscore or a number sign. -/
def isWord (c : Char) : Bool := c.isAlpha || c = '_' || c = '#'

/-- Whether a character is an operator. -/
def isOperator (c : Char) : Bool := operators.contains c

/-- Whether a character is a punctuation mark. -/
def isPunctuation (c : Char) : Bool := punctuation.contains c

/-- Whether a character is blank. -/
def isBlank (c : Char) : Bool := blanks.contains c

/-- Whether a character is a token by itself. -/
def standsAlone (c : Char) : Bool := isOperator c || isPunctuation c

/-- Whether a character ends the token in front of it. -/
def isBoundary (c : Char) : Bool := isBlank c || standsAlone c

/-- No blank character is an operator or a punctuation mark. -/
theorem not_standsAlone_of_isBlank {c : Char} (h : isBlank c) : standsAlone c = false := by
  simp only [isBlank, blanks, List.contains_eq_mem, List.mem_cons, List.not_mem_nil, or_false, decide_eq_true_eq] at h
  rcases h with rfl | rfl | rfl | rfl | rfl | rfl <;> decide

/-- No operator is a punctuation mark. -/
theorem not_isPunctuation_of_isOperator {c : Char} (h : isOperator c) : isPunctuation c = false := by
  simp only [isOperator, operators, List.contains_eq_mem, List.mem_cons, List.not_mem_nil, or_false,
    decide_eq_true_eq] at h
  rcases h with rfl | rfl | rfl | rfl | rfl | rfl | rfl | rfl | rfl | rfl | rfl <;> decide

end Lexing.CharClass
