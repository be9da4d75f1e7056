/-!
# Texts of a TOML document

Blanks, comments, line ends and quoted texts. A reading takes characters off the front and gives back what it read and the
rest; it gives nothing when the characters do not fit.
-/

namespace Lexing.Toml

/-- A reading: what was read, and the characters behind it. -/
abbrev Reading (α : Type) := List Char → Option (α × List Char)

/-- Whether a character may stand between words on a line. -/
def isBlank (c : Char) : Bool := c = ' ' || c = '\t'

/-- The characters behind the blanks at the front. -/
def skipBlank (cs : List Char) : List Char := cs.dropWhile isBlank

/-- Whether a character may stand in a comment, and in a text without escapes: no control character but the tab. -/
def isPrintable (c : Char) : Bool := c = '\t' || (0x20 ≤ c.toNat && c.toNat ≠ 0x7f)

/-- The characters behind the end of a line, which the end of the document is, too. -/
def lineEnd : List Char → Option (List Char)
  | [] => some []
  | '\n' :: rest => some rest
  | '\r' :: '\n' :: rest => some rest
  | _ => none

/-- The characters behind a comment, if there is one. -/
def skipComment : List Char → List Char
  | '#' :: rest => rest.dropWhile isPrintable
  | cs => cs

/-- The characters of the next line, when nothing but blanks and a comment stand in front of it. -/
def restOfLine (cs : List Char) : Option (List Char) := lineEnd (skipComment (skipBlank cs))

/-- The characters behind blanks, line ends and comments; the flag says whether a comment is open. -/
def skipLayout (inComment : Bool) : List Char → List Char
  | [] => []
  | '\r' :: '\n' :: rest => skipLayout false rest
  | c :: rest =>
    if c = '\n' then skipLayout false rest
    else if inComment then if isPrintable c then skipLayout true rest else c :: rest
    else if isBlank c then skipLayout false rest
    else if c = '#' then skipLayout true rest
    else c :: rest

/-- The value of a hexadecimal digit. -/
def hexValue? (c : Char) : Option Nat :=
  if '0' ≤ c && c ≤ '9' then some (c.toNat - '0'.toNat)
  else if 'a' ≤ c && c ≤ 'f' then some (c.toNat - 'a'.toNat + 10)
  else if 'A' ≤ c && c ≤ 'F' then some (c.toNat - 'A'.toNat + 10)
  else none

/-- The character that hexadecimal digits name, if they name one. -/
def namedChar? (digits : List Char) : Option Char := do
  let code ← digits.foldlM (fun code digit => (hexValue? digit).map fun value => code * 16 + value) 0
  if code.isValidChar then some (Char.ofNat code) else none

/-- The character that a letter behind a backslash stands for. -/
def shortEscape? : Char → Option Char
  | 'b' => some '\x08'
  | 't' => some '\t'
  | 'n' => some '\n'
  | 'f' => some '\x0c'
  | 'r' => some '\r'
  | '"' => some '"'
  | '\\' => some '\\'
  | _ => none

/-- The rest of a text in double quotes, behind the opening quote. -/
def basicText (read : List Char) : Reading String
  | [] => none
  | '"' :: rest => some (String.ofList read.reverse, rest)
  | '\\' :: 'u' :: a :: b :: c :: d :: rest =>
    match namedChar? [a, b, c, d] with
    | some named => basicText (named :: read) rest
    | none => none
  | '\\' :: 'U' :: a :: b :: c :: d :: e :: f :: g :: h :: rest =>
    match namedChar? [a, b, c, d, e, f, g, h] with
    | some named => basicText (named :: read) rest
    | none => none
  | '\\' :: c :: rest =>
    match shortEscape? c with
    | some meant => basicText (meant :: read) rest
    | none => none
  | c :: rest => if isPrintable c && c ≠ '\\' then basicText (c :: read) rest else none

/-- The rest of a text in single quotes, behind the opening quote. -/
def literalText (read : List Char) : Reading String
  | [] => none
  | '\'' :: rest => some (String.ofList read.reverse, rest)
  | c :: rest => if isPrintable c then literalText (c :: read) rest else none

/-- The characters behind a line end at the front, if there is one. -/
def skipLineEnd : List Char → List Char
  | '\n' :: rest => rest
  | '\r' :: '\n' :: rest => rest
  | cs => cs

/-- Whether characters start with a line end. -/
def startsLine : List Char → Bool
  | '\n' :: _ => true
  | '\r' :: '\n' :: _ => true
  | _ => false

/-- The rest of a text in triple double quotes. Up to two quotes in front of the closing ones belong to the text. A backslash
at the end of a line takes with it every blank and line end up to the next character; the flag says that this goes on. -/
def basicBlock (folding : Bool) (read : List Char) : Reading String
  | [] => none
  | '"' :: '"' :: '"' :: '"' :: '"' :: rest => some (String.ofList ('"' :: '"' :: read).reverse, rest)
  | '"' :: '"' :: '"' :: '"' :: rest => some (String.ofList ('"' :: read).reverse, rest)
  | '"' :: '"' :: '"' :: rest => some (String.ofList read.reverse, rest)
  | '\r' :: '\n' :: rest => if folding then basicBlock true read rest else basicBlock false ('\n' :: read) rest
  | '\\' :: 'u' :: a :: b :: c :: d :: rest =>
    match namedChar? [a, b, c, d] with
    | some named => basicBlock false (named :: read) rest
    | none => none
  | '\\' :: 'U' :: a :: b :: c :: d :: e :: f :: g :: h :: rest =>
    match namedChar? [a, b, c, d, e, f, g, h] with
    | some named => basicBlock false (named :: read) rest
    | none => none
  | '\\' :: c :: rest =>
    match shortEscape? c with
    | some meant => basicBlock false (meant :: read) rest
    | none => if startsLine (skipBlank (c :: rest)) then basicBlock true read (c :: rest) else none
  | c :: rest =>
    if folding && (isBlank c || c = '\n') then basicBlock true read rest
    else if (isPrintable c && c ≠ '\\') || c = '\n' then basicBlock false (c :: read) rest
    else none

/-- The rest of a text in triple single quotes. -/
def literalBlock (read : List Char) : Reading String
  | [] => none
  | '\'' :: '\'' :: '\'' :: '\'' :: '\'' :: rest => some (String.ofList ('\'' :: '\'' :: read).reverse, rest)
  | '\'' :: '\'' :: '\'' :: '\'' :: rest => some (String.ofList ('\'' :: read).reverse, rest)
  | '\'' :: '\'' :: '\'' :: rest => some (String.ofList read.reverse, rest)
  | '\r' :: '\n' :: rest => literalBlock ('\n' :: read) rest
  | c :: rest => if isPrintable c || c = '\n' then literalBlock (c :: read) rest else none

/-- A quoted text on one line. -/
def quotedText : Reading String
  | '"' :: rest => basicText [] rest
  | '\'' :: rest => literalText [] rest
  | _ => none

/-- A quoted text, which may run over several lines if its quotes are tripled. -/
def anyText : Reading String
  | '"' :: '"' :: '"' :: rest => basicBlock false [] (skipLineEnd rest)
  | '\'' :: '\'' :: '\'' :: rest => literalBlock [] (skipLineEnd rest)
  | cs => quotedText cs

end Lexing.Toml
