/-!
# JSON text

Values are written compactly, fields in the order given. A text escapes the quote, the backslash and the control characters
below the space, and passes every other character through, so a written value never holds a line break.
-/

namespace Lexing

/-- A value that the library writes as JSON. -/
inductive Json where
  | text (value : String)
  | count (value : Nat)
  | flag (value : Bool)
  | object (fields : List (String × Json))
deriving Repr, Inhabited

namespace Json

/-- A hexadecimal digit, lower case. -/
def hexDigit (n : Nat) : Char := if n < 10 then Char.ofNat (48 + n) else Char.ofNat (87 + n)

/-- The characters that stand for one character inside a quoted text. -/
def escapeChar (c : Char) : List Char :=
  if c = '"' then ['\\', '"']
  else if c = '\\' then ['\\', '\\']
  else if c = '\n' then ['\\', 'n']
  else if c = '\r' then ['\\', 'r']
  else if c = '\t' then ['\\', 't']
  else if c.toNat = 0x8 then ['\\', 'b']
  else if c.toNat = 0xc then ['\\', 'f']
  else if c.toNat < 0x20 then ['\\', 'u', '0', '0', hexDigit (c.toNat / 16), hexDigit (c.toNat % 16)]
  else [c]

/-- A text with its quotes. -/
def quoteChars (cs : List Char) : List Char := '"' :: cs.flatMap escapeChar ++ ['"']

/-- A text with its quotes. -/
def quote (s : String) : String :=
  (s.foldl (fun out c => (escapeChar c).foldl String.push out) "\"").push '"'

mutual

/-- The compact form of a value. -/
def render : Json → String
  | .text value => quote value
  | .count value => toString value
  | .flag value => if value then "true" else "false"
  | .object fields => "\x7b" ++ ",".intercalate (renderFields fields) ++ "\x7d"

/-- The compact forms of the fields of an object. -/
def renderFields : List (String × Json) → List String
  | [] => []
  | (key, value) :: rest => (quote key ++ ":" ++ render value) :: renderFields rest

end

/-- Quoting a text writes its characters one by one. -/
theorem toList_quote (s : String) : (quote s).toList = quoteChars s.toList := by
  have push_all (cs : List Char) (out : String) : (cs.foldl String.push out).toList = out.toList ++ cs := by
    induction cs generalizing out with
    | nil => simp
    | cons c cs ih => simp [ih]
  have walk (cs : List Char) (out : String) :
      (cs.foldl (fun out c => (escapeChar c).foldl String.push out) out).toList =
        out.toList ++ cs.flatMap escapeChar := by
    induction cs generalizing out with
    | nil => simp
    | cons c cs ih => simp [ih, push_all]
  simp [quote, quoteChars, String.foldl_eq_foldl_toList, walk]

end Json

end Lexing
