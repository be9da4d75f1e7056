import Lexing.Toml.Text
import Lexing.Toml.Value

/-!
# Numbers and times of a TOML document

Whole numbers have 64 bits. Underscores may stand between digits. A number with a fraction or an exponent must not be too
large for floating point, unless it is negative.
-/

namespace Lexing.Toml

/-- The digits behind the first of a number; an underscore needs a digit behind it. -/
def moreDigits (isDigit : Char → Bool) (read : List Char) : Reading (List Char)
  | [] => some (read.reverse, [])
  | '_' :: c :: rest => if isDigit c then moreDigits isDigit (c :: read) rest else none
  | c :: rest =>
    if isDigit c then moreDigits isDigit (c :: read) rest
    else if c = '_' then none
    else some (read.reverse, c :: rest)

/-- The digits of a number, at least one. -/
def digits (isDigit : Char → Bool) : Reading (List Char)
  | c :: rest => if isDigit c then moreDigits isDigit [c] rest else none
  | [] => none

/-- The digits of a decimal whole number, which start with a zero only if there is no other. -/
def wholeDigits : Reading (List Char)
  | '0' :: rest => some (['0'], rest)
  | cs => digits Char.isDigit cs

/-- The value of digits of a base. -/
def valueOf (base : Nat) (ds : List Char) : Nat := ds.foldl (fun value d => value * base + (hexValue? d).getD 0) 0

/-- Whether a whole number has 64 bits. -/
def fitsWord (negative : Bool) (size : Nat) : Bool := if negative then size ≤ Nat.pow 2 63 else size < Nat.pow 2 63

/-- Whether digits times a power of ten are nearest to no number of floating point. -/
def isTooLarge (ds : List Char) (power : Int) : Bool :=
  let size := valueOf 10 ds
  let bound := (Nat.pow 2 54 - 1) * Nat.pow 2 970
  if size = 0 then false
  else if 0 ≤ power then 400 < power || bound ≤ size * Nat.pow 10 power.toNat
  else ds.length > (-power).toNat && bound * Nat.pow 10 (-power).toNat ≤ size

/-- A sign, if there is one: whether it is a minus. -/
def sign : List Char → Bool × List Char
  | '-' :: rest => (true, rest)
  | '+' :: rest => (false, rest)
  | cs => (false, cs)

/-- An exponent, if there is one. -/
def exponent? : Reading Int
  | 'e' :: rest | 'E' :: rest =>
    let (negative, rest) := sign rest
    (digits Char.isDigit rest).map fun (ds, rest) =>
      (if negative then -(valueOf 10 ds : Int) else valueOf 10 ds, rest)
  | cs => some (0, cs)

/-- A decimal number. -/
def decimal (cs : List Char) : Option (List Char) := do
  let (negative, rest) := sign cs
  let (whole, rest) ← wholeDigits rest
  match rest with
  | '.' :: rest =>
    let (fraction, rest) ← digits Char.isDigit rest
    let (power, rest) ← exponent? rest
    if !negative && isTooLarge (whole ++ fraction) (power - fraction.length) then none else some rest
  | 'e' :: _ | 'E' :: _ =>
    let (power, rest) ← exponent? rest
    if !negative && isTooLarge whole power then none else some rest
  | _ => if fitsWord negative (valueOf 10 whole) then some rest else none

/-- The digits of a whole number in a base other than ten. -/
def basedNumber (base : Nat) (cs : List Char) : Option (List Char) := do
  let (ds, rest) ← digits (fun c => (hexValue? c).any (· < base)) cs
  if fitsWord false (valueOf base ds) then some rest else none

/-- One of the two numbers that are words. -/
def wordNumber : List Char → Option (List Char)
  | 'i' :: 'n' :: 'f' :: rest => some rest
  | 'n' :: 'a' :: 'n' :: rest => some rest
  | _ => none

/-- The characters behind a number. -/
def skipNumber : List Char → Option (List Char)
  | '0' :: 'x' :: rest => basedNumber 16 rest
  | '0' :: 'o' :: rest => basedNumber 8 rest
  | '0' :: 'b' :: rest => basedNumber 2 rest
  | cs => (wordNumber (sign cs).2).orElse fun _ => decimal cs

/-! ## Times -/

/-- A number of exactly two digits between two bounds. -/
def twoDigits (low high : Nat) : Reading Nat
  | a :: b :: rest =>
    let value := valueOf 10 [a, b]
    if a.isDigit && b.isDigit && low ≤ value && value ≤ high then some (value, rest) else none
  | _ => none

/-- The number of days of a month. -/
def daysIn (year month : Nat) : Nat :=
  if month = 2 then if year % 4 = 0 && (year % 100 ≠ 0 || year % 400 = 0) then 29 else 28
  else if month = 4 || month = 6 || month = 9 || month = 11 then 30
  else 31

/-- The characters behind a date. -/
def skipDate : List Char → Option (List Char)
  | a :: b :: c :: d :: '-' :: rest =>
    if [a, b, c, d].all Char.isDigit then
      match twoDigits 1 12 rest with
      | some (month, '-' :: rest) => (twoDigits 1 (daysIn (valueOf 10 [a, b, c, d]) month) rest).map Prod.snd
      | _ => none
    else none
  | _ => none

/-- The characters behind the part of a second, if there is one. -/
def skipFraction : List Char → List Char
  | '.' :: c :: rest => if c.isDigit then rest.dropWhile Char.isDigit else '.' :: c :: rest
  | cs => cs

/-- The characters behind a time of day. -/
def skipClock (cs : List Char) : Option (List Char) :=
  match twoDigits 0 23 cs with
  | some (_, ':' :: rest) =>
    match twoDigits 0 59 rest with
    | some (_, ':' :: rest) => (twoDigits 0 60 rest).map fun (_, rest) => skipFraction rest
    | _ => none
  | _ => none

/-- The characters behind an offset from universal time, if there is one. -/
def skipOffset : List Char → List Char
  | 'Z' :: rest | 'z' :: rest => rest
  | cs =>
    match cs with
    | '+' :: rest | '-' :: rest =>
      match twoDigits 0 23 rest with
      | some (_, ':' :: rest) => ((twoDigits 0 59 rest).map Prod.snd).getD cs
      | _ => cs
    | _ => cs

/-- The characters behind a time: a date, a date and a time of day, or a time of day. -/
def skipTime (cs : List Char) : Option (List Char) :=
  match skipDate cs with
  | none => skipClock cs
  | some rest =>
    match rest with
    | 'T' :: more | 't' :: more | ' ' :: more => some (((skipClock more).map skipOffset).getD rest)
    | _ => some rest

/-! ## Scalars -/

/-- A value that holds no other. -/
def scalar : Reading Value
  | 't' :: 'r' :: 'u' :: 'e' :: rest => some (.boolean true, rest)
  | 'f' :: 'a' :: 'l' :: 's' :: 'e' :: rest => some (.boolean false, rest)
  | cs =>
    match anyText cs with
    | some (text, rest) => some (.string text, rest)
    | none =>
      match skipTime cs with
      | some rest => some (.time, rest)
      | none => (skipNumber cs).map fun rest => (.number, rest)

end Lexing.Toml
