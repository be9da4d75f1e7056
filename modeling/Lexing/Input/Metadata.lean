import Lexing.Limits
import Lexing.Number.Rounding
import Lexing.Path
import Lexing.Text.Lowercase

/-!
# Metadata of an input

What is known of an input besides its text, and sizes as people read them.
-/

namespace Lexing

/-- The smallest unit above the byte, in bytes. -/
def kilobyte : Nat := 1024

/-- The unit above the kilobyte, in bytes. -/
def megabyte : Nat := 1024 * kilobyte

/-- The unit above the megabyte, in bytes. -/
def gigabyte : Nat := 1024 * megabyte

/-- A size in bytes as people read it: whole bytes, or two decimal places of the largest unit that is not larger than the
size. The size is measured in floating point before it is divided. -/
def humanSize (size : Nat) : String :=
  let measured := Number.roundBinary ⟨size, 1, Nat.one_pos⟩
  let inUnits (unit : Nat) : String := Number.fixedText 2 measured.num (measured.den * unit)
  if measured.num < kilobyte * measured.den then s!"{size} B"
  else if measured.num < megabyte * measured.den then inUnits kilobyte ++ " KB"
  else if measured.num < gigabyte * measured.den then inUnits megabyte ++ " MB"
  else inUnits gigabyte ++ " GB"

/-- The ending of a file name, in lower case: what stands behind its last dot, if something stands before it. -/
def extension? (name : String) : Option String :=
  let reversed := name.toList.reverse
  match reversed.dropWhile (· ≠ '.') with
  | [] | [_] => none
  | _ :: _ :: _ => if name = ".." then none else some (Text.lowercase (String.ofList (reversed.takeWhile (· ≠ '.')).reverse))

/-- What is known of an input besides its text. -/
structure Metadata where
  /-- The path from the root, or the name of an input that is no file. -/
  path : String
  /-- The size in bytes. -/
  size : Nat
  extension : Option String
  lines : Nat
  /-- Whether the time of its last change is known. -/
  dated : Bool
deriving DecidableEq, Repr, Inhabited

namespace Metadata

/-- The metadata of an input that is no file. -/
def named (name : String) (size : Nat) : Metadata := ⟨name, size, none, 0, false⟩

/-- Whether an input counts as large. -/
def isLarge (limits : Limits) (metadata : Metadata) : Bool := limits.largeFileThreshold < metadata.size

/-- Whether an input has no bytes. -/
def isEmpty (metadata : Metadata) : Bool := metadata.size = 0

end Metadata

end Lexing
