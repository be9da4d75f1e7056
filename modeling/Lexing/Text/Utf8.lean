/-!
# Reading bytes as text

Bytes are text when they are UTF-8. Of bytes that are not, the part in front of the first broken character can be told.
-/

namespace Lexing.Text

/-- Where the first broken character starts, looked for from an offset on; the size of the bytes when there is none. -/
def validUpToFrom (bytes : ByteArray) (offset : Nat) : Nat :=
  if _inside : offset < bytes.size then
    match bytes.utf8DecodeChar? offset with
    | some c => validUpToFrom bytes (offset + c.utf8Size)
    | none => offset
  else offset
termination_by bytes.size - offset
decreasing_by
  have := c.utf8Size_pos
  omega

/-- The number of bytes in front of the first broken character. -/
def validUpTo (bytes : ByteArray) : Nat := validUpToFrom bytes 0

end Lexing.Text
