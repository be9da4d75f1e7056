import Lexing.Input.FileSystem

/-!
# Readers

An input that arrives in pieces: some bytes, then failures, then more bytes. Reading goes on after an interruption and stops
at any other failure, or as soon as enough bytes have come.
-/

namespace Lexing

/-- An input that has not been read yet. -/
structure Reader where
  content : ByteArray
  /-- What happens behind the content, in order. -/
  failures : List IoFailure
  /-- The bytes that come if reading goes on after that. -/
  tail : ByteArray
deriving Inhabited

namespace Reader

/-- An input of some bytes and no failures. -/
def ofBytes (content : ByteArray) : Reader := ⟨content, [], ByteArray.empty⟩

/-- The failure that reading stops at, if there is one. -/
def obstacle? (reader : Reader) : Option IoFailure := reader.failures.find? fun failure => failure.kind ≠ .interrupted

/-- Reads everything, but no more than a number of bytes. -/
def read (limit : Nat) (reader : Reader) : Except IoFailure ByteArray :=
  if limit ≤ reader.content.size then .ok (reader.content.extract 0 limit)
  else
    match reader.obstacle? with
    | some failure => .error failure
    | none =>
      let content := reader.content ++ reader.tail
      .ok (content.extract 0 (min limit content.size))

/-- What is left of an input of which a number of bytes was read. -/
def rest (limit : Nat) (reader : Reader) : Reader :=
  let size := reader.content.size
  if limit ≤ size then { reader with content := reader.content.extract limit size }
  else ⟨reader.tail.extract (limit - size) reader.tail.size, [], ByteArray.empty⟩

end Reader

end Lexing
