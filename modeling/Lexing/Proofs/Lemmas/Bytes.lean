import Lexing.Text.Slice
import Mathlib.Data.List.Induction

/-!
# Bytes of a text

Texts are written one behind the other, and bytes may break off anywhere, also inside a character. A line feed is one byte, and no
other character has this byte (`lineFeeds_toUTF8`), so complete lines can be counted in such bytes as well.
-/

namespace Lexing

namespace Text

/-- The number of line feeds among some bytes. -/
def lineFeeds (bytes : ByteArray) : Nat := bytes.data.toList.count 10

theorem lineFeeds_append (a b : ByteArray) : lineFeeds (a ++ b) = lineFeeds a + lineFeeds b := by
  unfold lineFeeds
  rw [ByteArray.data_append, Array.toList_append, List.count_append]

/-- There are no more line feeds in the front of some bytes than in all of them. -/
theorem lineFeeds_extract_le {bytes : ByteArray} {room : Nat} (h : room ≤ bytes.size) :
    lineFeeds (bytes.extract 0 room) ≤ lineFeeds bytes := by
  have hsplit := ByteArray.extract_eq_extract_append_extract (a := bytes) room (Nat.zero_le room) h
  rw [ByteArray.extract_zero_size] at hsplit
  calc
    lineFeeds (bytes.extract 0 room) ≤ lineFeeds (bytes.extract 0 room) + lineFeeds (bytes.extract room bytes.size) :=
      Nat.le_add_right _ _
    _ = lineFeeds (bytes.extract 0 room ++ bytes.extract room bytes.size) := (lineFeeds_append _ _).symm
    _ = lineFeeds bytes := by rw [← hsplit]

/-- The front of some bytes in two parts, when it ends in the first. -/
theorem extract_append_of_le {a b : ByteArray} {room : Nat} (h : room ≤ a.size) : (a ++ b).extract 0 room = a.extract 0 room := by
  have hnone : b.extract (0 - a.size) (room - a.size) = ByteArray.empty := ByteArray.extract_eq_empty_iff.2 (by omega)
  rw [ByteArray.extract_append, hnone, ByteArray.append_empty]

/-- The front of some bytes in two parts, when it ends in the second. -/
theorem extract_append_of_ge {a b : ByteArray} {room : Nat} (h : a.size ≤ room) :
    (a ++ b).extract 0 room = a ++ b.extract 0 (room - a.size) := by
  have hall : a.extract 0 room = a := by
    rw [← Nat.max_eq_left h, ByteArray.extract_zero_max_size]
  rw [ByteArray.extract_append, hall, Nat.zero_sub]

theorem toUTF8_append (s t : String) : (s ++ t).toUTF8 = s.toUTF8 ++ t.toUTF8 := String.toByteArray_append

/-- The bytes of a text are read as this text. -/
theorem fromUTF8?_toUTF8 (s : String) : String.fromUTF8? s.toUTF8 = some s := by
  have hvalid : s.toUTF8.IsValidUTF8 := s.isValidUTF8
  unfold String.fromUTF8?
  rw [dif_pos hvalid]
  rfl

/-- Some bytes are read as the text whose bytes they are, if there is one. -/
theorem fromUTF8?_eq_some_iff {bytes : ByteArray} {source : String} :
    String.fromUTF8? bytes = some source ↔ source.toUTF8 = bytes := by
  constructor
  · intro h
    unfold String.fromUTF8? at h
    split at h
    · obtain rfl := Option.some.inj h
      rfl
    · cases h
  · rintro rfl
    exact fromUTF8?_toUTF8 source

/-- Of the bytes of a character one is a line feed if the character is, and else none. -/
theorem count_utf8EncodeChar (c : Char) : (String.utf8EncodeChar c).count 10 = if c = '\n' then 1 else 0 := by
  have hbyte : ∀ n : Nat, UInt8.ofNat n = 10 ↔ n % 256 = 10 := by
    intro n
    rw [← UInt8.toNat_inj, UInt8.toNat_ofNat']
    rfl
  have hfeed : c = '\n' ↔ c.val.toNat = 10 := by
    rw [← Char.val_inj, ← UInt32.toNat_inj]
    rfl
  unfold String.utf8EncodeChar
  simp only [hfeed]
  -- Only a character of one byte can have the byte: all bytes of the longer ones are 128 or more.
  split
  · simp only [List.count_singleton, beq_iff_eq, hbyte]
    split <;> split <;> omega
  · have hlarge : c.val.toNat ≠ 10 := by omega
    rw [if_neg hlarge, List.count_eq_zero]
    intro hm
    split at hm
    · simp only [List.mem_cons, List.not_mem_nil, or_false, eq_comm (a := (10 : UInt8)), hbyte] at hm
      omega
    · split at hm
      · simp only [List.mem_cons, List.not_mem_nil, or_false, eq_comm (a := (10 : UInt8)), hbyte] at hm
        omega
      · simp only [List.mem_cons, List.not_mem_nil, or_false, eq_comm (a := (10 : UInt8)), hbyte] at hm
        omega

/-- The bytes of a text are those of its characters. -/
theorem toList_toUTF8 (s : String) : s.toUTF8.data.toList = s.toList.flatMap String.utf8EncodeChar := by
  have hbytes : (String.ofList s.toList).toByteArray = s.toList.utf8Encode := String.toByteArray_ofList
  rw [String.ofList_toList] at hbytes
  rw [String.toUTF8, hbytes]
  simp [List.utf8Encode]

/-- A text has as many line feeds as its bytes. -/
theorem lineFeeds_toUTF8 (s : String) : lineFeeds s.toUTF8 = s.toList.count '\n' := by
  rw [lineFeeds, toList_toUTF8]
  induction s.toList with
  | nil => rfl
  | cons c cs ih =>
    rw [List.flatMap_cons, List.count_append, ih, count_utf8EncodeChar, List.count_cons]
    by_cases hc : c = '\n' <;> simp [hc]
    omega

/-- The walk that counts lines, over some characters. -/
theorem foldl_countLine (cs : List Char) :
    cs.foldl countLine (0, false) = (cs.count '\n', !(cs.isEmpty || cs.getLast? = some '\n')) := by
  induction cs using List.reverseRecOn with
  | nil => rfl
  | append_singleton cs c ih =>
    rw [List.foldl_append, ih, List.foldl_cons, List.foldl_nil, countLine]
    by_cases hc : c = '\n'
    · simp [hc]
    · simp [hc]

/-- The lines of a text are its line feeds, and one more when it has characters and does not end in a line feed. -/
theorem lineCount_eq (s : String) :
    lineCount s = s.toList.count '\n' + if s = "" ∨ s.toList.getLast? = some '\n' then 0 else 1 := by
  have hempty : s.toList.isEmpty = true ↔ s = "" := by simp
  rw [lineCount, String.foldl_eq_foldl_toList, foldl_countLine]
  by_cases h : s = "" ∨ s.toList.getLast? = some '\n'
  · have hclosed : (s.toList.isEmpty || decide (s.toList.getLast? = some '\n')) = true := by
      rwa [Bool.or_eq_true, hempty, decide_eq_true_eq]
    simp [hclosed, h]
  · have hopen : (s.toList.isEmpty || decide (s.toList.getLast? = some '\n')) = false := by
      rwa [← Bool.not_eq_true, Bool.or_eq_true, hempty, decide_eq_true_eq]
    simp [hopen, h]

end Text

end Lexing
