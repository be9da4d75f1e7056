import Lexing.Proofs.Lemmas.LineIndex

/-!
# The line index stays in range

The line index looks up starts of lines by number and takes differences of offsets. In the index of a text none of these is out of
range (`inRange_ofText`): a start lies at or before every offset, the line found for an offset is there and starts at or before it,
and a line that follows another does not start at 0. So no difference falls below zero, and cutting one off at zero hides nothing.

Inside a character the index names no place and gives no excerpt (`excerpt_eq_offBoundary`).
-/

namespace Lexing.LineIndex

/-- What keeps look-ups and differences in an index in range. -/
structure InRange (index : LineIndex) : Prop where
  /-- Some start lies at or before each offset, so the line of the offset is the last of these. -/
  countP_pos : ∀ offset, 0 < index.starts.countP (· ≤ offset)
  /-- The line of an offset is there, and starts at or before it. -/
  start_le : ∀ offset, ∃ start, index.starts[index.lineOf offset]? = some start ∧ start ≤ offset
  /-- A line behind another one has a line feed in front of its start. -/
  next_pos : ∀ line next, index.starts[line + 1]? = some next → 0 < next
  /-- The number of a line fits 32 bits. -/
  size_lt : index.starts.size < Position.lineBound
  /-- The line of a place is there, counted from 1, and starts at or before the place. -/
  place_start : ∀ offset place, index.positionAt offset = .ok place →
    0 < place.line ∧ ∃ start, index.starts[place.line - 1]? = some start ∧ start ≤ place.offset

/-- Starts of lines rise. -/
theorem pairwise_startsFrom (offset : Nat) (cs : List Char) : (startsFrom offset cs).Pairwise (· < ·) := by
  induction cs generalizing offset with
  | nil => exact List.Pairwise.nil
  | cons c cs ih =>
    rw [startsFrom]
    split
    · exact List.pairwise_cons.2 ⟨fun _ hs => (bounds_of_mem_startsFrom hs).1, ih _⟩
    · exact ih _

/-- In a rising list the elements that are not above a bound are the first ones. -/
theorem exists_getElem?_of_lt_countP {l : List Nat} (h : l.Pairwise (· < ·)) {bound i : Nat}
    (hi : i < l.countP (· ≤ bound)) : ∃ start, l[i]? = some start ∧ start ≤ bound := by
  induction l generalizing i with
  | nil => cases hi
  | cons a rest ih =>
    obtain ⟨hall, hrest⟩ := List.pairwise_cons.1 h
    by_cases ha : a ≤ bound
    · cases i with
      | zero => exact ⟨a, rfl, ha⟩
      | succ i =>
        rw [List.countP_cons_of_pos (by simpa using ha)] at hi
        exact ih hrest (by omega)
    · have hnone : (a :: rest).countP (· ≤ bound) = 0 := by
        rw [List.countP_eq_zero]
        intro start hs
        rw [decide_eq_true_eq]
        rcases List.mem_cons.1 hs with rfl | hs
        · exact ha
        · have := hall start hs
          omega
      omega

variable {text : String}

theorem pairwise_starts (text : String) : (0 :: startsFrom 0 text.toList).Pairwise (· < ·) :=
  List.pairwise_cons.2 ⟨fun _ hs => (bounds_of_mem_startsFrom hs).1, pairwise_startsFrom 0 _⟩

/-- The first line starts at or before every offset. -/
theorem countP_starts_pos (text : String) (offset : Nat) : 0 < (ofText text).starts.countP (· ≤ offset) := by
  rw [starts_ofText, List.countP_toArray, List.countP_cons_of_pos (by simp)]
  exact Nat.succ_pos _

/-- The line of an offset starts at or before it. -/
theorem exists_start_le (text : String) (offset : Nat) :
    ∃ start, (ofText text).starts[(ofText text).lineOf offset]? = some start ∧ start ≤ offset := by
  have hpos := countP_starts_pos text offset
  have hline : (ofText text).lineOf offset < (0 :: startsFrom 0 text.toList).countP (· ≤ offset) := by
    rw [starts_ofText, List.countP_toArray] at hpos
    rw [lineOf, starts_ofText, List.countP_toArray]
    exact Nat.sub_lt hpos Nat.one_pos
  rw [starts_ofText, List.getElem?_toArray]
  exact exists_getElem?_of_lt_countP (pairwise_starts text) hline

/-- There are no more line feeds than bytes. -/
theorem size_starts_le (text : String) : (ofText text).starts.size ≤ text.utf8ByteSize + 1 := by
  have hcount : ∀ cs : List Char, cs.count '\n' ≤ String.utf8Len cs := by
    intro cs
    induction cs with
    | nil => exact Nat.le_refl 0
    | cons c cs ih =>
      have := c.utf8Size_pos
      rw [String.utf8Len_cons, List.count_cons]
      split <;> omega
  have h := hcount text.toList
  rw [String.utf8Len_toList] at h
  rw [starts_ofText, List.size_toArray, List.length_cons, length_startsFrom]
  omega

/-- Inside a character there is no place: the slice from the start of the line up to the offset fails. -/
theorem positionAt_eq_offBoundary {offset : Nat} (hlt : offset < text.utf8ByteSize)
    (h : ¬(⟨offset⟩ : String.Pos.Raw).IsValid text) : (ofText text).positionAt offset = .error .offBoundary := by
  obtain ⟨start, hs, hle⟩ := exists_start_le text offset
  have hstart : (ofText text).starts.getD ((ofText text).lineOf offset) 0 = start := by
    rw [Array.getD_eq_getD_getElem?, hs]
    rfl
  have htext : (ofText text).text = text := rfl
  have hmin : min offset text.utf8ByteSize = offset := by omega
  simp only [positionAt, htext, hmin, hstart, Text.slice_eq_offBoundary hle h, bind, Except.bind]

/-- Inside a character there is no excerpt. -/
theorem excerpt_eq_offBoundary {offset : Nat} (hlt : offset < text.utf8ByteSize)
    (h : ¬(⟨offset⟩ : String.Pos.Raw).IsValid text) (count : Nat) :
    (ofText text).excerpt offset count = .error .offBoundary := by
  simp only [excerpt, positionAt_eq_offBoundary hlt h, bind, Except.bind]

/-- A place that the index names is one behind characters at the front of the text, and its line is the line of its offset. -/
theorem exists_of_positionAt_eq_ok (hb : text.utf8ByteSize < sizeBound) {offset : Nat} {place : Position}
    (h : (ofText text).positionAt offset = .ok place) :
    ∃ front back, text.toList = front ++ back ∧ place = Position.start.behind front := by
  by_cases hlt : offset < text.utf8ByteSize
  · by_cases hv : (⟨offset⟩ : String.Pos.Raw).IsValid text
    · obtain ⟨front, back, ht, rfl⟩ := Text.isValid_iff.1 hv
      rw [positionAt_eq ht hb] at h
      exact ⟨front, back, ht, (Except.ok.inj h).symm⟩
    · rw [positionAt_eq_offBoundary hlt hv] at h
      cases h
  · have ht : text.toList = text.toList ++ [] := (List.append_nil _).symm
    have hend := positionAt_eq ht hb
    rw [String.utf8Len_toList] at hend
    rw [positionAt_of_size_le (Nat.le_of_not_lt hlt), hend] at h
    exact ⟨text.toList, [], ht, (Except.ok.inj h).symm⟩

/-- The index of a text below the bound is in range. -/
theorem inRange_ofText (hb : text.utf8ByteSize < sizeBound) : (ofText text).InRange := by
  refine ⟨countP_starts_pos text, exists_start_le text, ?_, ?_, ?_⟩
  · intro line next hnext
    rw [starts_ofText, List.getElem?_toArray, List.getElem?_cons_succ] at hnext
    exact (bounds_of_mem_startsFrom (List.mem_of_getElem? hnext)).1
  · have hsize := size_starts_le text
    simp only [sizeBound] at hb
    simp only [Position.lineBound]
    omega
  · intro offset place hplace
    obtain ⟨front, back, ht, rfl⟩ := exists_of_positionAt_eq_ok hb hplace
    have hline : (Position.start.behind front).line = (ofText text).lineOf (String.utf8Len front) + 1 := by
      rw [Position.line_behind, lineOf_eq ht, Position.start, Nat.add_comm]
    rw [hline, Position.offset_start_behind]
    exact ⟨Nat.succ_pos _, exists_start_le text _⟩

end Lexing.LineIndex
