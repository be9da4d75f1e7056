import Lexing.Source.Position
import Mathlib.Data.String.Basic

/-!
# Places behind characters

`Position.behind` is the place behind some characters when numbers of any size are allowed. Every place that is reached from
the start of a text is `Regular`: a byte leads at most one line on, and at most one tab width to the right. So in a text below
`sizeBound` bytes no step leaves the range of lines and columns, and `advance` and `advanceChars` never fail there.

A longer text may fit the range too (`Fits`). Then each part of it does, also when it is read by itself from the start
(`fits_of_fits_append`): to begin further in front can only make offsets, lines and columns smaller.
-/

namespace Lexing

/-- Texts of fewer bytes than this bound, 2 to the 30th power, have lines and columns that fit 32 bits, tabs included. -/
def sizeBound : Nat := 1073741824

namespace Position

/-- The place behind some characters, however large its numbers get. -/
def behind (p : Position) (cs : List Char) : Position := cs.foldl after p

@[simp] theorem behind_nil (p : Position) : p.behind [] = p := rfl

@[simp] theorem behind_cons (p : Position) (c : Char) (cs : List Char) : p.behind (c :: cs) = (p.after c).behind cs := rfl

theorem behind_append (p : Position) (cs ds : List Char) : p.behind (cs ++ ds) = (p.behind cs).behind ds :=
  List.foldl_append

/-- A character moves the offset by its own bytes, whatever it does to line and column. -/
theorem offset_after (p : Position) (c : Char) : (p.after c).offset = p.offset + c.utf8Size := by
  unfold after
  split
  · rename_i h
    subst h
    rfl
  · split
    · rename_i h
      subst h
      rfl
    · rfl

/-- Characters move the offset by their bytes. -/
theorem offset_behind (p : Position) (cs : List Char) : (p.behind cs).offset = p.offset + String.utf8Len cs := by
  induction cs generalizing p with
  | nil => rfl
  | cons c cs ih =>
    rw [behind_cons, ih, offset_after, String.utf8Len_cons]
    omega

/-- From the start of a text the offset is the number of bytes. -/
theorem offset_start_behind (cs : List Char) : (start.behind cs).offset = String.utf8Len cs := by
  rw [offset_behind, start, Nat.zero_add]

/-- A character is never behind its own place. -/
theorem offset_lt_after (p : Position) (c : Char) : p.offset < (p.after c).offset := by
  have := c.utf8Size_pos
  rw [offset_after]
  omega

theorem offset_le_behind (p : Position) (cs : List Char) : p.offset ≤ (p.behind cs).offset := by
  rw [offset_behind]
  omega

/-- At least one character leads to a larger offset. -/
theorem offset_lt_behind (p : Position) {cs : List Char} (h : cs ≠ []) : p.offset < (p.behind cs).offset := by
  cases cs with
  | nil => exact absurd rfl h
  | cons c cs => exact Nat.lt_of_lt_of_le (p.offset_lt_after c) (offset_le_behind _ cs)

/-! ## Places of texts -/

/-- What holds of a place that is reached from the start of a text: line and column count from 1, and no byte leads more than
one line on or more than one tab width to the right. -/
structure Regular (p : Position) : Prop where
  line_pos : 1 ≤ p.line
  column_pos : 1 ≤ p.column
  line_le : p.line ≤ p.offset + 1
  column_le : p.column ≤ 4 * p.offset + 1

theorem regular_start : Regular start := ⟨by decide, by decide, by decide, by decide⟩

/-- One character keeps a place regular. -/
theorem Regular.after {p : Position} (h : p.Regular) (c : Char) : (p.after c).Regular := by
  obtain ⟨hl, hc, hlo, hco⟩ := h
  have hs := c.utf8Size_pos
  unfold Position.after
  split
  · exact ⟨by simp, by simp, by simp only; omega, by simp only; omega⟩
  · split
    · have hmod := Nat.mod_lt (p.column - 1) (show 0 < tabWidth by decide)
      simp only [tabWidth] at hmod ⊢
      exact ⟨hl, by simp only; omega, by simp only; omega, by simp only; omega⟩
    · exact ⟨hl, by simp only; omega, by simp only; omega, by simp only; omega⟩

/-- Characters keep a place regular. -/
theorem Regular.behind {p : Position} (h : p.Regular) (cs : List Char) : (p.behind cs).Regular := by
  induction cs generalizing p with
  | nil => exact h
  | cons c cs ih => exact ih (h.after c)

/-- Below the bound a step never fails. -/
theorem Regular.advance_eq {p : Position} (h : p.Regular) {c : Char} (hb : (p.after c).offset < sizeBound) :
    p.advance c = .ok (p.after c) := by
  obtain ⟨hl, hc, hlo, hco⟩ := h
  have ho := p.offset_lt_after c
  have hfit : ¬offsetBound ≤ (p.after c).offset := by simp only [offsetBound, sizeBound] at *; omega
  have hr := Regular.after ⟨hl, hc, hlo, hco⟩ c
  have hline : ¬lineBound ≤ (p.after c).line := by
    have := hr.line_le
    simp only [lineBound, sizeBound] at *
    omega
  have hcol : ¬lineBound ≤ (p.after c).column := by
    have := hr.column_le
    simp only [lineBound, sizeBound] at *
    omega
  have htab : ¬lineBound ≤ p.column + tabWidth := by simp only [lineBound, tabWidth, sizeBound] at *; omega
  have hzero : ¬p.column = 0 := by omega
  simp only [advance, hfit, hline, hcol, htab, hzero, if_false]
  split
  · rfl
  · split <;> rfl

/-- Below the bound no character of a text leads out of range. -/
theorem Regular.advanceChars_eq {p : Position} (h : p.Regular) {cs : List Char}
    (hb : (p.behind cs).offset < sizeBound) : p.advanceChars cs = .ok (p.behind cs) := by
  induction cs generalizing p with
  | nil => rfl
  | cons c cs ih =>
    have hc : (p.after c).offset < sizeBound := Nat.lt_of_le_of_lt (offset_le_behind _ cs) hb
    rw [advanceChars, h.advance_eq hc]
    exact ih (h.after c) hb

/-! ## Texts that fit -/

/-- No step over some characters leaves the range of offsets, lines and columns. -/
def Fits (p : Position) (cs : List Char) : Prop := p.advanceChars cs = .ok (p.behind cs)

theorem fits_nil (p : Position) : p.Fits [] := rfl

/-- Below the bound a text fits. -/
theorem Regular.fits {p : Position} (h : p.Regular) {cs : List Char} (hb : (p.behind cs).offset < sizeBound) : p.Fits cs :=
  h.advanceChars_eq hb

/-- Characters of less than the bound fit at the start. -/
theorem fits_of_utf8Len_lt {cs : List Char} (h : String.utf8Len cs < sizeBound) : start.Fits cs :=
  regular_start.fits (by rwa [offset_start_behind])

/-- What keeps a step in range: the numbers of the place behind the character, and for a tab the room of a whole tab width. -/
structure InRange (p : Position) (c : Char) : Prop where
  offset_lt : (p.after c).offset < offsetBound
  line_lt : c = '\n' → (p.after c).line < lineBound
  tab_lt : c = '\t' → p.column + tabWidth < lineBound
  tab_pos : c = '\t' → p.column ≠ 0
  column_lt : c ≠ '\n' → c ≠ '\t' → (p.after c).column < lineBound

/-- A step succeeds when it stays in range, and leads to the place behind the character. -/
theorem advance_eq_ok_iff {p q : Position} {c : Char} : p.advance c = .ok q ↔ q = p.after c ∧ p.InRange c := by
  constructor
  · intro h
    obtain ⟨hq, ho, hl, ht, hz, hc⟩ : q = p.after c ∧ (p.after c).offset < offsetBound ∧
        (c = '\n' → (p.after c).line < lineBound) ∧ (c = '\t' → p.column + tabWidth < lineBound) ∧
        (c = '\t' → p.column ≠ 0) ∧ (c ≠ '\n' → c ≠ '\t' → (p.after c).column < lineBound) := by
      grind [advance]
    exact ⟨hq, ho, hl, ht, hz, hc⟩
  · rintro ⟨rfl, ho, hl, ht, hz, hc⟩
    grind [advance]

/-- A text fits when its first character does and the rest fits behind it. -/
theorem fits_cons {p : Position} {c : Char} {cs : List Char} :
    p.Fits (c :: cs) ↔ p.advance c = .ok (p.after c) ∧ (p.after c).Fits cs := by
  unfold Fits
  rw [advanceChars, behind_cons]
  cases ha : p.advance c with
  | error fault => simp
  | ok q =>
    obtain rfl := (advance_eq_ok_iff.1 ha).1
    simp

/-- A step leads to the place behind the character, or faults. -/
theorem advance_or_fault (p : Position) (c : Char) : p.advance c = .ok (p.after c) ∨ ∃ fault, p.advance c = .error fault := by
  cases ha : p.advance c with
  | error fault => exact Or.inr ⟨fault, rfl⟩
  | ok q => exact Or.inl (by rw [(advance_eq_ok_iff.1 ha).1])

/-- A text does not fit where its first step faults. -/
theorem not_fits_of_fault {p : Position} {c : Char} {fault : Fault} (h : p.advance c = .error fault) (cs : List Char) :
    ¬p.Fits (c :: cs) := fun hp => by
  cases h.symm.trans (fits_cons.1 hp).1

/-- Two texts fit one behind the other when the first fits and the second fits behind it. -/
theorem fits_append {p : Position} {cs ds : List Char} :
    p.Fits (cs ++ ds) ↔ p.Fits cs ∧ (p.behind cs).Fits ds := by
  induction cs generalizing p with
  | nil => simp [fits_nil]
  | cons c cs ih => rw [List.cons_append, fits_cons, fits_cons, ih, and_assoc, behind_cons]

/-- A place that is no further on than another one, by offset, by line and by column. -/
structure NoFurther (p q : Position) : Prop where
  offset_le : p.offset ≤ q.offset
  line_le : p.line ≤ q.line
  column_pos : 1 ≤ p.column
  column_le : p.column ≤ q.column

/-- The start of a text is no further on than any place in it. -/
theorem Regular.start_noFurther {p : Position} (h : p.Regular) : NoFurther start p :=
  ⟨Nat.zero_le _, h.line_pos, Nat.le_refl 1, h.column_pos⟩

/-- A character leaves the order of two places as it is: also a tab stop is no further on when the column is not. -/
theorem NoFurther.after {p q : Position} (h : NoFurther p q) (c : Char) : NoFurther (p.after c) (q.after c) := by
  obtain ⟨ho, hl, hp, hc⟩ := h
  unfold Position.after
  split
  · exact ⟨by simp only; omega, by simp only; omega, Nat.le_refl 1, Nat.le_refl 1⟩
  · split
    · simp only [tabWidth]
      exact ⟨by simp only; omega, hl, by simp only; omega, by simp only; omega⟩
    · exact ⟨by simp only; omega, hl, by simp only; omega, by simp only; omega⟩

/-- A step that stays in range from a place does so from one that is no further on. -/
theorem NoFurther.inRange {p q : Position} (h : NoFurther p q) {c : Char} (hq : q.InRange c) : p.InRange c := by
  have hafter := h.after c
  have hcolumn := h.column_pos
  have hle := h.column_le
  refine ⟨?_, ?_, ?_, ?_, ?_⟩
  · exact Nat.lt_of_le_of_lt hafter.offset_le hq.offset_lt
  · exact fun hc => Nat.lt_of_le_of_lt hafter.line_le (hq.line_lt hc)
  · exact fun hc => Nat.lt_of_le_of_lt (Nat.add_le_add_right hle _) (hq.tab_lt hc)
  · intro _ hzero
    omega
  · exact fun hn ht => Nat.lt_of_le_of_lt hafter.column_le (hq.column_lt hn ht)

/-- A text that fits at a place fits at one that is no further on. -/
theorem NoFurther.fits {p q : Position} (h : NoFurther p q) {cs : List Char} (hq : q.Fits cs) : p.Fits cs := by
  induction cs generalizing p q with
  | nil => exact p.fits_nil
  | cons c cs ih =>
    obtain ⟨hc, hcs⟩ := fits_cons.1 hq
    have hrange := h.inRange (advance_eq_ok_iff.1 hc).2
    exact fits_cons.2 ⟨advance_eq_ok_iff.2 ⟨rfl, hrange⟩, ih (h.after c) hcs⟩

/-- A part of a text that fits at the start fits at the start by itself. -/
theorem fits_of_fits_append {front cs : List Char} (h : start.Fits (front ++ cs)) : start.Fits cs :=
  (regular_start.behind front).start_noFurther.fits (fits_append.1 h).2

/-! ## The order of places -/

/-- Of two places with different offsets the offset decides. -/
theorem compare_eq_lt {a b : Position} (h : a.offset < b.offset) : a.compare b = .lt := by
  simp [compare, Nat.compare_eq_lt.2 h, Ordering.then]

end Position

end Lexing
