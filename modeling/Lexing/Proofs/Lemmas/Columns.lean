import Lexing.Proofs.Lemmas.LineIndex
import Mathlib.Data.List.Induction

/-!
# Columns

How wide a line is can be said without places: a tab fills up to the next multiple of four, and every other character is one
wide. A walk from the start of a text counts its line feeds, and its column is one more than the width of the characters behind
the last of them (`column_start_behind`). So a place measures the text in front of it (`Position.Measures`).
-/

namespace Lexing

/-- The width of some characters of a line with one more behind them. -/
def widthWith (width : Nat) (c : Char) : Nat := if c = '\t' then (width / 4 + 1) * 4 else width + 1

/-- How wide the characters of a line are, tabs expanded to the multiples of four. -/
def displayWidth (cs : List Char) : Nat := cs.foldl widthWith 0

theorem displayWidth_concat (cs : List Char) (c : Char) : displayWidth (cs ++ [c]) = widthWith (displayWidth cs) c := by
  rw [displayWidth, List.foldl_append]
  rfl

namespace Position

/-- A line feed leads to the first column. -/
theorem column_after_feed (p : Position) : (p.after '\n').column = 1 := rfl

/-- In a line a column stays one more than the width of the characters in front of it. -/
theorem column_after {p : Position} {c : Char} {width : Nat} (hc : c ≠ '\n') (hp : p.column = 1 + width) :
    (p.after c).column = 1 + widthWith width c := by
  unfold after widthWith
  rw [if_neg hc]
  split
  · -- The tab starts `width % 4` columns behind a tab stop.
    have hbefore : p.column - 1 = width := by omega
    simp only [hbefore, tabWidth]
    omega
  · simp only [hp]
    omega

/-- The column behind some characters is told by those behind the last line feed. -/
theorem column_start_behind (cs : List Char) : (start.behind cs).column = 1 + displayWidth (cs.rtakeWhile (· ≠ '\n')) := by
  induction cs using List.reverseRecOn with
  | nil => rfl
  | append_singleton cs c ih =>
    rw [behind_append, behind_cons, behind_nil]
    by_cases hc : c = '\n'
    · rw [List.rtakeWhile_concat_neg _ _ _ (by simpa using hc), hc, column_after_feed]
      rfl
    · rw [List.rtakeWhile_concat_pos _ _ _ (by simpa using hc), displayWidth_concat]
      exact column_after hc ih

/-- What a place tells of the text in front of it: its bytes, its line feeds, and the width of its last line. -/
structure Measures (place : Position) (text : String) : Prop where
  offset_eq : place.offset = text.utf8ByteSize
  line_eq : place.line = 1 + text.toList.count '\n'
  column_eq : place.column = 1 + displayWidth (text.toList.rtakeWhile (· ≠ '\n'))

theorem measures_start_behind (text : String) : (start.behind text.toList).Measures text := by
  refine ⟨?_, ?_, column_start_behind text.toList⟩
  · rw [offset_start_behind, String.utf8Len_toList]
  · rw [line_behind, start]

/-- Below the bound a walk over a text ends at the place that measures it. -/
theorem exists_measures {text : String} (h : text.utf8ByteSize < sizeBound) :
    ∃ place, start.advanceText text = .ok place ∧ place.Measures text :=
  ⟨_, fits_of_utf8Len_lt (by rwa [String.utf8Len_toList]), measures_start_behind text⟩

end Position

end Lexing
