import Lexing.Proofs.Lemmas.Bytes
import Lexing.Proofs.Lemmas.Columns
import Lexing.Proofs.Lemmas.LineRange

/-!
# What places say

A walk over a text ends at the place that measures it: its bytes, its line feeds, and the width of its last line with the tabs
expanded. The line index walks over no more than one line, and yet names the same places (`places_measure`): at every boundary,
and past the end, the place behind the bytes in front of it, and none inside a character.
-/

namespace Lexing

namespace Text

/-- The front part of a text has the bytes in front of the boundary behind it. -/
theorem toUTF8_ofList_front {text : String} {front back : List Char} (ht : text.toList = front ++ back) :
    (String.ofList front).toUTF8 = text.toUTF8.extract 0 (String.utf8Len front) := by
  have hsize : String.utf8Len front = (String.ofList front).toUTF8.size := by
    rw [← String.utf8ByteSize_ofList]
    rfl
  have htext : text = String.ofList front ++ String.ofList back := by rw [← String.ofList_append, ← ht, String.ofList_toList]
  rw [htext, toUTF8_append, hsize]
  exact (ByteArray.extract_append_eq_left rfl).symm

end Text

/-- Where an offset, cut off at the end of a text, is a boundary, the index names the place behind the bytes in front of it. -/
theorem LineIndex.exists_positionAt_eq {text : String} (hb : text.utf8ByteSize < sizeBound) {offset : Nat}
    (h : (⟨min offset text.utf8ByteSize⟩ : String.Pos.Raw).IsValid text) :
    ∃ first place, first.toUTF8 = text.toUTF8.extract 0 (min offset text.utf8ByteSize) ∧
      Position.start.advanceText first = .ok place ∧ (ofText text).positionAt offset = .ok place := by
  obtain ⟨front, back, ht, hmin⟩ := Text.isValid_iff.1 h
  have hfront : String.utf8Len front < sizeBound := by omega
  have hfirst : Position.start.advanceText (String.ofList front) = .ok (Position.start.behind front) := by
    rw [Position.advanceText, String.toList_ofList]
    exact Position.fits_of_utf8Len_lt hfront
  refine ⟨String.ofList front, _, ?_, hfirst, ?_⟩
  · rw [hmin]
    exact Text.toUTF8_ofList_front ht
  · rw [positionAt_min, hmin]
    exact positionAt_eq ht hb

/-- Below the bound a walk over a text ends at the place that measures it, and the line index names at each offset the place
where a walk over the bytes in front of it ends. It names none exactly at the offsets inside a character. -/
theorem places_measure (source : String) (h : source.utf8ByteSize < sizeBound) :
    (∃ place, Position.start.advanceText source = .ok place ∧ place.Measures source) ∧
    (∀ offset, (⟨min offset source.utf8ByteSize⟩ : String.Pos.Raw).IsValid source →
      ∃ first place, first.toUTF8 = source.toUTF8.extract 0 (min offset source.utf8ByteSize) ∧
        Position.start.advanceText first = .ok place ∧ (LineIndex.ofText source).positionAt offset = .ok place) ∧
    ∀ offset, (∃ fault, (LineIndex.ofText source).positionAt offset = .error fault) ↔
      offset < source.utf8ByteSize ∧ ¬(⟨offset⟩ : String.Pos.Raw).IsValid source := by
  refine ⟨Position.exists_measures h, fun _ => LineIndex.exists_positionAt_eq h, ?_⟩
  intro offset
  constructor
  · rintro ⟨fault, hfault⟩
    by_contra hout
    obtain ⟨first, place, -, -, hplace⟩ := LineIndex.exists_positionAt_eq h ((Text.isValid_min_iff source offset).2 hout)
    rw [hplace] at hfault
    cases hfault
  · rintro ⟨hlt, hinside⟩
    exact ⟨_, LineIndex.positionAt_eq_offBoundary hlt hinside⟩

/-- A tab behind a letter of two bytes, in the second of three lines. -/
theorem places_measure_tab_behind_letter :
    (∃ place, Position.start.advanceText "a\né\tb" = .ok place ∧ place.offset = 6 ∧ place.line = 2 ∧ place.column = 6) ∧
      (∃ first place, first.toUTF8 = "a\né\tb".toUTF8.extract 0 5 ∧ Position.start.advanceText first = .ok place ∧
        (LineIndex.ofText "a\né\tb").positionAt 5 = .ok place) ∧
      ∃ fault, (LineIndex.ofText "a\né\tb").positionAt 3 = .error fault := by
  obtain ⟨⟨place, hplace, hmeasures⟩, hboundary, hinside⟩ := places_measure "a\né\tb" (by decide)
  refine ⟨⟨place, hplace, hmeasures.offset_eq, hmeasures.line_eq, hmeasures.column_eq⟩, ?_, ?_⟩
  · exact hboundary 5 (by decide)
  · exact (hinside 3).2 ⟨by decide, by decide⟩

end Lexing
