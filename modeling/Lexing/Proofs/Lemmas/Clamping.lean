import Lexing.Diagnostic.Event
import Lexing.Proofs.Lemmas.Slice

/-!
# Cutting a text to a size

A text is cut at the last boundary that is no further than a size. It is looked for backwards, and `BacksTo` says how the search goes:
how many steps it takes, and that none of them leads below zero or passes a boundary. There is always such a number of steps
(`exists_backsTo`), and it is at most three inside a text, as no character has more than four bytes (`BacksTo.steps_le_three`). What
stands in front of the boundary is the longest front part that fits (`BacksTo.exists_longestFront`).
-/

namespace Lexing

namespace Text

/-- The search for a boundary goes back from an offset by some steps: it stays above zero, passes no boundary, and ends at one. -/
structure BacksTo (s : String) (offset steps : Nat) : Prop where
  steps_le : steps ≤ offset
  passed : ∀ k < steps, ¬isBoundary s (offset - k)
  ends : isBoundary s (offset - steps)

/-- A front part of a text that has at most so many bytes, and no longer one has. -/
structure LongestFront (size : Nat) (text front : String) : Prop where
  isFront : ∃ back, text = front ++ back
  size_le : front.utf8ByteSize ≤ size
  longest : ∀ other back, text = other ++ back → other.utf8ByteSize ≤ size → ∃ more, front = other ++ more

variable {s : String} {offset steps : Nat}

/-! ## Boundaries -/

theorem isBoundary_iff : isBoundary s offset ↔ ∃ front back, s.toList = front ++ back ∧ offset = String.utf8Len front := by
  rw [isBoundary, String.Pos.Raw.isValid_eq_true_iff, isValid_iff]

theorem isBoundary_zero (s : String) : isBoundary s 0 := isBoundary_iff.2 ⟨[], s.toList, rfl, rfl⟩

/-- A boundary inside a text has another one behind it, four bytes on at most. -/
theorem exists_next_boundary (h : isBoundary s offset) (hlt : offset < s.utf8ByteSize) :
    ∃ next, offset < next ∧ next ≤ offset + 4 ∧ isBoundary s next := by
  obtain ⟨front, back, hs, rfl⟩ := isBoundary_iff.1 h
  cases back with
  | nil =>
    rw [← String.utf8Len_toList, hs, List.append_nil] at hlt
    exact absurd hlt (Nat.lt_irrefl _)
  | cons c back =>
    have hfront : s.toList = (front ++ [c]) ++ back := by rw [hs, List.append_assoc, List.singleton_append]
    refine ⟨String.utf8Len front + c.utf8Size, Nat.lt_add_of_pos_right c.utf8Size_pos, ?_, ?_⟩
    · exact Nat.add_le_add_left c.utf8Size_le_four _
    · refine isBoundary_iff.2 ⟨front ++ [c], back, hfront, ?_⟩
      rw [String.utf8Len_append, String.utf8Len_cons, String.utf8Len_nil, Nat.zero_add]

/-! ## The search -/

/-- The search ends, from any offset: at zero if nowhere else. -/
theorem exists_backsTo (s : String) (offset : Nat) : ∃ steps, BacksTo s offset steps := by
  induction offset with
  | zero => exact ⟨0, Nat.le_refl 0, fun _ hk => absurd hk (Nat.not_lt_zero _), isBoundary_zero s⟩
  | succ offset ih =>
    by_cases hb : isBoundary s (offset + 1)
    · exact ⟨0, Nat.zero_le _, fun _ hk => absurd hk (Nat.not_lt_zero _), hb⟩
    · obtain ⟨steps, hle, hpassed, hends⟩ := ih
      refine ⟨steps + 1, Nat.succ_le_succ hle, ?_, ?_⟩
      · intro k hk
        cases k with
        | zero => exact hb
        | succ k =>
          rw [Nat.add_sub_add_right]
          exact hpassed k (Nat.lt_of_succ_lt_succ hk)
      · rwa [Nat.add_sub_add_right]

/-- The search finds the boundary that it ends at. -/
theorem BacksTo.boundaryBefore_eq (h : BacksTo s offset steps) : boundaryBefore s offset = offset - steps := by
  induction offset generalizing steps with
  | zero => rw [boundaryBefore, Nat.zero_sub]
  | succ offset ih =>
    cases steps with
    | zero => rw [boundaryBefore, if_pos (by simpa using h.ends), Nat.sub_zero]
    | succ steps =>
      have hrest : BacksTo s offset steps := by
        refine ⟨Nat.le_of_succ_le_succ h.steps_le, fun k hk => ?_, ?_⟩
        · rw [← Nat.add_sub_add_right offset 1 k]
          exact h.passed (k + 1) (Nat.succ_lt_succ hk)
        · rw [← Nat.add_sub_add_right offset 1 steps]
          exact h.ends
      rw [boundaryBefore, if_neg (by simpa using h.passed 0 (Nat.succ_pos steps)), ih hrest, Nat.add_sub_add_right]

/-- No boundary lies between the end of the search and its start. -/
theorem BacksTo.le_of_isBoundary (h : BacksTo s offset steps) {other : Nat} (hother : isBoundary s other) (hle : other ≤ offset) :
    other ≤ offset - steps := by
  by_contra hlt
  refine h.passed (offset - other) (by omega) ?_
  rwa [Nat.sub_sub_self hle]

/-- Inside a text the search takes three steps at most. -/
theorem BacksTo.steps_le_three (h : BacksTo s offset steps) (hle : offset ≤ s.utf8ByteSize) : steps ≤ 3 := by
  by_contra hmore
  have hsteps := h.steps_le
  obtain ⟨next, hlt, hnext, hboundary⟩ := exists_next_boundary h.ends (by omega)
  have := h.le_of_isBoundary hboundary (by omega)
  omega

/-- What stands in front of the boundary is the longest front part of the text that fits, and the slice in front of it. -/
theorem BacksTo.exists_longestFront (h : BacksTo s offset steps) :
    ∃ front, LongestFront offset s front ∧ front.utf8ByteSize = offset - steps ∧ slice s 0 (offset - steps) = .ok front := by
  obtain ⟨front, back, hs, hsize⟩ := isBoundary_iff.1 h.ends
  have hbytes : (String.ofList front).utf8ByteSize = offset - steps := by rw [String.utf8ByteSize_ofList, hsize]
  refine ⟨String.ofList front, ⟨⟨String.ofList back, ?_⟩, ?_, ?_⟩, hbytes, ?_⟩
  · rw [← String.ofList_append, ← hs, String.ofList_toList]
  · rw [hbytes]
    exact Nat.sub_le _ _
  · intro other rest hother hfits
    have hlist : s.toList = other.toList ++ rest.toList := by rw [hother, String.toList_append]
    have hle : String.utf8Len other.toList ≤ String.utf8Len front := by
      rw [← String.utf8Len_toList] at hfits
      rw [← hsize]
      exact h.le_of_isBoundary (isBoundary_iff.2 ⟨other.toList, rest.toList, hlist, rfl⟩) hfits
    -- Of two front parts one is a front part of the other, and it is the one with fewer bytes.
    rcases List.prefix_or_prefix_of_prefix ⟨rest.toList, hlist.symm⟩ ⟨back, hs.symm⟩ with ⟨more, hmore⟩ | ⟨more, hmore⟩
    · exact ⟨String.ofList more, by rw [← hmore, String.ofList_append, String.ofList_toList]⟩
    · rw [← hmore, String.utf8Len_append] at hle
      obtain rfl : more = [] := String.utf8Len_eq_zero.1 (by omega)
      refine ⟨"", ?_⟩
      rw [String.append_empty, ← String.toList_inj, String.toList_ofList, ← hmore, List.append_nil]
  · have hlist : s.toList = [] ++ front ++ back := hs
    have hslice := slice_eq hlist
    rwa [String.utf8Len_nil, Nat.zero_add, ← hsize] at hslice

end Text

namespace Event

variable {size : Nat} {message : String}

/-- A message that fits stays as it is. -/
theorem clampMessage_of_le (h : message.utf8ByteSize ≤ size) : clampMessage size message = message := by
  rw [clampMessage, if_pos h]

/-- A message that does not fit is cut where the search ends, and marked. -/
theorem clampMessage_of_backsTo (h : size < message.utf8ByteSize) {steps : Nat} (hsteps : Text.BacksTo message size steps)
    {front : String} (hfront : Text.slice message 0 (size - steps) = .ok front) : clampMessage size message = front ++ "..." := by
  rw [clampMessage, if_neg (Nat.not_le.2 h)]
  simp only [hsteps.boundaryBefore_eq, hfront]
  rfl

end Event

end Lexing
