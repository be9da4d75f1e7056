import Lexing.Text.Slice
import Mathlib.Data.List.DropRight
import Mathlib.Data.String.Basic

/-!
# Slices of a text given in parts

An offset is a boundary of a text exactly when it is the size of some front part of it (`isValid_iff`). Between the boundaries
in front of a middle part and behind it, a slice is that part (`slice_eq`); to an offset that is no boundary there is none.
-/

namespace Lexing.Text

/-- The boundaries of a text are the sizes of its front parts. -/
theorem isValid_iff {s : String} {offset : Nat} :
    (⟨offset⟩ : String.Pos.Raw).IsValid s ↔ ∃ front back, s.toList = front ++ back ∧ offset = String.utf8Len front := by
  rw [String.Pos.Raw.isValid_iff_exists_append]
  constructor
  · rintro ⟨a, b, rfl, h⟩
    refine ⟨a.toList, b.toList, String.toList_append, ?_⟩
    rw [String.utf8Len_toList]
    exact congrArg String.Pos.Raw.byteIdx h
  · rintro ⟨front, back, hs, rfl⟩
    refine ⟨String.ofList front, String.ofList back, ?_, (String.rawEndPos_ofList front).symm⟩
    rw [← String.ofList_append, ← hs, String.ofList_toList]

/-- An offset is cut off at the end of a text to a boundary, unless it lies inside a character. -/
theorem isValid_min_iff (text : String) (offset : Nat) :
    (⟨min offset text.utf8ByteSize⟩ : String.Pos.Raw).IsValid text ↔
      ¬(offset < text.utf8ByteSize ∧ ¬(⟨offset⟩ : String.Pos.Raw).IsValid text) := by
  have hend : (⟨text.utf8ByteSize⟩ : String.Pos.Raw).IsValid text :=
    isValid_iff.2 ⟨text.toList, [], (List.append_nil _).symm, (String.utf8Len_toList text).symm⟩
  rcases Nat.lt_or_ge offset text.utf8ByteSize with hlt | hge
  · simp [Nat.min_eq_left (Nat.le_of_lt hlt), hlt]
  · simp [Nat.min_eq_right hge, hend, Nat.not_lt.2 hge]

/-- The characters between two boundaries are the middle part. -/
theorem extract_eq {s : String} {front middle back : List Char} (hs : s.toList = front ++ middle ++ back)
    (h₁ : (⟨String.utf8Len front⟩ : String.Pos.Raw).IsValid s)
    (h₂ : (⟨String.utf8Len front + String.utf8Len middle⟩ : String.Pos.Raw).IsValid s) :
    s.extract ⟨_, h₁⟩ ⟨_, h₂⟩ = String.ofList middle := by
  have hsize : ∀ cs : List Char, (String.ofList cs).toByteArray.size = String.utf8Len cs := by
    intro cs
    rw [String.size_toByteArray, String.utf8ByteSize_ofList]
  have hbytes : s.toByteArray =
      (String.ofList front).toByteArray ++ ((String.ofList middle).toByteArray ++ (String.ofList back).toByteArray) := by
    rw [← String.toByteArray_append, ← String.toByteArray_append, ← String.ofList_append, ← String.ofList_append,
      ← List.append_assoc, ← hs, String.ofList_toList]
  apply String.toByteArray_inj.1
  rw [String.toByteArray_extract]
  show s.toByteArray.extract (String.utf8Len front) (String.utf8Len front + String.utf8Len middle) = _
  rw [hbytes, ← hsize front, ← hsize middle]
  have h := ByteArray.extract_append_size_add (a := (String.ofList front).toByteArray)
    (b := (String.ofList middle).toByteArray ++ (String.ofList back).toByteArray) (i := 0)
    (j := (String.ofList middle).toByteArray.size)
  rw [Nat.add_zero] at h
  exact h.trans (ByteArray.extract_append_eq_left rfl)

/-- A slice between two boundaries is the middle part. -/
theorem slice_eq {s : String} {front middle back : List Char} (hs : s.toList = front ++ middle ++ back) :
    slice s (String.utf8Len front) (String.utf8Len front + String.utf8Len middle) = .ok (String.ofList middle) := by
  have h₁ : (⟨String.utf8Len front⟩ : String.Pos.Raw).IsValid s :=
    isValid_iff.2 ⟨front, middle ++ back, by rw [hs, List.append_assoc], rfl⟩
  have h₂ : (⟨String.utf8Len front + String.utf8Len middle⟩ : String.Pos.Raw).IsValid s :=
    isValid_iff.2 ⟨front ++ middle, back, hs, (String.utf8Len_append _ _).symm⟩
  rw [slice, if_neg (by omega), dif_pos h₁, dif_pos h₂, extract_eq hs]

/-- No slice ends off a boundary. -/
theorem slice_eq_offBoundary {s : String} {start stop : Nat} (hle : start ≤ stop)
    (h : ¬(⟨stop⟩ : String.Pos.Raw).IsValid s) : slice s start stop = .error .offBoundary := by
  have hr : ¬stop < start := by omega
  by_cases hs : (⟨start⟩ : String.Pos.Raw).IsValid s
  · rw [slice, if_neg hr, dif_pos hs, dif_neg h]
  · rw [slice, if_neg hr, dif_neg hs]

/-! ## Trailing characters -/

theorem toList_dropTrailing (test : Char → Bool) (s : String) :
    (dropTrailing test s).toList = s.toList.rdropWhile test := by
  rw [dropTrailing, String.toList_ofList]
  rfl

/-- What is dropped from the end of two parts is dropped from the second, and from the first only when nothing of the second
is left. -/
theorem rdropWhile_append (test : Char → Bool) (front back : List Char) :
    (front ++ back).rdropWhile test =
      if back.rdropWhile test = [] then front.rdropWhile test else front ++ back.rdropWhile test := by
  induction back using List.reverseRecOn with
  | nil => simp
  | append_singleton back c ih =>
    rw [← List.append_assoc]
    by_cases hc : test c
    · rw [List.rdropWhile_concat_pos _ _ _ hc, List.rdropWhile_concat_pos _ _ _ hc, ih]
    · rw [List.rdropWhile_concat_neg _ _ _ hc, List.rdropWhile_concat_neg _ _ _ hc]
      simp

end Lexing.Text
