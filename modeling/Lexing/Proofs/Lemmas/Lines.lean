import Lexing.Proofs.Lemmas.LineIndex

/-!
# The lines of a text

The line feeds cut a text into its lines, and each line but the last is ended by one (`lines_rec`). A line of the cut lies behind
whole lines and in front of a line feed or the end (`exists_of_getElem?_splitOn`), where the line index finds it
(`lineText_succ`). What the index returns of it has lost every carriage return at its end. That is the line without its terminator
exactly when behind this no carriage return is left (`rdropWhile_eq_iff`).
-/

namespace Lexing.LineIndex

/-- A text is its last line, or a line with a line feed behind it and then a text. -/
@[elab_as_elim]
theorem lines_rec {motive : List Char → Prop} (last : ∀ line, '\n' ∉ line → motive line)
    (feed : ∀ line rest, '\n' ∉ line → motive rest → motive (line ++ '\n' :: rest)) (cs : List Char) : motive cs := by
  -- The characters of the line that is read are collected in front.
  suffices hfront : ∀ front, '\n' ∉ front → motive (front ++ cs) from hfront [] List.not_mem_nil
  induction cs with
  | nil =>
    intro front hf
    rw [List.append_nil]
    exact last front hf
  | cons c cs ih =>
    intro front hf
    by_cases hc : c = '\n'
    · rw [hc]
      exact feed front cs hf (ih [] List.not_mem_nil)
    · have hline : '\n' ∉ front ++ [c] := by
        rw [List.mem_append, List.mem_singleton]
        exact not_or.2 ⟨hf, Ne.symm hc⟩
      have h := ih (front ++ [c]) hline
      rwa [List.append_assoc] at h

/-- The first line of the cut is the one in front of the first line feed. -/
theorem splitOn_feed {line : List Char} (h : '\n' ∉ line) (rest : List Char) :
    (line ++ '\n' :: rest).splitOn '\n' = line :: rest.splitOn '\n' := by
  have hsplit : (line ++ '\n' :: rest).splitOn '\n' = line.splitOn '\n' ++ rest.splitOn '\n' := by
    simp only [List.splitOn_eq_splitOnP]
    exact List.splitOnP_append_cons line rest (by decide)
  rw [hsplit, List.splitOn_eq_singleton h, List.singleton_append]

theorem count_feed {line : List Char} (h : '\n' ∉ line) (rest : List Char) :
    (line ++ '\n' :: rest).count '\n' = rest.count '\n' + 1 := by
  rw [List.count_append, List.count_eq_zero.2 h, Nat.zero_add, List.count_cons_self]

/-- There is one line more than there are line feeds. -/
theorem length_splitOn (cs : List Char) : (cs.splitOn '\n').length = cs.count '\n' + 1 := by
  induction cs using lines_rec with
  | last line hline => rw [List.splitOn_eq_singleton hline, List.count_eq_zero.2 hline, List.length_singleton]
  | feed line rest hline ih => rw [splitOn_feed hline, List.length_cons, ih, count_feed hline]

/-- Whole lines behind one more line with its line feed are whole lines. -/
theorem IsLines.feed {lines : List Char} (h : IsLines lines) (line : List Char) : IsLines (line ++ '\n' :: lines) := by
  rcases h with rfl | ⟨front, rfl⟩
  · exact Or.inr ⟨line, rfl⟩
  · exact Or.inr ⟨line ++ '\n' :: front, by rw [List.append_assoc, List.cons_append]⟩

/-- A line of the cut lies behind as many whole lines as its number says, and in front of a line feed or the end. -/
theorem exists_of_getElem?_splitOn {cs line : List Char} {n : Nat} (h : (cs.splitOn '\n')[n]? = some line) :
    '\n' ∉ line ∧ ∃ lines tail, cs = lines ++ line ++ tail ∧ IsLines lines ∧ lines.count '\n' = n ∧
      (tail = [] ∨ ∃ rest, tail = '\n' :: rest) := by
  induction cs using lines_rec generalizing n with
  | last only honly =>
    rw [List.splitOn_eq_singleton honly] at h
    obtain ⟨rfl, rfl⟩ : n = 0 ∧ only = line := by simpa [List.getElem?_singleton] using h
    exact ⟨honly, [], [], (List.append_nil _).symm, Or.inl rfl, rfl, Or.inl rfl⟩
  | feed first rest hfirst ih =>
    rw [splitOn_feed hfirst] at h
    cases n with
    | zero =>
      obtain rfl : first = line := by simpa using h
      exact ⟨hfirst, [], '\n' :: rest, rfl, Or.inl rfl, rfl, Or.inr ⟨rest, rfl⟩⟩
    | succ n =>
      rw [List.getElem?_cons_succ] at h
      obtain ⟨hline, lines, tail, rfl, hl, hcount, htail⟩ := ih h
      refine ⟨hline, first ++ '\n' :: lines, tail, ?_, hl.feed first, ?_, htail⟩
      · simp only [List.append_assoc, List.cons_append]
      · rw [count_feed hfirst, hcount]

variable (text : String)

theorem lineCount_ofText : (ofText text).lineCount = text.toList.count '\n' + 1 := by
  rw [lineCount, starts_ofText, List.size_toArray, List.length_cons, length_startsFrom]

/-- The index returns the lines of the cut, counted from 1, without the carriage returns at their ends. -/
theorem lineText_succ (n : Nat) : (ofText text).lineText (n + 1) =
    .ok ((text.toList.splitOn '\n')[n]?.map fun line => String.ofList (line.rdropWhile (· = '\r'))) := by
  cases hline : (text.toList.splitOn '\n')[n]? with
  | none =>
    have hcount := lineCount_ofText text
    have hlength := List.getElem?_eq_none_iff.1 hline
    rw [length_splitOn, ← hcount, lineCount] at hlength
    rw [lineText, if_neg (Nat.succ_ne_zero n), Nat.add_sub_cancel, Array.getElem?_eq_none hlength]
    rfl
  | some line =>
    obtain ⟨hfeed, lines, tail, ht, hl, rfl, htail⟩ := exists_of_getElem?_splitOn hline
    have hwhole : '\n' ∉ line ++ [] := by rwa [List.append_nil]
    have hsplit : text.toList = lines ++ (line ++ []) ++ tail := by rwa [List.append_nil]
    have hdropped : Text.dropTrailing (· = '\r') (String.ofList line) = String.ofList (line.rdropWhile (· = '\r')) := by
      rw [← String.toList_inj, Text.toList_dropTrailing, String.toList_ofList, String.toList_ofList]
    rw [lineText_eq hsplit hl hwhole htail, List.append_nil, hdropped]
    rfl

/-! ## Terminators -/

/-- A line without its terminator: the line feed is off already, and a carriage return in front of it goes too. -/
def unterminated (terminated : Bool) (line : List Char) : List Char :=
  if terminated ∧ line.getLast? = some '\r' then line.dropLast else line

/-- A line of a text, counted from 0, without its terminator. Every line but the last is terminated. -/
def lineOfText? (n : Nat) : Option String :=
  (text.toList.splitOn '\n')[n]?.map fun line => String.ofList (unterminated (n < text.toList.count '\n') line)

/-- To drop the carriage returns at the end one of them may go first. -/
theorem rdropWhile_unterminated (terminated : Bool) (line : List Char) :
    (unterminated terminated line).rdropWhile (· = '\r') = line.rdropWhile (· = '\r') := by
  unfold unterminated
  split
  · rename_i hreturn
    obtain ⟨front, rfl⟩ := List.getLast?_eq_some_iff.1 hreturn.2
    rw [List.dropLast_concat, List.rdropWhile_concat_pos _ _ _ (by decide)]
  · rfl

/-- A line loses exactly its terminator when no carriage return is left behind that. -/
theorem rdropWhile_eq_iff (terminated : Bool) (line : List Char) :
    line.rdropWhile (· = '\r') = unterminated terminated line ↔ (unterminated terminated line).getLast? ≠ some '\r' := by
  rw [← rdropWhile_unterminated terminated, List.rdropWhile_eq_self_iff]
  constructor
  · rintro h hlast
    obtain ⟨front, hfront⟩ := List.getLast?_eq_some_iff.1 hlast
    exact h (by simp [hfront]) (by simp [hfront])
  · intro h hne hlast
    exact h (by rw [List.getLast?_eq_some_getLast hne]; simpa using hlast)

end Lexing.LineIndex
