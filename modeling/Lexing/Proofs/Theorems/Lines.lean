import Lexing.Proofs.Lemmas.Lines

/-!
# Lines without their ends

The line index knows one line more than there are line feeds, and returns each without its line feed and without every carriage
return in front of that, or at the end of the text (`lines_lose_returns`). A line that is to lose only its terminator loses more
where several carriage returns stand in a row, and where the text ends in one (`lines_lose_returns_in_a_row`).
-/

namespace Lexing.LineIndex

/-- The index of any text returns the lines between its line feeds, counted from 1, and nothing for any other number. Each has
lost the carriage returns at its end, however many there are. It is the line without its terminator exactly when that does not
end in a carriage return. -/
theorem lines_lose_returns (source : String) :
    (ofText source).lineCount = source.toList.count '\n' + 1 ∧
    (∀ n, (∃ line, (ofText source).lineText n = .ok (some line)) ↔ 1 ≤ n ∧ n ≤ (ofText source).lineCount) ∧
    (ofText source).lineText 0 = .ok none ∧
    (∀ n, (ofText source).lineText (n + 1) =
      .ok ((source.toList.splitOn '\n')[n]?.map fun line => String.ofList (line.rdropWhile (· = '\r')))) ∧
    ∀ n, (ofText source).lineText (n + 1) = .ok (lineOfText? source n) ↔
      ∀ line, lineOfText? source n = some line → line.toList.getLast? ≠ some '\r' := by
  have hlength := length_splitOn source.toList
  refine ⟨lineCount_ofText source, ?_, rfl, lineText_succ source, ?_⟩
  · intro n
    cases n with
    | zero =>
      refine ⟨?_, fun h => absurd h.1 (by decide)⟩
      rintro ⟨line, hline⟩
      cases hline
    | succ n =>
      rw [lineText_succ, lineCount_ofText, ← hlength]
      constructor
      · rintro ⟨line, hline⟩
        obtain ⟨whole, hwhole, -⟩ := Option.map_eq_some_iff.1 (Except.ok.inj hline)
        obtain ⟨hlt, -⟩ := List.getElem?_eq_some_iff.1 hwhole
        omega
      · rintro ⟨-, hle⟩
        rw [List.getElem?_eq_getElem (Nat.lt_of_succ_le hle)]
        exact ⟨_, rfl⟩
  · intro n
    rw [lineText_succ, lineOfText?, Except.ok.injEq]
    cases (source.toList.splitOn '\n')[n]? with
    | none => simp
    | some line =>
      simp only [Option.map_some, Option.some.injEq, forall_eq', String.toList_ofList, String.ofList_inj]
      exact rdropWhile_eq_iff _ line

/-- A line that ends in two carriage returns and a line feed loses both, where only one belongs to its terminator. -/
theorem lines_lose_returns_in_a_row : "a\r\r\n".utf8ByteSize < sizeBound ∧
    lineOfText? "a\r\r\n" 0 = some "a\r" ∧ (ofText "a\r\r\n").lineText 1 = .ok (some "a") := by
  refine ⟨by decide, by decide, ?_⟩
  rw [lineText_succ]
  decide

end Lexing.LineIndex
