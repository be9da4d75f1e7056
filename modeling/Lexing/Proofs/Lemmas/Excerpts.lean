import Lexing.Proofs.Lemmas.Analysis

/-!
# What excerpts quote

An excerpt at a boundary is told by the characters behind it alone (`excerpt_of_front`): those up to the next line feed, without
the carriage returns at the end, as many as are wanted (`quotation`). A run that is too long starts at a boundary. If it is not
blank it holds neither line feeds nor carriage returns, so the quotation begins with it; if it is blank, its first line feed is
the next one behind the boundary, and the quotation stays in front of that.
-/

namespace Lexing

/-- What is quoted of the characters behind a place. -/
def quotation (count : Nat) (rest : List Char) : List Char :=
  ((rest.takeWhile (· ≠ '\n')).rdropWhile (· = '\r')).take count

namespace LineIndex

variable {text : String} {front rest : List Char}

/-- The characters of a line are those in front of its line feed. -/
theorem takeWhile_line {more tail : List Char} (hmore : '\n' ∉ more) (htail : tail = [] ∨ ∃ rest, tail = '\n' :: rest) :
    (more ++ tail).takeWhile (· ≠ '\n') = more := by
  have hall : ∀ c ∈ more, decide (c ≠ '\n') = true := by
    intro c hc
    rw [decide_eq_true_eq]
    rintro rfl
    exact hmore hc
  rw [List.takeWhile_append_of_pos hall]
  rcases htail with rfl | ⟨rest, rfl⟩ <;> simp

/-- An excerpt at a boundary quotes the characters behind it. -/
theorem excerpt_of_front (ht : text.toList = front ++ rest) (hb : text.utf8ByteSize < sizeBound) (count : Nat) :
    (ofText text).excerpt (String.utf8Len front) count = .ok (String.ofList (quotation count rest)) := by
  obtain ⟨lines, part, more, tail, rfl, rfl, hl, hp, htail⟩ := exists_line front rest
  have hsplit : text.toList = lines ++ (part ++ more) ++ tail := by
    rw [ht]
    simp only [List.append_assoc]
  have hmore : '\n' ∉ more := fun h => hp (List.mem_append_right part h)
  rw [excerpt_eq hsplit hl hp htail hb, quotation, takeWhile_line hmore htail, Text.takeChars, Text.toList_dropTrailing,
    String.toList_ofList]

/-- An excerpt past the end of a text is one at its end. -/
theorem excerpt_min (text : String) (offset count : Nat) :
    (ofText text).excerpt offset count = (ofText text).excerpt (min offset text.utf8ByteSize) count := by
  rw [excerpt, excerpt, positionAt_min]

end LineIndex

namespace Segmentation

open CharClass

variable {limits : Limits} {source : String} {run rest : List Char}

/-- A scan that ends because a token would be too long ends at a piece that is too long, and points at its start. -/
theorem exists_of_delivery_tooLong {length : Nat} {place : Position}
    (h : (delivery limits source).result = .error (.tokenTooLong length place)) :
    ∃ front run back, pieces source.toList = front ++ run :: back ∧ limits.maxTokenLength < run.length ∧
      place = Position.start.behind front.flatten := by
  rw [delivery, deliver_eq] at h
  replace h : (ending limits (pieces source.toList)).2 = .error (.tokenTooLong length place) := h
  unfold ending at h
  split at h
  · rename_i j hj
    obtain ⟨hlt, hlong, -⟩ := List.findIdx?_eq_some_iff_getElem.1 hj
    split at h
    · cases h
      refine ⟨_, _, (pieces source.toList).drop (j + 1), ?_, by simpa using hlong, rfl⟩
      rw [← List.drop_eq_getElem_cons hlt, List.take_append_drop]
    · cases h
  · split at h
    · cases h
    · cases h

/-- A piece of more than one character is a run. -/
theorem exists_isRun {split : List (List Char)} {cs piece : List Char} (h : IsSplit split cs) (hp : piece ∈ split)
    (hlength : 1 < piece.length) : ∃ blank, IsRun blank piece := by
  rcases h.sort piece hp with ⟨c, -, rfl⟩ | hrun
  · exact absurd hlength (by simp)
  · exact hrun

/-- A run that is not blank holds no blank character. -/
theorem IsRun.not_mem {c : Char} (h : IsRun false run) (hc : isBlank c = true) : c ∉ run := by
  intro hmem
  rw [isBlank_of_joins (h.all_join c hmem)] at hc
  cases hc

/-- A line that begins with a run that is not blank keeps it when the carriage returns at its end are dropped. -/
theorem IsRun.exists_line_eq (h : IsRun false run) (rest : List Char) :
    ∃ more, ((run ++ rest).takeWhile (· ≠ '\n')).rdropWhile (· = '\r') = run ++ more := by
  have hfeed : ∀ c ∈ run, decide (c ≠ '\n') = true := by
    intro c hc
    rw [decide_eq_true_eq]
    rintro rfl
    exact h.not_mem (by decide) hc
  have hkept : run.rdropWhile (· = '\r') = run := by
    refine List.rdropWhile_eq_self_iff.2 fun hne hlast => ?_
    have hreturn : run.getLast hne = '\r' := by simpa using hlast
    exact h.not_mem (c := '\r') (by decide) (hreturn ▸ List.getLast_mem hne)
  rw [List.takeWhile_append_of_pos hfeed, Text.rdropWhile_append, hkept]
  split
  · exact ⟨[], (List.append_nil run).symm⟩
  · exact ⟨_, rfl⟩

/-- What is quoted at a run that is not blank begins with it. -/
theorem IsRun.exists_quotation_eq (h : IsRun false run) (count : Nat) (rest : List Char) :
    ∃ more, quotation count (run ++ rest) = run.take count ++ more := by
  obtain ⟨more, hmore⟩ := h.exists_line_eq rest
  exact ⟨_, by rw [quotation, hmore, List.take_append]⟩

/-- Of a long run that is not blank nothing else is quoted. -/
theorem IsRun.quotation_eq (h : IsRun false run) {count : Nat} (hcount : count ≤ run.length) (rest : List Char) :
    quotation count (run ++ rest) = run.take count := by
  obtain ⟨more, hmore⟩ := h.exists_line_eq rest
  rw [quotation, hmore, List.take_append_of_le_length hcount]

/-- What is quoted at a run with a line feed stays in front of the first. -/
theorem quotation_prefix_of_mem (h : '\n' ∈ run) (count : Nat) (rest : List Char) :
    quotation count (run ++ rest) <+: run.takeWhile (· ≠ '\n') := by
  have hline : (run ++ rest).takeWhile (· ≠ '\n') = run.takeWhile (· ≠ '\n') := by
    rw [List.takeWhile_append, if_neg]
    intro hlength
    have hall := List.takeWhile_eq_self_iff.1 ((List.takeWhile_prefix _).eq_of_length hlength)
    simpa using hall '\n' h
  rw [quotation, hline]
  exact (List.take_prefix _ _).trans (List.rdropWhile_prefix _ _)

end Segmentation

namespace Analyzer

open Segmentation

variable {σ : Type} {limits : Limits} {source : String}

/-- An error that the sink does not give is the scan's own. -/
theorem delivery_result_of_analyze (h : source.utf8ByteSize < sizeBound) {accept : Sink (σ × Session)} {analyzer : Analyzer}
    {state : σ} {session : Session} {analyzed : Analyzed σ} {error : ScanError}
    (hanalyze : analyzer.analyze limits accept source state session = .ok analyzed) (herror : analyzed.result = .error error)
    (hsink : ∀ before token, (accept before token).2 ≠ some error) : (delivery limits source).result = .error error := by
  obtain ⟨calls, outcome, hoffered, hanswers, -, ⟨_, _, -, -, hfault⟩ | ⟨again, -, hok, houtcome⟩⟩ :=
    exists_calls_analyze limits h accept analyzer state session
  · cases hfault.symm.trans hanalyze
  · cases hok.symm.trans hanalyze
    have hfailed : outcome = .error error := houtcome.symm.trans herror
    rcases hoffered.outcome_eq with hresult | ⟨token, refusal, hm, hrefused⟩
    · exact hresult.symm.trans hfailed
    · cases hrefused.symm.trans hfailed
      obtain ⟨before, hanswer⟩ := hanswers _ hm
      exact absurd hanswer (hsink before token)

/-- An analysis into a sink that takes every token ends as the scan into such a sink. -/
theorem exists_analyze_of_taking (limits : Limits) (h : source.utf8ByteSize < sizeBound) {accept : Sink (σ × Session)}
    (htakes : ∀ before token, (accept before token).2 = none) (analyzer : Analyzer) (state : σ) (session : Session) :
    ∃ analyzed, analyzer.analyze limits accept source state session = .ok analyzed ∧
      analyzed.result = (delivery limits source).result := by
  obtain ⟨calls, outcome, hoffered, hanswers, -, hends⟩ := exists_calls_analyze limits h accept analyzer state session
  have houtcome : outcome = (delivery limits source).result := by
    rcases hoffered.outcome_eq with hresult | ⟨token, error, hm, -⟩
    · exact hresult
    · obtain ⟨before, hanswer⟩ := hanswers _ hm
      cases (htakes before token).symm.trans hanswer
  rcases hends with ⟨error, fault, hfailed, hinside, -⟩ | ⟨analyzed, -, hok, hresult⟩
  · exact absurd hinside (not_pointsInside_of_delivery (houtcome.symm.trans hfailed))
  · exact ⟨analyzed, hok, hresult.trans houtcome⟩

end Analyzer

end Lexing
