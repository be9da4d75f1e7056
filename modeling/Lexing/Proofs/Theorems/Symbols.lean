import Lexing.Proofs.Lemmas.Symbols

/-!
# Symbols are tokens of their own

Where a text is cut and how its tokens are classified are two matters: the scanner knows the symbols, and the classification tries its
rules in order. Together they leave each symbol in a token of one character (`symbols_stand_apart`), so the operators and punctuation
marks of a text can be counted among its tokens. Only the minus sign does not count as an operator: it is read as an integer without
digits, and so no number has a sign. Two strokes never come together, so there are no comments.
-/

namespace Lexing.Segmentation

open CharClass

variable {limits : Limits} {source : String} {tokens : Array (Located Token)} {count : Nat}

/-- What a token of a scan is like, by its kind: it is a symbol, or has none in it. -/
structure Apart (token : Token) : Prop where
  /-- An operator is one operator character, and no minus sign. -/
  operator_text : token.kind = .operator → ∃ c, isOperator c ∧ c ≠ '-' ∧ token.text = String.singleton c
  punctuation_text : token.kind = .punctuation → ∃ c, isPunctuation c ∧ token.text = String.singleton c
  /-- An integer is a minus sign, or made of digits. -/
  integer_text : token.kind = .integer → token.text = "-" ∨ (token.text ≠ "" ∧ ∀ c ∈ token.text.toList, c.isDigit)
  /-- A number with a point is made of digits around that point, and has one on some side. -/
  float_text : token.kind = .float →
    ∃ front back, (∀ d ∈ front ++ back, d.isDigit) ∧ front ++ back ≠ [] ∧ token.text.toList = front ++ '.' :: back
  no_comment : token.kind ≠ .comment
  /-- All other tokens have no symbol in them. -/
  no_symbol : token.kind ≠ .operator → token.kind ≠ .punctuation → token.text ≠ "-" →
    ∀ c ∈ token.text.toList, isOperator c = false ∧ isPunctuation c = false
  /-- Only blank runs have blank characters in them. -/
  no_blank : token.kind ≠ .blank → ∀ c ∈ token.text.toList, isBlank c = false

theorem apart_symbol {c : Char} (h : standsAlone c) : Apart ⟨String.singleton c, symbolKind c⟩ where
  operator_text hk := by
    obtain ⟨hoperator, hminus⟩ := symbolKind_eq_operator_iff.1 hk
    exact ⟨c, hoperator, hminus, rfl⟩
  punctuation_text hk := ⟨c, (symbolKind_eq_punctuation_iff h).1 hk, rfl⟩
  integer_text hk := by
    obtain rfl := symbolKind_eq_integer_iff.1 hk
    exact Or.inl rfl
  float_text hk := by
    rcases symbolKind_cases c with hc | hc | hc <;> cases hc.symm.trans hk
  no_comment hk := by
    rcases symbolKind_cases c with hc | hc | hc <;> cases hc.symm.trans hk
  no_symbol hoperator hpunctuation hminus := by
    rcases symbolKind_cases c with hc | hc | hc
    · obtain rfl := symbolKind_eq_integer_iff.1 hc
      exact absurd rfl hminus
    · exact absurd hc hoperator
    · exact absurd hc hpunctuation
  no_blank _ d hd := by
    obtain rfl : d = c := by simpa using hd
    exact not_isBlank_of_standsAlone h

theorem IsRun.apart {blank : Bool} {run : List Char} (h : IsRun blank run) : Apart ⟨String.ofList run, kindOf run⟩ where
  operator_text hk := absurd hk h.kindOf_ne.1
  punctuation_text hk := absurd hk h.kindOf_ne.2.1
  integer_text hk := by
    refine Or.inr ⟨fun hempty => h.ne_nil (String.ofList_eq_empty_iff.1 hempty), ?_⟩
    rw [String.toList_ofList]
    exact h.isDigit_of_integer hk
  float_text hk := by
    rw [String.toList_ofList]
    exact h.exists_of_float hk
  no_comment := h.kindOf_ne.2.2
  no_symbol _ _ _ c hc := by
    rw [String.toList_ofList] at hc
    simpa [standsAlone] using h.not_standsAlone hc
  no_blank hk c hc := by
    rw [String.toList_ofList] at hc
    exact h.not_isBlank hk hc

/-- When a text is scanned in full, each of its tokens is a symbol or has none in it, and no token but a blank run has a blank
character. There are as many operators as operator characters that are not minus signs, and as many punctuation marks as characters of
that class. A minus sign, wherever it stands in the text, is an integer in that place, and there are no more tokens of this sort than
minus signs. -/
theorem symbols_stand_apart (h : Scanner.scan limits Sink.collect #[] source = .ok ⟨tokens, .ok count⟩) :
    (∀ token ∈ tokens, Apart token.value) ∧
      (tokens.toList.countP fun token => token.value.kind = .operator) =
        (source.toList.countP fun c => isOperator c ∧ c ≠ '-') ∧
      (tokens.toList.countP fun token => token.value.kind = .punctuation) = source.toList.countP isPunctuation ∧
      (∀ front back, source.toList = front ++ '-' :: back →
        ⟨⟨"-", .integer⟩, ⟨Position.start.behind front, (Position.start.behind front).after '-'⟩⟩ ∈ tokens) ∧
      (tokens.toList.countP fun token => token.value = ⟨"-", .integer⟩) = source.toList.count '-' := by
  obtain ⟨-, rfl, -⟩ := scan_collect_eq_ok_iff.1 h
  refine ⟨?_, countP_operator .start _, countP_punctuation .start _, ?_, countP_minus .start _⟩
  · intro token ht
    rcases symbol_or_run (List.mem_toArray.1 ht) with ⟨c, hc, he⟩ | ⟨blank, run, hrun, he⟩
    · exact he ▸ apart_symbol hc
    · exact he ▸ hrun.apart
  · intro front back hsource
    rw [hsource]
    exact List.mem_toArray.2 (symbol_mem_tokensFrom (c := '-') (by decide) .start)

/-- Two strokes are two operators and no comment, and a minus sign in front of a number is an integer by itself. -/
theorem symbols_stand_apart_signed :
    ∃ tokens, Scanner.scan .development Sink.collect #[] "x//-1.5;" = .ok ⟨tokens, .ok 6⟩ ∧
      (tokens.toList.countP fun token => token.value.kind = .operator) = 2 ∧
      (tokens.toList.countP fun token => token.value.kind = .punctuation) = 1 ∧
      ⟨⟨"-", .integer⟩, ⟨⟨3, 1, 4⟩, ⟨4, 1, 5⟩⟩⟩ ∈ tokens ∧
      (tokens.toList.countP fun token => token.value = ⟨"-", .integer⟩) = 1 ∧
      ∀ token ∈ tokens, token.value.kind ≠ .comment := by
  have h : Scanner.scan .development Sink.collect #[] "x//-1.5;" =
      .ok ⟨(tokensFrom .start [['x'], ['/'], ['/'], ['-'], ['1', '.', '5'], [';']]).toArray, .ok 6⟩ :=
    scan_collect_eq_ok_iff.2 ⟨⟨rfl, by decide, by decide⟩, rfl, rfl⟩
  obtain ⟨hapart, hoperators, hmarks, hminus, hminuses⟩ := symbols_stand_apart h
  exact ⟨_, h, hoperators, hmarks, hminus ['x', '/', '/'] _ rfl, hminuses, fun token ht => (hapart token ht).no_comment⟩

end Lexing.Segmentation
