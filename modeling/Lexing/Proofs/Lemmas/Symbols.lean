import Lexing.Proofs.Lemmas.Layout

/-!
# Symbols and runs

A symbol is a character that stands alone, an operator or a punctuation mark. As a token by itself it has a kind that is known from
the character (`located_symbol`), and the minus sign is the odd one: its kind is that of a number. No run has a symbol in it
(`IsRun.not_standsAlone`), so the rules on signs and first characters that are symbols never decide the kind of a run
(`IsRun.kindOf_ne`), and a number that is a run has no sign (`IsRun.isDigit_of_integer`, `IsRun.exists_of_float`).

Since each symbol is one token, tokens that are symbols are counted by counting characters (`countP_tokensFrom`).
-/

namespace Lexing.Segmentation

open CharClass

/-- The kind of the token that a symbol is: a minus sign is an integer without digits. -/
def symbolKind (c : Char) : Kind :=
  if c = '-' then .integer else if isOperator c then .operator else .punctuation

/-- A symbol is classified by itself. -/
theorem kindOf_symbol {c : Char} (h : standsAlone c) : kindOf [c] = symbolKind c := by
  have hall : ((operators ++ punctuation).all fun d =>
      Classification.kindOf (String.ofList [d]) = symbolKind d) = true := by decide
  have hmem : c ∈ operators ++ punctuation := by
    simpa [standsAlone, isOperator, isPunctuation] using h
  rw [kindOf_singleton h]
  exact of_decide_eq_true (List.all_eq_true.1 hall c hmem)

/-- The token of a symbol. -/
theorem located_symbol {c : Char} (h : standsAlone c) (p : Position) :
    located p [c] = ⟨⟨String.singleton c, symbolKind c⟩, ⟨p, p.after c⟩⟩ := by
  rw [located, kindOf_symbol h, Position.behind_cons, Position.behind_nil]
  rfl

theorem symbolKind_eq_operator_iff {c : Char} : symbolKind c = .operator ↔ isOperator c ∧ c ≠ '-' := by
  unfold symbolKind
  split
  · rename_i hminus
    simp [hminus]
  · rename_i hminus
    split <;> simp_all

theorem symbolKind_eq_punctuation_iff {c : Char} (h : standsAlone c) : symbolKind c = .punctuation ↔ isPunctuation c := by
  unfold symbolKind
  split
  · rename_i hminus
    rw [hminus]
    decide
  · split
    · rename_i hoperator
      simp [not_isPunctuation_of_isOperator hoperator]
    · rename_i hoperator
      simpa [standsAlone, hoperator] using h

/-- Symbols are of three kinds. -/
theorem symbolKind_cases (c : Char) : symbolKind c = .integer ∨ symbolKind c = .operator ∨ symbolKind c = .punctuation := by
  unfold symbolKind
  split
  · exact Or.inl rfl
  · split
    · exact Or.inr (Or.inl rfl)
    · exact Or.inr (Or.inr rfl)

theorem symbolKind_eq_integer_iff {c : Char} : symbolKind c = .integer ↔ c = '-' := by
  unfold symbolKind
  split
  · simp_all
  · split <;> simp_all

/-! ## Runs -/

variable {blank : Bool} {run : List Char}

theorem IsRun.not_standsAlone (h : IsRun blank run) {c : Char} (hc : c ∈ run) : standsAlone c = false :=
  not_standsAlone_of_joins (h.all_join c hc)

/-- A run that is not of the blank kind has no blank character. -/
theorem IsRun.not_isBlank (h : IsRun blank run) (hk : kindOf run ≠ .blank) {c : Char} (hc : c ∈ run) : isBlank c = false := by
  rw [isBlank_of_joins (h.all_join c hc)]
  cases blank with
  | false => rfl
  | true => exact absurd h.kindOf_eq hk

/-- What the kind of a run describes, when it is neither blank nor invalid. -/
theorem IsRun.described (h : IsRun blank run) {kind : Kind} (hk : kindOf run = kind) (hb : kind ≠ .blank) (hi : kind ≠ .invalid) :
    Classification.Described (String.ofList run) kind := by
  have hne : String.ofList run ≠ "" := fun he => h.ne_nil (String.ofList_eq_empty_iff.1 he)
  refine Classification.described_of_kindOf hne ?_ hi
  rw [h.kindOf_eq] at hk
  cases blank with
  | false => exact hk
  | true => exact absurd hk.symm hb

/-- No run starts with a symbol. -/
theorem IsRun.not_startsWith (h : IsRun blank run) {test : Char → Bool} (ht : ∀ c, test c → standsAlone c) :
    ¬Classification.StartsWith test (String.ofList run) := by
  rintro ⟨c, rest, hrun, hc⟩
  rw [String.toList_ofList] at hrun
  have hfalse := h.not_standsAlone (hrun ▸ List.mem_cons_self)
  rw [ht c hc] at hfalse
  cases hfalse

/-- A run is of no kind whose texts start with a symbol, and no text is a comment. -/
theorem IsRun.kindOf_ne (h : IsRun blank run) : kindOf run ≠ .operator ∧ kindOf run ≠ .punctuation ∧ kindOf run ≠ .comment := by
  refine ⟨?_, ?_, ?_⟩
  · intro hk
    exact h.not_startsWith (by simp +contextual [standsAlone]) (h.described hk (by decide) (by decide)).1
  · intro hk
    exact h.not_startsWith (by simp +contextual [standsAlone]) (h.described hk (by decide) (by decide))
  · intro hk
    exact h.described hk (by decide) (by decide)

/-- A number that is a run has no sign. -/
theorem IsRun.sign_eq_nil (h : IsRun blank run) {sign rest : List Char} (hs : Classification.IsSign sign)
    (he : run = sign ++ rest) : sign = [] := by
  rcases hs with rfl | rfl
  · rfl
  · have hfalse := h.not_standsAlone (c := '-') (he ▸ List.mem_cons_self)
    cases hfalse

/-- An integer that is a run is made of digits. -/
theorem IsRun.isDigit_of_integer (h : IsRun blank run) (hk : kindOf run = .integer) : ∀ c ∈ run, c.isDigit := by
  obtain ⟨sign, digits, hs, hd, he⟩ := h.described hk (by decide) (by decide)
  rw [String.toList_ofList] at he
  obtain rfl := h.sign_eq_nil hs he
  rw [he]
  exact hd

/-- A number with a point that is a run is made of digits and that one point. -/
theorem IsRun.exists_of_float (h : IsRun blank run) (hk : kindOf run = .float) :
    ∃ front back, (∀ d ∈ front ++ back, d.isDigit) ∧ front ++ back ≠ [] ∧ run = front ++ '.' :: back := by
  obtain ⟨sign, front, back, hs, hd, hne, he⟩ := h.described hk (by decide) (by decide)
  rw [String.toList_ofList, List.append_assoc] at he
  obtain rfl := h.sign_eq_nil hs he
  exact ⟨front, back, hd, hne, he⟩

/-! ## Tokens of a text -/

/-- A token of a text is a symbol, or its text is a run. -/
theorem symbol_or_run {cs : List Char} {p : Position} {token : Located Token} (h : token ∈ tokensFrom p (pieces cs)) :
    (∃ c, standsAlone c ∧ token.value = ⟨String.singleton c, symbolKind c⟩) ∨
      ∃ blank run, IsRun blank run ∧ token.value = ⟨String.ofList run, kindOf run⟩ := by
  obtain ⟨piece, hp, q, rfl⟩ := exists_of_mem_tokensFrom h
  rcases (isSplit_pieces cs).sort piece hp with ⟨c, hc, rfl⟩ | ⟨blank, hrun⟩
  · exact Or.inl ⟨c, hc, by rw [located_symbol hc]⟩
  · exact Or.inr ⟨blank, piece, hrun, rfl⟩

/-- Each symbol of a text is a token of it, at its own place. -/
theorem symbol_mem_tokensFrom {front back : List Char} {c : Char} (h : standsAlone c) (p : Position) :
    ⟨⟨String.singleton c, symbolKind c⟩, ⟨p.behind front, (p.behind front).after c⟩⟩ ∈
      tokensFrom p (pieces (front ++ c :: back)) := by
  have hsplit : pieces (front ++ c :: back) = pieces front ++ [c] :: pieces back := by
    rw [pieces_append, pieces_cons_of_standsAlone h]
    intro d _ e he
    obtain rfl : c = e := by simpa using he
    exact joined_eq_false_of_standsAlone_right h
  rw [hsplit, tokensFrom_append, flatten_pieces, tokensFrom, located_symbol h]
  exact List.mem_append_right _ List.mem_cons_self

/-- A test that tells symbols by their character and that no run passes holds of as many tokens of a text as of characters. -/
theorem countP_tokensFrom (test : Token → Prop) [DecidablePred test] {charTest : Char → Bool}
    (hsymbol : ∀ c, standsAlone c → (test ⟨String.singleton c, symbolKind c⟩ ↔ charTest c))
    (hrun : ∀ blank run, IsRun blank run → ¬test ⟨String.ofList run, kindOf run⟩)
    (hchar : ∀ c, charTest c → standsAlone c) (p : Position) (cs : List Char) :
    ((tokensFrom p (pieces cs)).countP fun token => test token.value) = cs.countP charTest := by
  have hsort := (isSplit_pieces cs).sort
  conv_rhs => rw [← flatten_pieces cs]
  generalize pieces cs = split at hsort
  induction split generalizing p with
  | nil => rfl
  | cons piece rest ih =>
    rw [tokensFrom, List.countP_cons, List.flatten_cons, List.countP_append, Nat.add_comm,
      ih (p.behind piece) fun q hq => hsort q (List.mem_cons_of_mem piece hq)]
    congr 1
    rcases hsort piece List.mem_cons_self with ⟨c, hc, rfl⟩ | ⟨blank, hr⟩
    · simp only [located_symbol hc, List.countP_singleton, decide_eq_true_eq, hsymbol c hc]
    · have hnone : piece.countP charTest = 0 := by
        rw [List.countP_eq_zero]
        intro c hc hpass
        have hfalse := hr.not_standsAlone hc
        rw [hchar c hpass] at hfalse
        cases hfalse
      rw [hnone, located, if_neg (by simpa using hrun blank piece hr)]

/-- The operators among the tokens of a text are its operator characters but the minus signs. -/
theorem countP_operator (p : Position) (cs : List Char) :
    ((tokensFrom p (pieces cs)).countP fun token => token.value.kind = .operator) = cs.countP fun c => isOperator c ∧ c ≠ '-' := by
  refine countP_tokensFrom (fun token => token.kind = .operator) ?_ ?_ ?_ p cs
  · intro c _
    rw [decide_eq_true_iff]
    exact symbolKind_eq_operator_iff
  · intro blank run hrun
    exact hrun.kindOf_ne.1
  · intro c hc
    simp [standsAlone, (of_decide_eq_true hc).1]

/-- The punctuation marks among the tokens of a text are its characters of that class. -/
theorem countP_punctuation (p : Position) (cs : List Char) :
    ((tokensFrom p (pieces cs)).countP fun token => token.value.kind = .punctuation) = cs.countP isPunctuation := by
  refine countP_tokensFrom (fun token => token.kind = .punctuation) ?_ ?_ ?_ p cs
  · intro c hc
    exact symbolKind_eq_punctuation_iff hc
  · intro blank run hrun
    exact hrun.kindOf_ne.2.1
  · intro c hc
    simp [standsAlone, hc]

/-- The minus signs among the tokens of a text are its minus signs. -/
theorem countP_minus (p : Position) (cs : List Char) :
    ((tokensFrom p (pieces cs)).countP fun token => token.value = ⟨"-", .integer⟩) = cs.count '-' := by
  refine countP_tokensFrom (fun token => token = ⟨"-", .integer⟩) ?_ ?_ ?_ p cs
  · intro c _
    rw [beq_iff_eq]
    constructor
    · intro he
      exact symbolKind_eq_integer_iff.1 (congrArg Token.kind he)
    · rintro rfl
      rfl
  · intro blank run hrun he
    have hminus : run = ['-'] := String.ofList_inj.1 (congrArg Token.text he)
    have hfalse := hrun.not_standsAlone (hminus ▸ List.mem_cons_self)
    cases hfalse
  · intro c hc
    obtain rfl := eq_of_beq hc
    decide

end Lexing.Segmentation
