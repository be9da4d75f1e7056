import Lexing.Proofs.Lemmas.Classification

/-!
# The languages of the kinds

The rules of the classification are tried in a fixed order, and several of them accept the same candidate. `Language` says the
same without an order: one language of texts for each kind, and what is in none of the ten others is invalid. On texts that
are not empty the languages are apart and leave nothing out, and the kind of a candidate is the one whose language it is in
(`classify_iff_language`).
-/

namespace Lexing.Classification

open CharClass

/-- A text whose first character passes a test. -/
def StartsWith (test : Char → Bool) (s : String) : Prop := ∃ c rest, s.toList = c :: rest ∧ test c

/-- The texts that the description of a kind takes in. No text is a comment, and an invalid text has no description of its
own. -/
def Described (s : String) : Kind → Prop
  | .keyword => s ∈ keywords
  | .integer => IsInteger s.toList
  | .float => IsFloat s.toList
  | .string => 2 ≤ s.utf8ByteSize ∧ s.toList.head? = some '"' ∧ s.toList.getLast? = some '"'
  | .operator => StartsWith isOperator s ∧ ¬IsInteger s.toList ∧ ¬IsFloat s.toList
  | .punctuation => StartsWith isPunctuation s
  | .blank => ∀ c ∈ s.toList, isBlank c
  | .inclusion => s = "#include"
  | .identifier =>
    StartsWith (fun c => c.isAlpha || c = '_' || c = '#') s ∧ s ∉ keywords ∧
      ¬∃ c rest, s.toList = '#' :: c :: rest ∧ c.isAlpha
  | .comment => False
  | .invalid => False

/-- The texts of a kind: those of its description, and for the invalid ones all that no description takes in. -/
def Language (s : String) (kind : Kind) : Prop :=
  if kind = .invalid then ∀ other, ¬Described s other else Described s kind

/-! ## Helpers: descriptions and rules -/

theorem isKeyword_iff {s : String} : isKeyword s ↔ s ∈ keywords := by
  simp [isKeyword]

theorem opensDirective_iff {cs : List Char} : opensDirective cs ↔ ∃ c rest, cs = '#' :: c :: rest ∧ c.isAlpha := by
  unfold opensDirective
  split
  · rename_i c rest
    constructor
    · intro h
      exact ⟨c, rest, rfl, h⟩
    · rintro ⟨c', rest', heq, h⟩
      simp only [List.cons.injEq, true_and] at heq
      exact heq.1 ▸ h
  · rename_i hno
    constructor
    · intro h
      nomatch h
    · rintro ⟨c, rest, rfl, _⟩
      exact absurd rfl (hno c rest)

/-- A quoted candidate is described by its ends and its size in bytes. -/
theorem isQuoted_iff {s : String} : isQuoted s.toList ↔ Described s .string := by
  simp only [isQuoted, Described, Bool.and_eq_true, decide_eq_true_eq, and_assoc]
  constructor
  · rintro ⟨hl, hh, ht⟩
    refine ⟨?_, hh, ht⟩
    rw [← String.utf8Len_toList]
    obtain ⟨a, b, rest, hs⟩ : ∃ a b rest, s.toList = a :: b :: rest := by
      rcases hs : s.toList with _ | ⟨a, _ | ⟨b, rest⟩⟩
      · simp [hs] at hl
      · simp [hs] at hl
      · exact ⟨a, b, rest, rfl⟩
    have ha := a.utf8Size_pos
    have hb := b.utf8Size_pos
    rw [hs, String.utf8Len_cons, String.utf8Len_cons]
    omega
  · rintro ⟨hl, hh, ht⟩
    refine ⟨?_, hh, ht⟩
    rw [← String.utf8Len_toList] at hl
    rcases hs : s.toList with _ | ⟨a, _ | ⟨b, rest⟩⟩
    · simp [hs] at hh
    · -- One character is one quotation mark, which is one byte.
      rw [hs, List.head?_cons, Option.some.injEq] at hh
      rw [hs, hh] at hl
      exact absurd hl (by decide)
    · simp

/-- What a kind describes fits the rules: they give that kind. -/
theorem kindOf_of_described {s : String} (hne : s ≠ "") {kind : Kind} (hd : Described s kind) : kindOf s = kind := by
  obtain ⟨c, rest, h⟩ : ∃ c rest, s.toList = c :: rest :=
    List.exists_cons_of_ne_nil fun hnil => hne (String.toList_eq_nil_iff.1 hnil)
  rw [kindOf_of_toList h]
  cases kind with
  | keyword => rw [if_pos (isKeyword_iff.2 hd)]
  | integer =>
    have hn : numberKind? (c :: rest) = some .integer :=
      (numberKind?_eq_integer_iff (List.cons_ne_nil c rest)).2 (h ▸ hd)
    have hk := isKeyword_eq_false h (not_isWord_of_numberKind? hn)
    simp [hk, hn]
  | float =>
    have hn : numberKind? (c :: rest) = some .float := numberKind?_eq_float_iff.2 (h ▸ hd)
    have hk := isKeyword_eq_false h (not_isWord_of_numberKind? hn)
    simp [hk, hn]
  | string =>
    have hq : isQuoted (c :: rest) := h ▸ isQuoted_iff.2 hd
    obtain rfl := of_isQuoted_cons hq
    have hk := isKeyword_eq_false h (by decide)
    have hn := numberKind?_eq_none (c := '"') (by decide) (by decide) (by decide) rest
    simp [hk, hn, hq]
  | operator =>
    obtain ⟨⟨c', rest', h', ho⟩, hint, hfloat⟩ := hd
    obtain ⟨rfl, rfl⟩ := List.cons.inj (h.symm.trans h')
    obtain ⟨hw, -, -, hq⟩ := of_isBoundary (isBoundary_of_isOperator ho)
    have hk := isKeyword_eq_false h hw
    have hn : numberKind? (c :: rest) = none := by
      cases hn : numberKind? (c :: rest) with
      | none => rfl
      | some kind =>
        rcases numberKind?_cases hn with rfl | rfl
        · exact absurd (h ▸ (numberKind?_eq_integer_iff (List.cons_ne_nil c rest)).1 hn) hint
        · exact absurd (h ▸ numberKind?_eq_float_iff.1 hn) hfloat
    simp [hk, hn, isQuoted_eq_false hq rest, ho]
  | punctuation =>
    obtain ⟨c', rest', h', hp⟩ := hd
    obtain ⟨rfl, rfl⟩ := List.cons.inj (h.symm.trans h')
    obtain ⟨hw, hdig, hdot, hq⟩ := of_isBoundary (isBoundary_of_isPunctuation hp)
    have hm : c ≠ '-' := by
      rintro rfl
      exact absurd hp (by decide)
    simp [isKeyword_eq_false h hw, numberKind?_eq_none hdig hdot hm rest, isQuoted_eq_false hq rest,
      not_isOperator_of_isPunctuation hp, hp]
  | blank =>
    have hall : (c :: rest).all isBlank = true := List.all_eq_true.2 (h ▸ hd)
    have hb : isBlank c := List.all_eq_true.1 hall c List.mem_cons_self
    obtain ⟨hw, hdig, hdot, hq⟩ := of_isBoundary (isBoundary_of_isBlank hb)
    have hm : c ≠ '-' := by
      rintro rfl
      exact absurd hb (by decide)
    simp only [isKeyword_eq_false h hw, numberKind?_eq_none hdig hdot hm rest, isQuoted_eq_false hq rest,
      not_isOperator_of_isBlank hb, not_isPunctuation_of_isBlank hb, hall, Bool.false_eq_true, if_false, if_true,
      Option.getD_none]
  | inclusion =>
    subst hd
    rw [← kindOf_of_toList h]
    decide
  | identifier =>
    obtain ⟨⟨c', rest', h', hw⟩, hkey, hdir⟩ := hd
    obtain ⟨rfl, rfl⟩ := List.cons.inj (h.symm.trans h')
    have hw : isWord c := hw
    obtain ⟨hdig, hdot, hm, hq, hb⟩ := of_isWord hw
    simp only [isBoundary, standsAlone, Bool.or_eq_false_iff] at hb
    obtain ⟨hblank, ho, hp⟩ := hb
    have hk : isKeyword s = false := by simpa using fun hk => hkey (isKeyword_iff.1 hk)
    have hopen : opensDirective (c :: rest) = false := by
      simpa using fun ho => hdir (h ▸ opensDirective_iff.1 ho)
    have hincl : s ≠ includeDirective := by
      rintro rfl
      exact hdir ⟨'i', _, rfl, by decide⟩
    simp [hk, numberKind?_eq_none hdig hdot hm rest, isQuoted_eq_false hq rest, ho, hp, hblank, hincl, hopen, hw]
  | comment => exact hd.elim
  | invalid => exact hd.elim

/-- The rules give no kind but the invalid one to a candidate that the kind does not describe. -/
theorem described_of_kindOf {s : String} (hne : s ≠ "") {kind : Kind} (hk : kindOf s = kind) (hi : kind ≠ .invalid) :
    Described s kind := by
  obtain ⟨c, rest, h⟩ : ∃ c rest, s.toList = c :: rest :=
    List.exists_cons_of_ne_nil fun hnil => hne (String.toList_eq_nil_iff.1 hnil)
  rw [kindOf_of_toList h] at hk
  subst hk
  by_cases hkey : isKeyword s
  · rw [if_pos hkey]
    exact isKeyword_iff.1 hkey
  rw [if_neg hkey] at hi ⊢
  cases hn : numberKind? (c :: rest) with
  | some kind =>
    rw [Option.getD_some]
    rcases numberKind?_cases hn with rfl | rfl
    · rw [Described, h]
      exact (numberKind?_eq_integer_iff (List.cons_ne_nil c rest)).1 hn
    · rw [Described, h]
      exact numberKind?_eq_float_iff.1 hn
  | none =>
    rw [hn, Option.getD_none] at hi
    rw [Option.getD_none]
    by_cases hq : isQuoted (c :: rest)
    · rw [if_pos hq]
      exact isQuoted_iff.1 (h ▸ hq)
    rw [if_neg hq] at hi ⊢
    by_cases ho : isOperator c
    · rw [if_pos ho]
      refine ⟨⟨c, rest, h, ho⟩, ?_, ?_⟩
      · intro hint
        rw [h] at hint
        rw [(numberKind?_eq_integer_iff (List.cons_ne_nil c rest)).2 hint] at hn
        nomatch hn
      · intro hfloat
        rw [h] at hfloat
        rw [numberKind?_eq_float_iff.2 hfloat] at hn
        nomatch hn
    rw [if_neg ho] at hi ⊢
    by_cases hp : isPunctuation c
    · rw [if_pos hp]
      exact ⟨c, rest, h, hp⟩
    rw [if_neg hp] at hi ⊢
    by_cases hall : (c :: rest).all isBlank
    · rw [if_pos hall]
      rw [Described, h]
      exact List.all_eq_true.1 hall
    rw [if_neg hall] at hi ⊢
    by_cases hincl : s = includeDirective
    · rw [if_pos hincl]
      exact hincl
    rw [if_neg hincl] at hi ⊢
    by_cases hopen : opensDirective (c :: rest)
    · rw [if_pos hopen] at hi
      exact absurd rfl hi
    rw [if_neg hopen] at hi ⊢
    by_cases hw : isWord c
    · rw [if_pos hw]
      refine ⟨⟨c, rest, h, hw⟩, fun hmem => hkey (isKeyword_iff.2 hmem), ?_⟩
      intro hdir
      exact hopen (opensDirective_iff.2 (h ▸ hdir))
    rw [if_neg hw] at hi
    exact absurd rfl hi

theorem kindOf_eq_iff_language {s : String} (hne : s ≠ "") (kind : Kind) : kindOf s = kind ↔ Language s kind := by
  unfold Language
  split
  · rename_i hi
    subst hi
    constructor
    · intro hk other hd
      rw [kindOf_of_described hne hd] at hk
      subst hk
      exact hd
    · intro hno
      cases hk : decide (kindOf s = .invalid) with
      | true => exact of_decide_eq_true hk
      | false => exact absurd (described_of_kindOf hne rfl (of_decide_eq_false hk)) (hno _)
  · rename_i hi
    exact ⟨fun hk => described_of_kindOf hne hk hi, kindOf_of_described hne⟩

/-- The kind of a candidate is the one whose language the candidate is in. The languages leave no text out and no two of them
share one; the empty text alone has no kind. -/
theorem classify_iff_language {s : String} (hne : s ≠ "") :
    (∀ kind, classify s = .ok kind ↔ Language s kind) ∧ ∃! kind, Language s kind := by
  have hok : classify s = .ok (kindOf s) := if_neg hne
  refine ⟨?_, kindOf s, (kindOf_eq_iff_language hne _).1 rfl, ?_⟩
  · intro kind
    rw [hok, Except.ok.injEq]
    exact kindOf_eq_iff_language hne kind
  · intro kind hl
    exact ((kindOf_eq_iff_language hne kind).2 hl).symm

/-- A sign and a point alone are no number, so the sign is read as an operator. -/
theorem language_sign_point :
    "-." ≠ "" ∧ classify "-." = .ok .operator ∧ Language "-." .operator ∧ ∃! kind, Language "-." kind :=
  have h := classify_iff_language (s := "-.") (by decide)
  ⟨by decide, rfl, (h.1 .operator).1 rfl, h.2⟩

end Lexing.Classification
