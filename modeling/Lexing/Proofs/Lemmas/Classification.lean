import Lexing.Token.Classification
import Mathlib.Data.String.Basic

/-!
# Rules of the classification

What each rule on a candidate says about its characters. The numeral rules come out as two shapes, `IsInteger` and `IsFloat`
(`numberKind?_eq_integer_iff`, `numberKind?_eq_float_iff`). The other lemmas tell how a candidate that passes a rule starts:
the classes of first characters are apart, and so the rules hardly overlap.
-/

namespace Lexing

namespace CharClass

/-- A character that ends the token in front of it starts neither a word, nor a number without a sign, nor a quoted text. -/
theorem of_isBoundary {c : Char} (h : isBoundary c) :
    isWord c = false ∧ c.isDigit = false ∧ c ≠ '.' ∧ c ≠ '"' := by
  have hall : (blanks ++ (operators ++ punctuation)).all
      (fun d => !isWord d && !d.isDigit && d != '.' && d != '"') = true := by decide
  have hmem : c ∈ blanks ++ (operators ++ punctuation) := by
    simpa [isBoundary, standsAlone, isBlank, isOperator, isPunctuation] using h
  simpa [and_assoc] using List.all_eq_true.1 hall c hmem

theorem isBoundary_of_isOperator {c : Char} (h : isOperator c) : isBoundary c := by
  simp [isBoundary, standsAlone, h]

theorem isBoundary_of_isPunctuation {c : Char} (h : isPunctuation c) : isBoundary c := by
  simp [isBoundary, standsAlone, h]

theorem isBoundary_of_isBlank {c : Char} (h : isBlank c) : isBoundary c := by
  simp [isBoundary, h]

/-- No blank character and no punctuation mark is an operator. -/
theorem not_isOperator_of_isBlank {c : Char} (h : isBlank c) : isOperator c = false := by
  have hs := not_standsAlone_of_isBlank h
  simp only [standsAlone, Bool.or_eq_false_iff] at hs
  exact hs.1

theorem not_isPunctuation_of_isBlank {c : Char} (h : isBlank c) : isPunctuation c = false := by
  have hs := not_standsAlone_of_isBlank h
  simp only [standsAlone, Bool.or_eq_false_iff] at hs
  exact hs.2

theorem not_isOperator_of_isPunctuation {c : Char} (h : isPunctuation c) : isOperator c = false := by
  cases ho : isOperator c with
  | false => rfl
  | true => rw [not_isPunctuation_of_isOperator ho] at h; exact absurd h (by decide)

end CharClass

namespace Classification

/-! ## Numerals -/

/-- A sign is a minus sign or nothing. -/
def IsSign (cs : List Char) : Prop := cs = [] ∨ cs = ['-']

/-- A sign and decimal digits; there may be no digits. -/
def IsInteger (cs : List Char) : Prop :=
  ∃ sign digits, IsSign sign ∧ (∀ d ∈ digits, d.isDigit) ∧ cs = sign ++ digits

/-- A sign and decimal digits with one point among them; there is at least one digit. -/
def IsFloat (cs : List Char) : Prop :=
  ∃ sign front back, IsSign sign ∧ (∀ d ∈ front ++ back, d.isDigit) ∧ front ++ back ≠ [] ∧
    cs = sign ++ front ++ '.' :: back

/-- A candidate is a sign and what is behind it. -/
theorem exists_sign (cs : List Char) : ∃ sign, IsSign sign ∧ cs = sign ++ unsigned cs := by
  unfold unsigned
  split
  · exact ⟨['-'], Or.inr rfl, rfl⟩
  · exact ⟨[], Or.inl rfl, rfl⟩

/-- What is behind a sign, unless that looks like one itself. -/
theorem unsigned_append {sign digits : List Char} (hs : IsSign sign) (hd : digits.head? ≠ some '-') :
    unsigned (sign ++ digits) = digits := by
  rcases hs with rfl | rfl
  · rw [List.nil_append]
    unfold unsigned
    split
    · exact absurd rfl hd
    · rfl
  · rfl

/-- A digit is neither a point nor a sign. -/
theorem ne_of_isDigit {c : Char} (h : c.isDigit) : c ≠ '.' ∧ c ≠ '-' := by
  constructor <;> (rintro rfl; revert h; decide)

theorem count_point_eq_zero {digits : List Char} (h : ∀ d ∈ digits, d.isDigit) : digits.count '.' = 0 := by
  rw [List.count_eq_zero]
  intro hp
  exact (ne_of_isDigit (h '.' hp)).1 rfl

theorem head?_ne_sign {digits : List Char} (h : ∀ d ∈ digits, d.isDigit ∨ d = '.') : digits.head? ≠ some '-' := by
  intro hh
  rcases h '-' (List.mem_of_mem_head? hh) with hd | hd
  · exact (ne_of_isDigit hd).2 rfl
  · exact absurd hd (by decide)

/-- Only characters that are digits or points behind the sign make a number. -/
theorem numberKind?_eq {cs : List Char} (hne : cs ≠ []) (h : ∀ d ∈ unsigned cs, d.isDigit ∨ d = '.') :
    numberKind? cs =
      match (unsigned cs).count '.' with
      | 0 => some .integer
      | 1 => if (unsigned cs).any Char.isDigit then some .float else none
      | _ => none := by
  have hall : (unsigned cs).all (fun c => c.isDigit || c = '.') = true := by
    rw [List.all_eq_true]
    intro d hd
    simpa using h d hd
  have hc : ¬(cs.isEmpty || !(unsigned cs).all (fun c => c.isDigit || c = '.')) = true := by
    rw [hall]
    simpa using hne
  exact if_neg hc

theorem of_numberKind?_eq_some {cs : List Char} {kind : Kind} (h : numberKind? cs = some kind) :
    cs ≠ [] ∧ ∀ d ∈ unsigned cs, d.isDigit ∨ d = '.' := by
  unfold numberKind? at h
  simp only at h
  split at h
  · nomatch h
  · rename_i hc
    simp only [Bool.or_eq_true, Bool.not_eq_true', not_or, List.isEmpty_iff, Bool.not_eq_false] at hc
    refine ⟨hc.1, ?_⟩
    intro d hd
    simpa using List.all_eq_true.1 hc.2 d hd

/-- The integer rule accepts exactly the candidates of that shape. -/
theorem numberKind?_eq_integer_iff {cs : List Char} (hne : cs ≠ []) :
    numberKind? cs = some .integer ↔ IsInteger cs := by
  constructor
  · intro h
    have hd := (of_numberKind?_eq_some h).2
    obtain ⟨sign, hs, hcs⟩ := exists_sign cs
    refine ⟨sign, unsigned cs, hs, ?_, hcs⟩
    have hcount : (unsigned cs).count '.' = 0 := by
      rw [numberKind?_eq hne hd] at h
      split at h
      · assumption
      · split at h <;> nomatch h
      · nomatch h
    intro d hmem
    rcases hd d hmem with hdig | rfl
    · exact hdig
    · exact absurd hmem (List.count_eq_zero.1 hcount)
  · rintro ⟨sign, digits, hs, hd, rfl⟩
    have hd' : ∀ d ∈ digits, d.isDigit ∨ d = '.' := fun d hm => Or.inl (hd d hm)
    have hu := unsigned_append hs (head?_ne_sign hd')
    rw [numberKind?_eq hne (by rwa [hu]), hu, count_point_eq_zero hd]
    rfl

/-- The float rule accepts exactly the candidates of that shape. -/
theorem numberKind?_eq_float_iff {cs : List Char} : numberKind? cs = some .float ↔ IsFloat cs := by
  constructor
  · intro h
    obtain ⟨hne, hd⟩ := of_numberKind?_eq_some h
    obtain ⟨sign, hs, hcs⟩ := exists_sign cs
    rw [numberKind?_eq hne hd] at h
    have hcount : (unsigned cs).count '.' = 1 ∧ (unsigned cs).any Char.isDigit = true := by
      split at h
      · nomatch h
      · rename_i hone
        split at h
        · exact ⟨hone, ‹_›⟩
        · nomatch h
      · nomatch h
    have hmem : '.' ∈ unsigned cs := List.count_pos_iff.1 (by omega)
    obtain ⟨front, back, hsplit, hfront⟩ := List.eq_append_cons_of_mem hmem
    have hback : '.' ∉ back := by
      have hc := hcount.1
      rw [hsplit, List.count_append, List.count_cons_self] at hc
      exact List.count_eq_zero.1 (by omega)
    refine ⟨sign, front, back, hs, ?_, ?_, by rw [List.append_assoc, ← hsplit]; exact hcs⟩
    · intro d hm
      have hne' : d ≠ '.' := by
        rintro rfl
        rcases List.mem_append.1 hm with hm | hm
        · exact hfront hm
        · exact hback hm
      have hm' : d ∈ unsigned cs := by
        rw [hsplit]
        simp only [List.mem_append, List.mem_cons] at hm ⊢
        rcases hm with hm | hm
        · exact Or.inl hm
        · exact Or.inr (Or.inr hm)
      exact (hd d hm').resolve_right hne'
    · intro hnil
      obtain ⟨rfl, rfl⟩ := List.append_eq_nil_iff.1 hnil
      rw [hsplit] at hcount
      exact absurd hcount.2 (by decide)
  · rintro ⟨sign, front, back, hs, hd, hne, rfl⟩
    have hd' : ∀ d ∈ front ++ '.' :: back, d.isDigit ∨ d = '.' := by
      intro d hm
      simp only [List.mem_append, List.mem_cons] at hm
      rcases hm with hm | rfl | hm
      · exact Or.inl (hd d (List.mem_append_left back hm))
      · exact Or.inr rfl
      · exact Or.inl (hd d (List.mem_append_right front hm))
    have hu := unsigned_append hs (head?_ne_sign hd')
    rw [← List.append_assoc] at hu
    have hcount : (front ++ '.' :: back).count '.' = 1 := by
      have hz := count_point_eq_zero hd
      rw [List.count_append] at hz
      rw [List.count_append, List.count_cons_self]
      omega
    have hany : (front ++ '.' :: back).any Char.isDigit = true := by
      obtain ⟨d, hm⟩ := List.exists_mem_of_ne_nil _ hne
      rw [List.any_eq_true]
      refine ⟨d, ?_, hd d hm⟩
      simp only [List.mem_append, List.mem_cons] at hm ⊢
      rcases hm with hm | hm
      · exact Or.inl hm
      · exact Or.inr (Or.inr hm)
    rw [numberKind?_eq (by simp) (by rwa [hu]), hu, hcount]
    simp only [hany, if_true]

/-- The numeral rules give no other kinds. -/
theorem numberKind?_cases {cs : List Char} {kind : Kind} (h : numberKind? cs = some kind) :
    kind = .integer ∨ kind = .float := by
  obtain ⟨hne, hd⟩ := of_numberKind?_eq_some h
  rw [numberKind?_eq hne hd] at h
  split at h
  · exact Or.inl (Option.some.inj h).symm
  · split at h
    · exact Or.inr (Option.some.inj h).symm
    · nomatch h
  · nomatch h

/-! ## First characters -/

/-- A reserved word starts with a letter. -/
theorem exists_of_isKeyword {s : String} (h : isKeyword s) : ∃ c rest, s.toList = c :: rest ∧ c.isAlpha := by
  simp only [isKeyword, keywords, List.contains_eq_mem, List.mem_cons, List.not_mem_nil, or_false,
    decide_eq_true_eq] at h
  rcases h with rfl | rfl | rfl | rfl | rfl | rfl | rfl <;> exact ⟨_, _, rfl, by decide⟩

/-- A number starts with a digit, a point or a sign. -/
theorem of_numberKind?_cons {c : Char} {rest : List Char} {kind : Kind} (h : numberKind? (c :: rest) = some kind) :
    c.isDigit ∨ c = '.' ∨ c = '-' := by
  have hd := (of_numberKind?_eq_some h).2
  by_cases hc : c = '-'
  · exact Or.inr (Or.inr hc)
  · have hu : unsigned (c :: rest) = c :: rest := by
      unfold unsigned
      split
      · rename_i heq
        exact absurd (List.cons.inj heq).1 hc
      · rfl
    rw [hu] at hd
    rcases hd c List.mem_cons_self with hdig | hp
    · exact Or.inl hdig
    · exact Or.inr (Or.inl hp)

/-- A quoted candidate starts with a quotation mark. -/
theorem of_isQuoted_cons {c : Char} {rest : List Char} (h : isQuoted (c :: rest)) : c = '"' := by
  simp only [isQuoted, List.head?_cons, Bool.and_eq_true, decide_eq_true_eq, Option.some.injEq] at h
  exact h.1.2

/-- No letter is a digit. -/
theorem not_isDigit_of_isAlpha {c : Char} (h : c.isAlpha) : c.isDigit = false := by
  cases hd : c.isDigit with
  | false => rfl
  | true =>
    have hle := (Char.isDigit_iff_toNat.1 hd).2
    have hcase : (decide (c.val ≥ 'A'.val ∧ c.val ≤ 'Z'.val) || (c.val ≥ 'a'.val && c.val ≤ 'z'.val)) = true := h
    simp only [Bool.or_eq_true, Bool.and_eq_true, decide_eq_true_eq, ge_iff_le, UInt32.le_iff_toNat_le] at hcase
    have hA : ('A'.val).toNat = 65 := rfl
    have ha : ('a'.val).toNat = 97 := rfl
    have h9 : '9'.toNat = 57 := rfl
    have hc : c.toNat = c.val.toNat := rfl
    omega

/-- What starts a word starts neither a number nor a quoted candidate, and ends no token. -/
theorem of_isWord {c : Char} (h : CharClass.isWord c) :
    c.isDigit = false ∧ c ≠ '.' ∧ c ≠ '-' ∧ c ≠ '"' ∧ CharClass.isBoundary c = false := by
  refine ⟨?_, ?_, ?_, ?_, ?_⟩
  · simp only [CharClass.isWord, Bool.or_eq_true, decide_eq_true_eq] at h
    rcases h with (ha | rfl) | rfl
    · exact not_isDigit_of_isAlpha ha
    · decide
    · decide
  · rintro rfl
    exact absurd h (by decide)
  · rintro rfl
    exact absurd h (by decide)
  · rintro rfl
    exact absurd h (by decide)
  · cases hb : CharClass.isBoundary c with
    | false => rfl
    | true => rw [(CharClass.of_isBoundary hb).1] at h; exact absurd h (by decide)

/-- A candidate that starts like no word is no reserved word. -/
theorem isKeyword_eq_false {s : String} {c : Char} {rest : List Char} (h : s.toList = c :: rest)
    (hw : CharClass.isWord c = false) : isKeyword s = false := by
  cases hk : isKeyword s with
  | false => rfl
  | true =>
    obtain ⟨c', rest', h', ha⟩ := exists_of_isKeyword hk
    rw [h, List.cons.injEq] at h'
    rw [CharClass.isWord, h'.1, ha] at hw
    exact absurd hw (by simp)

/-- A number starts like no word. -/
theorem not_isWord_of_numberKind? {c : Char} {rest : List Char} {kind : Kind}
    (h : numberKind? (c :: rest) = some kind) : CharClass.isWord c = false := by
  cases hw : CharClass.isWord c with
  | false => rfl
  | true =>
    obtain ⟨hdig, hdot, hm, -⟩ := of_isWord hw
    rcases of_numberKind?_cons h with hc | hc | hc
    · rw [hc] at hdig; exact absurd hdig (by decide)
    · exact absurd hc hdot
    · exact absurd hc hm

/-- A candidate that starts with no digit, point or sign is no number. -/
theorem numberKind?_eq_none {c : Char} (hd : c.isDigit = false) (hp : c ≠ '.') (hm : c ≠ '-') (rest : List Char) :
    numberKind? (c :: rest) = none := by
  cases hn : numberKind? (c :: rest) with
  | none => rfl
  | some kind =>
    rcases of_numberKind?_cons hn with h | h | h
    · rw [h] at hd; exact absurd hd (by decide)
    · exact absurd h hp
    · exact absurd h hm

theorem isQuoted_eq_false {c : Char} (hq : c ≠ '"') (rest : List Char) : isQuoted (c :: rest) = false := by
  cases h : isQuoted (c :: rest) with
  | false => rfl
  | true => exact absurd (of_isQuoted_cons h) hq

/-- The rules in order on a candidate that has a first character. The rule on comments is never reached, since a stroke is an
operator. -/
theorem kindOf_of_toList {s : String} {c : Char} {rest : List Char} (h : s.toList = c :: rest) :
    kindOf s =
      if isKeyword s then .keyword
      else (numberKind? (c :: rest)).getD
        (if isQuoted (c :: rest) then .string
        else if CharClass.isOperator c then .operator
        else if CharClass.isPunctuation c then .punctuation
        else if (c :: rest).all CharClass.isBlank then .blank
        else if s = includeDirective then .inclusion
        else if opensDirective (c :: rest) then .invalid
        else if CharClass.isWord c then .identifier
        else .invalid) := by
  have hcomment : CharClass.isOperator c = false → ['/', '/'].isPrefixOf (c :: rest) = false := by
    intro ho
    have hc : ('/' == c) = false := by
      rw [beq_eq_false_iff_ne]
      rintro rfl
      exact absurd ho (by decide)
    simp [List.isPrefixOf, hc]
  unfold kindOf
  simp only [h, List.head?_cons, Option.any_some]
  split
  · rfl
  · cases hn : numberKind? (c :: rest) with
    | some kind => rfl
    | none =>
      cases ho : CharClass.isOperator c with
      | true => rfl
      | false => simp only [hcomment ho, Bool.false_eq_true, if_false, Option.getD_none]

end Classification

end Lexing
