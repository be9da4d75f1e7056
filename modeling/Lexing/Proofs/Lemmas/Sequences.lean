import Lexing.Token.Sequence
import Mathlib.Data.List.Chain

/-!
# Checks on token sequences

Two checks walk over the tokens of a sequence. `coversChars` takes the texts off the front of a source, and succeeds when they are the
source (`coversChars_iff`). `findGap` looks at neighbours, and finds the first two that do not meet (`findGap_eq_some_iff`); it finds
none when all do (`findGap_eq_none_iff`). The check of spans then looks at the first token (`checkSpans_eq`).
-/

namespace Lexing.TokenSequence

/-! ## Covering a source -/

/-- Texts can be taken off the front of a source, so that nothing is left, exactly when they make it up. -/
theorem coversChars_iff {texts : List (List Char)} {source : List Char} :
    coversChars texts source ↔ texts.flatten = source := by
  induction texts generalizing source with
  | nil =>
    rw [coversChars, List.isEmpty_iff, List.flatten_nil]
    exact eq_comm
  | cons text texts ih =>
    rw [coversChars, List.flatten_cons]
    cases hp : text.isPrefixOf? source with
    | none =>
      simp only [Bool.false_eq_true, false_iff]
      intro he
      rw [List.isPrefixOf?_eq_some_iff_append_eq.2 he] at hp
      cases hp
    | some rest =>
      have hsource := List.isPrefixOf?_eq_some_iff_append_eq.1 hp
      rw [← hsource, List.append_cancel_left_eq]
      exact ih

/-! ## Spans end to end -/

/-- A token meets the next one when it stops in the very place where that one starts. -/
def Meets (a b : Located Token) : Prop := a.span.stop = b.span.start

/-- No two neighbours fail to meet when no gap is found. -/
theorem findGap_eq_none_iff {index : Nat} {tokens : List (Located Token)} :
    findGap index tokens = none ↔ tokens.IsChain Meets := by
  induction tokens generalizing index with
  | nil => exact iff_of_true rfl .nil
  | cons first rest ih =>
    cases rest with
    | nil => exact iff_of_true rfl (.singleton first)
    | cons second rest =>
      rw [findGap, List.isChain_cons_cons, ← @ih (index + 1), Meets]
      split
      · rename_i hgap
        simp [hgap]
      · rename_i hmeets
        simp [not_not.1 hmeets]

/-- The first gap of some tokens: up to an index each token meets the next one, and the token there does not. -/
structure FirstGap (tokens : List (Located Token)) (index : Nat) (a b : Located Token) : Prop where
  left : tokens[index]? = some a
  right : tokens[index + 1]? = some b
  not_meets : ¬Meets a b
  before : (tokens.take (index + 1)).IsChain Meets

/-- A gap is found exactly where the first one is. -/
theorem findGap_eq_some_iff {index : Nat} {tokens : List (Located Token)} {defect : SpanDefect} :
    findGap index tokens = some defect ↔
      ∃ i a b, FirstGap tokens i a b ∧ defect = .gap (index + i) a.span.stop b.span.start := by
  induction tokens generalizing index with
  | nil =>
    refine iff_of_false (by simp [findGap]) ?_
    rintro ⟨i, a, b, ⟨hleft, -, -, -⟩, -⟩
    cases hleft
  | cons first rest ih =>
    cases rest with
    | nil =>
      refine iff_of_false (by simp [findGap]) ?_
      rintro ⟨i, a, b, ⟨-, hright, -, -⟩, -⟩
      cases hright
    | cons second rest =>
      rw [findGap]
      split
      · rename_i hgap
        constructor
        · intro h
          cases h
          exact ⟨0, first, second, ⟨rfl, rfl, hgap, .singleton first⟩, rfl⟩
        · rintro ⟨i, a, b, ⟨hleft, hright, -, hbefore⟩, rfl⟩
          cases i with
          | zero =>
            cases hleft
            cases hright
            rfl
          | succ i =>
            -- A later gap would be behind two tokens that meet.
            exact absurd (List.isChain_cons_cons.1 hbefore).1 hgap
      · rename_i hmeets
        rw [ih]
        have hmeets : Meets first second := not_not.1 hmeets
        constructor
        · rintro ⟨i, a, b, ⟨hleft, hright, hgap, hbefore⟩, rfl⟩
          refine ⟨i + 1, a, b, ⟨hleft, hright, hgap, List.isChain_cons_cons.2 ⟨hmeets, hbefore⟩⟩, ?_⟩
          rw [Nat.add_assoc, Nat.add_comm 1]
        · rintro ⟨i, a, b, ⟨hleft, hright, hgap, hbefore⟩, rfl⟩
          cases i with
          | zero =>
            cases hleft
            cases hright
            exact absurd hmeets hgap
          | succ i =>
            refine ⟨i, a, b, ⟨hleft, hright, hgap, (List.isChain_cons_cons.1 hbefore).2⟩, ?_⟩
            rw [Nat.add_assoc, Nat.add_comm 1]

/-- The defect of tokens whose first does not start at offset 0. -/
def lateStart? (tokens : List (Located Token)) : Option SpanDefect :=
  tokens.head?.bind fun first => if first.span.start.offset ≠ 0 then some (.lateStart first.span.start.offset) else none

theorem lateStart?_eq_none_iff {tokens : List (Located Token)} :
    lateStart? tokens = none ↔ ∀ first ∈ tokens.head?, first.span.start.offset = 0 := by
  simp [lateStart?, Option.bind_eq_none_iff]

theorem lateStart?_eq_some_iff {tokens : List (Located Token)} {defect : SpanDefect} :
    lateStart? tokens = some defect ↔
      ∃ first ∈ tokens.head?, first.span.start.offset ≠ 0 ∧ defect = .lateStart first.span.start.offset := by
  rw [lateStart?, Option.bind_eq_some_iff]
  constructor
  · rintro ⟨first, hfirst, h⟩
    split at h
    · rename_i hlate
      exact ⟨first, hfirst, hlate, (Option.some.inj h).symm⟩
    · cases h
  · rintro ⟨first, hfirst, hlate, rfl⟩
    exact ⟨first, hfirst, if_pos hlate⟩

/-- A gap counts first, and then a late start. -/
theorem checkSpans_eq (tokens : List (Located Token)) : checkSpans ⟨tokens⟩ = (findGap 0 tokens).or (lateStart? tokens) := by
  rw [checkSpans]
  cases findGap 0 tokens with
  | some defect => rfl
  | none => cases tokens <;> rfl

/-- Where each token meets the next one, the starts rise by the widths of the spans: they rise strictly when no span but the last is
empty or runs backwards. -/
theorem isChain_start_iff {tokens : List (Located Token)} (h : tokens.IsChain Meets) :
    (tokens.IsChain fun a b => a.span.start.offset < b.span.start.offset) ↔
      ∀ token ∈ tokens.dropLast, token.span.start.offset < token.span.stop.offset := by
  induction tokens with
  | nil => exact iff_of_true .nil (by simp)
  | cons first rest ih =>
    cases rest with
    | nil => exact iff_of_true (.singleton first) (by simp)
    | cons second rest =>
      obtain ⟨hmeets, hrest⟩ := List.isChain_cons_cons.1 h
      rw [List.isChain_cons_cons, ih hrest, ← hmeets, List.dropLast_cons_cons, List.forall_mem_cons]

end Lexing.TokenSequence
