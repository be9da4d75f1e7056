import Lexing.Proofs.Lemmas.Delivery

/-!
# What the checks on token sequences tell

A sequence covers a source exactly when its texts, one behind another, are the source (`covers_iff_reconstruct`). The check of spans
passes exactly when they lie end to end from offset 0, and otherwise names the first gap, or the late start when there is no gap
(`checkSpans_iff_end_to_end`). It does not look at how wide a span is: empty spans pass as long as they meet, although the starts do not
rise (`checkSpans_passes_empty_spans`).
-/

namespace Lexing.TokenSequence

/-- A sequence covers a source exactly when its texts, one behind another, are the source, whatever its tokens. -/
theorem covers_iff_reconstruct (sequence : TokenSequence) (source : String) :
    sequence.covers source ↔ sequence.reconstruct = source := by
  rw [covers, coversChars_iff, ← String.toList_inj, Segmentation.toList_reconstruct, List.flatMap_def]

/-- Spans that lie end to end from offset 0. -/
structure EndToEnd (tokens : List (Located Token)) : Prop where
  start_eq : ∀ first ∈ tokens.head?, first.span.start.offset = 0
  meet : tokens.IsChain Meets

/-- Spans that lie end to end from offset 0, and each starts in front of the place where it stops. -/
structure StrictlyEndToEnd (tokens : List (Located Token)) : Prop extends EndToEnd tokens where
  forward : ∀ token ∈ tokens, token.span.start.offset < token.span.stop.offset

/-- The check of spans passes exactly when they lie end to end from offset 0. Otherwise it names the first token that does not meet the
next one, with the two places; only when there is none, the offset that the first token starts at. So strict order is more than it
checks: each span has to run forward as well. Of spans that pass the starts rise exactly when each but the last runs forward. -/
theorem checkSpans_iff_end_to_end (tokens : List (Located Token)) :
    (checkSpans ⟨tokens⟩ = none ↔ EndToEnd tokens) ∧
    (∀ index stop start, checkSpans ⟨tokens⟩ = some (.gap index stop start) ↔
      ∃ a b, FirstGap tokens index a b ∧ a.span.stop = stop ∧ b.span.start = start) ∧
    (∀ offset, checkSpans ⟨tokens⟩ = some (.lateStart offset) ↔
      tokens.IsChain Meets ∧ offset ≠ 0 ∧ ∃ first ∈ tokens.head?, first.span.start.offset = offset) ∧
    (StrictlyEndToEnd tokens ↔
      checkSpans ⟨tokens⟩ = none ∧ ∀ token ∈ tokens, token.span.start.offset < token.span.stop.offset) ∧
    (EndToEnd tokens → ((tokens.Pairwise fun a b => a.span.start.offset < b.span.start.offset) ↔
      ∀ token ∈ tokens.dropLast, token.span.start.offset < token.span.stop.offset)) := by
  have hnone : checkSpans ⟨tokens⟩ = none ↔ EndToEnd tokens := by
    rw [checkSpans_eq, Option.or_eq_none_iff, findGap_eq_none_iff, lateStart?_eq_none_iff]
    exact ⟨fun ⟨hmeet, hstart⟩ => ⟨hstart, hmeet⟩, fun ⟨hstart, hmeet⟩ => ⟨hmeet, hstart⟩⟩
  refine ⟨hnone, ?_, ?_, ?_, ?_⟩
  · intro index stop start
    rw [checkSpans_eq, Option.or_eq_some_iff, findGap_eq_some_iff, lateStart?_eq_some_iff]
    constructor
    · rintro (⟨i, a, b, hgap, he⟩ | ⟨-, first, -, -, he⟩)
      · obtain ⟨rfl, rfl, rfl⟩ := SpanDefect.gap.inj he
        exact ⟨a, b, (Nat.zero_add i).symm ▸ hgap, rfl, rfl⟩
      · cases he
    · rintro ⟨a, b, hgap, rfl, rfl⟩
      exact Or.inl ⟨index, a, b, hgap, by rw [Nat.zero_add]⟩
  · intro offset
    rw [checkSpans_eq, Option.or_eq_some_iff, findGap_eq_some_iff, findGap_eq_none_iff, lateStart?_eq_some_iff]
    constructor
    · rintro (⟨i, a, b, -, he⟩ | ⟨hmeet, first, hfirst, hlate, he⟩)
      · cases he
      · obtain rfl := SpanDefect.lateStart.inj he
        exact ⟨hmeet, hlate, first, hfirst, rfl⟩
    · rintro ⟨hmeet, hlate, first, hfirst, rfl⟩
      exact Or.inr ⟨hmeet, first, hfirst, hlate, rfl⟩
  · rw [hnone]
    exact ⟨fun h => ⟨h.toEndToEnd, h.forward⟩, fun ⟨h, hforward⟩ => ⟨h, hforward⟩⟩
  · intro h
    rw [← isChain_start_iff h.meet, ← List.isChain_map (fun token : Located Token => token.span.start.offset),
      List.isChain_iff_pairwise, List.pairwise_map]

/-- Two tokens without text at the start of a source pass the check. They are not in strict order, and their starts do not rise. -/
theorem checkSpans_passes_empty_spans :
    let empty : Located Token := ⟨⟨"", .identifier⟩, ⟨.start, .start⟩⟩
    checkSpans ⟨[empty, empty]⟩ = none ∧ ¬StrictlyEndToEnd [empty, empty] ∧
      ¬[empty, empty].Pairwise fun a b => a.span.start.offset < b.span.start.offset := by
  refine ⟨by decide, ?_, by decide⟩
  intro h
  exact absurd (h.forward _ List.mem_cons_self) (by decide)

end Lexing.TokenSequence
