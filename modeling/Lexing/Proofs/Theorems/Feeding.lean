import Lexing.Proofs.Lemmas.Feeding
import Lexing.Proofs.Theorems.Spans

/-!
# No character is lost by an error

A scanner that is fed on after errors has met three of them: the sink refused a token, the sink has had as many as it may get, or a
run is full. Each leaves the scanner at another point of its step. What holds after every feed all the same is that the tokens handed
out, taken or not, and the run that is pending make up the characters consumed, and that all places are places in these characters
(`feed_conserves`).
-/

namespace Lexing

open CharClass Segmentation

namespace Feeding

variable {σ : Type} {limits : Limits} {feeding : Feeding σ}

/-- The text that is pending. -/
def pendingText (feeding : Feeding σ) : String :=
  match feeding.scanner.pending with
  | some run => run.text
  | none => ""

/-- What holds after every feed. -/
structure Conserves (limits : Limits) (feeding : Feeding σ) : Prop where
  /-- The tokens handed out and the pending run make up the characters consumed. -/
  texts_eq : TokenSequence.reconstruct ⟨feeding.tokens⟩ ++ feeding.pendingText = String.ofList feeding.consumed
  /-- The scanner stands behind these characters. -/
  position_eq : Position.start.advanceText (String.ofList feeding.consumed) = .ok feeding.scanner.position
  /-- The span of each token is its place among them. -/
  spans_fit : ∀ before handout after, feeding.handed = before ++ handout :: after →
    SpanFits (String.ofList feeding.consumed) (TokenSequence.reconstruct ⟨before.map Handout.token⟩) handout.token
  /-- Between two tokens is the text of those handed out between them. -/
  gap_eq : ∀ before a middle b after, feeding.handed = before ++ a :: (middle ++ b :: after) →
    a.token.span.stop.offset ≤ b.token.span.start.offset ∧
      Span.slice ⟨a.token.span.stop, b.token.span.start⟩ (String.ofList feeding.consumed) =
        .ok (TokenSequence.reconstruct ⟨middle.map Handout.token⟩)
  /-- The count is that of the calls in which the sink took its token. -/
  emitted_eq : feeding.scanner.emitted = feeding.calls.countP fun call => call.2.isNone
  emitted_le : feeding.scanner.emitted ≤ limits.maxTokenCount
  /-- The pending run starts behind the tokens. It has some characters, all blank or all neither blank nor standing alone, and not too
  many. -/
  pending_start : ∀ run ∈ feeding.scanner.pending,
    Position.start.advanceText (TokenSequence.reconstruct ⟨feeding.tokens⟩) = .ok run.start
  pending_run : ∀ run ∈ feeding.scanner.pending, run.text ≠ "" ∧ ∀ c ∈ run.text.toList, joins run.blank c
  pending_size : ∀ run ∈ feeding.scanner.pending, run.size = run.text.length ∧ run.size ≤ limits.maxTokenLength

/-- The sink took as many tokens as were handed out and taken. -/
theorem countP_calls (feeding : Feeding σ) :
    (feeding.calls.countP fun call => call.2.isNone) = feeding.handed.countP Handout.isTaken := by
  rw [calls, List.countP_filterMap]
  congr 1
  funext handout
  rcases handout with ⟨token, _ | error | _⟩ <;> rfl

/-- The parts of what was consumed: the pieces that were handed out, and the characters of the pending run, if there is one. -/
theorem Balanced.exists_parts (h : Balanced limits feeding) :
    ∃ split rest, Ledger limits feeding.handed split feeding.scanner.emitted ∧ feeding.consumed = split.flatten ++ rest ∧
      feeding.pendingText = String.ofList rest ∧
      ∀ run ∈ feeding.scanner.pending, ∃ blank, run = Scanner.holding (Position.start.behind split.flatten) blank rest ∧
        IsRun blank rest ∧ rest.length ≤ limits.maxTokenLength := by
  cases h with
  | @between handed split emitted sink ledger =>
    exact ⟨split, [], ledger, (List.append_nil _).symm, rfl, fun _ hrun => nomatch hrun⟩
  | @inside handed split emitted blank piece sink ledger isRun length_le =>
    refine ⟨split, piece, ledger, rfl, rfl, ?_⟩
    intro run hrun
    obtain rfl := Option.some.inj hrun
    exact ⟨blank, rfl, isRun, length_le⟩

/-- The place behind characters below the bound. -/
theorem advanceText_ofList {cs : List Char} (h : String.utf8Len cs < sizeBound) :
    Position.start.advanceText (String.ofList cs) = .ok (Position.start.behind cs) := by
  rw [Position.advanceText, String.toList_ofList]
  exact Position.fits_of_utf8Len_lt h

/-- From the stop of one token of pieces to the start of a later one is the text of the tokens between them. -/
theorem slice_between_tokensFrom {split : List (List Char)} {before middle after : List (Located Token)} {a b : Located Token}
    (h : tokensFrom .start split = before ++ a :: (middle ++ b :: after)) (rest : List Char) :
    a.span.stop.offset ≤ b.span.start.offset ∧
      Span.slice ⟨a.span.stop, b.span.start⟩ (String.ofList (split.flatten ++ rest)) =
        .ok (TokenSequence.reconstruct ⟨middle⟩) := by
  have hb : tokensFrom .start split = (before ++ a :: middle) ++ b :: after := by
    rw [h, List.append_assoc, List.cons_append]
  obtain ⟨front, piece, back, rfl, hfront, rfl⟩ := exists_of_tokensFrom_eq_append hb
  obtain ⟨first, piece', between, rfl, rfl, rfl⟩ := exists_of_tokensFrom_eq_append hfront.symm
  rw [tokensFrom_append, tokensFrom] at hfront
  obtain rfl := (List.cons.inj (List.append_cancel_left hfront)).2
  have hstop : (located (Position.start.behind first.flatten) piece').span.stop.offset =
      String.utf8Len (first.flatten ++ piece') := by
    rw [located, ← Position.behind_append, Position.offset_start_behind]
  have hstart : (located (Position.start.behind (first ++ piece' :: between).flatten) piece).span.start.offset =
      String.utf8Len (first.flatten ++ piece') + String.utf8Len between.flatten := by
    rw [located, Position.offset_start_behind, List.flatten_append, List.flatten_cons, ← List.append_assoc,
      String.utf8Len_append]
  have hsource : (String.ofList ((first ++ piece' :: between ++ piece :: back).flatten ++ rest)).toList =
      (first.flatten ++ piece') ++ between.flatten ++ (piece ++ back.flatten ++ rest) := by
    rw [String.toList_ofList]
    simp
  refine ⟨by omega, ?_⟩
  rw [Span.slice, hstop, hstart, Text.slice_eq hsource, reconstruct_tokensFrom]

/-- A balanced scanner has lost no character. -/
theorem Balanced.conserves (h : Balanced limits feeding) (hb : String.utf8Len feeding.consumed < sizeBound) :
    feeding.Conserves limits := by
  obtain ⟨split, rest, ledger, hconsumed, htext, hrun⟩ := h.exists_parts
  have htokens : TokenSequence.reconstruct ⟨feeding.tokens⟩ = String.ofList split.flatten := by
    rw [Feeding.tokens, ledger.tokens_eq, reconstruct_tokensFrom]
  have hsize : (String.ofList feeding.consumed).utf8ByteSize < sizeBound := by
    rwa [String.utf8ByteSize_ofList]
  refine ⟨?_, ?_, ?_, ?_, ?_, ledger.emitted_le, ?_, ?_, ?_⟩
  · rw [htokens, htext, hconsumed, String.ofList_append]
  · rw [h.position_eq]
    exact advanceText_ofList hb
  · intro before handout after he
    have hmap := ledger.tokens_eq.symm
    rw [he, List.map_append, List.map_cons] at hmap
    obtain ⟨front, piece, back, rfl, hbefore, htoken⟩ := exists_of_tokensFrom_eq_append hmap
    rw [hbefore, reconstruct_tokensFrom, htoken]
    have hsource : (String.ofList feeding.consumed).toList = front.flatten ++ piece ++ (back.flatten ++ rest) := by
      rw [String.toList_ofList, hconsumed]
      simp
    exact spanFits_located hsource (ledger.ne_nil piece (by simp)) hsize
  · intro before a middle b after he
    have hmap := ledger.tokens_eq.symm
    rw [he, List.map_append, List.map_cons, List.map_append, List.map_cons] at hmap
    rw [hconsumed]
    exact slice_between_tokensFrom hmap rest
  · rw [countP_calls, ledger.countP_eq]
  · intro run hr
    obtain ⟨blank, rfl, -, -⟩ := hrun run hr
    rw [hconsumed, String.utf8Len_append] at hb
    rw [htokens]
    exact advanceText_ofList (by omega)
  · intro run hr
    obtain ⟨blank, rfl, hrun, -⟩ := hrun run hr
    refine ⟨fun he => hrun.ne_nil (String.ofList_eq_empty_iff.1 he), ?_⟩
    rw [Scanner.holding, String.toList_ofList]
    exact hrun.all_join
  · intro run hr
    obtain ⟨blank, rfl, -, hl⟩ := hrun run hr
    exact ⟨String.length_ofList.symm, hl⟩

end Feeding

/-- Characters of less than the bound are fed to a fresh scanner one by one, and the sink may refuse any token. No feed faults, and
after the last one no character is lost: so it is after each, as the characters may be any. The lists that say so change nothing: the
scanner, the sink and its calls are those of a scanner without them. -/
theorem feed_conserves (limits : Limits) {cs : List Char} (h : String.utf8Len cs < sizeBound) {σ : Type} (accept : Sink σ)
    (state : σ) :
    ∃ last, Feeding.run limits accept (.fresh state) cs = .ok last ∧
      Scanner.feedOn limits accept .fresh state cs = .ok (last.scanner, last.sink) ∧
      Scanner.feedOn limits accept.observed .fresh (state, []) cs = .ok (last.scanner, (last.sink, last.calls)) ∧
      last.Conserves limits := by
  obtain ⟨last, hrun, hbalanced, hsize⟩ := (Feeding.balanced_fresh limits state).run h accept
  obtain ⟨hplain, hseen⟩ := Feeding.feedOn_eq_of_run hrun
  exact ⟨last, hrun, hplain, hseen, hbalanced.conserves hsize⟩

/-- A sink that takes everything but operators. -/
def Sink.refusingOperators : Sink Nat := fun taken token =>
  if token.value.kind = .operator then (taken, some (.sinkFailed "operator")) else (taken + 1, none)

/-- Two tokens at most, of two characters at most. -/
def Limits.twos : Limits :=
  { development with maxTokenLength := 2, maxTokenCount := 2, tokenLength_pos := by decide, tokenCount_pos := by decide }

/-- The sink refuses `+`, the blank run is one token too many, and `z` finds the last run full. The characters `d` and `z` are not
consumed. -/
theorem feed_conserves_past_errors : String.utf8Len "ab+c dxyz".toList < sizeBound ∧
    ∃ last, Feeding.run .twos Sink.refusingOperators (.fresh 0) "ab+c dxyz".toList = .ok last ∧
      (last.handed.map fun handout => (handout.token.value.text, handout.fate)) =
        [("ab", .taken), ("+", .refused (.sinkFailed "operator")), ("c", .taken), (" ", .surplus)] ∧
      last.consumed = "ab+c xy".toList ∧ last.pendingText = "xy" ∧
      Position.start.advanceText (String.ofList last.consumed) = .ok last.scanner.position ∧
      (last.calls.countP fun call => call.2.isNone) = 2 := by
  have h : String.utf8Len "ab+c dxyz".toList < sizeBound := by decide
  obtain ⟨last, hrun, -, -, hconserves⟩ := feed_conserves .twos h Sink.refusingOperators 0
  have hvalue : (Feeding.run .twos Sink.refusingOperators (.fresh 0) "ab+c dxyz".toList).map (fun last =>
      (last.handed.map fun handout => (handout.token.value.text, handout.fate), last.consumed, last.pendingText,
        last.scanner.emitted)) =
      .ok ([("ab", .taken), ("+", .refused (.sinkFailed "operator")), ("c", .taken), (" ", .surplus)],
        "ab+c xy".toList, "xy", 2) := rfl
  rw [hrun] at hvalue
  obtain ⟨hhanded, hvalue⟩ := Prod.mk.inj (Except.ok.inj hvalue)
  obtain ⟨hconsumed, hvalue⟩ := Prod.mk.inj hvalue
  obtain ⟨hpending, hemitted⟩ := Prod.mk.inj hvalue
  exact ⟨h, last, hrun, hhanded, hconsumed, hpending, hconserves.position_eq, hconserves.emitted_eq.symm.trans hemitted⟩

end Lexing
