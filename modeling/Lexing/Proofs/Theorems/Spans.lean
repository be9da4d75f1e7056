import Lexing.Proofs.Lemmas.Calls
import Lexing.Proofs.Lemmas.Delivery
import Lexing.Proofs.Lemmas.LineIndex

/-!
# Spans say where the tokens are

The scanner keeps its place while it reads, and remembers where a run began. The line index finds places afterwards, from
offsets alone. `scan_spans_fit` says that the two agree on every token that any sink is offered, and that both agree with a walk
over the texts of the tokens: so the spans cut the text into exactly the tokens, without a gap and in strictly rising order.
-/

namespace Lexing.Segmentation

/-- What is right about the span of a token of a source, when the tokens in front of it have a text: it starts behind that text and
stops behind the token's own, it covers the token's text and so is not empty, and the line index names the same two places. -/
structure SpanFits (source before : String) (token : Located Token) : Prop where
  start_eq : Position.start.advanceText before = .ok token.span.start
  stop_eq : token.span.start.advanceText token.value.text = .ok token.span.stop
  slice_eq : token.span.slice source = .ok token.value.text
  positionAt_start : (LineIndex.ofText source).positionAt token.span.start.offset = .ok token.span.start
  positionAt_stop : (LineIndex.ofText source).positionAt token.span.stop.offset = .ok token.span.stop
  isEmpty_eq : token.span.isEmpty = false

variable {source : String}

/-- The token of a piece has a span that fits, when the pieces in front of it make up the text in front of it. -/
theorem spanFits_located {front piece back : List Char} (hs : source.toList = front ++ piece ++ back) (hp : piece ≠ [])
    (h : source.utf8ByteSize < sizeBound) :
    SpanFits source (String.ofList front) (located (Position.start.behind front) piece) := by
  have hsize := LineIndex.utf8ByteSize_eq hs
  rw [String.utf8Len_append] at hsize
  have hstart : (Position.start.behind front).offset = String.utf8Len front := by
    rw [Position.offset_behind, Position.start, Nat.zero_add]
  have hstop : ((Position.start.behind front).behind piece).offset = String.utf8Len front + String.utf8Len piece := by
    rw [Position.offset_behind, hstart]
  have hreg := Position.regular_start.behind front
  refine ⟨?_, ?_, ?_, ?_, ?_, ?_⟩
  · rw [Position.advanceText, String.toList_ofList]
    exact Position.regular_start.advanceChars_eq (by rw [hstart]; omega)
  · simp only [located, Position.advanceText, String.toList_ofList]
    exact hreg.advanceChars_eq (by rw [hstop]; omega)
  · simp only [located, Span.slice, hstart, hstop]
    exact Text.slice_eq hs
  · simp only [located, hstart]
    exact LineIndex.positionAt_eq (hs.trans (List.append_assoc _ _ _)) h
  · have hoffset : ((Position.start.behind front).behind piece).offset = String.utf8Len (front ++ piece) := by
      rw [hstop, String.utf8Len_append]
    simp only [located, hoffset]
    rw [← Position.behind_append]
    exact LineIndex.positionAt_eq hs h
  · have hlt := (Position.start.behind front).offset_lt_behind hp
    rw [Span.isEmpty, located, decide_eq_false_iff_not]
    exact Nat.ne_of_lt hlt

/-- The spans of the tokens of the first pieces of a text fit. -/
theorem spanFits_of_tokensFrom {front : List (List Char)} (hf : front <+: pieces source.toList)
    (h : source.utf8ByteSize < sizeBound) {before after : List (Located Token)} {token : Located Token}
    (ht : tokensFrom .start front = before ++ token :: after) :
    SpanFits source (TokenSequence.reconstruct ⟨before⟩) token := by
  obtain ⟨earlier, piece, later, rfl, rfl, rfl⟩ := exists_of_tokensFrom_eq_append ht
  obtain ⟨rest, hrest⟩ := hf
  have hsource : source.toList = earlier.flatten ++ piece ++ (later ++ rest).flatten := by
    rw [← flatten_pieces source.toList, ← hrest]
    simp only [List.flatten_append, List.flatten_cons, List.append_assoc]
  have hpiece : piece ∈ pieces source.toList := by
    rw [← hrest]
    exact List.mem_append_left rest (List.mem_append_right earlier List.mem_cons_self)
  rw [reconstruct_tokensFrom]
  exact spanFits_located hsource (ne_nil_of_mem_pieces hpiece) h

/-- A token of pieces stops behind its start. -/
theorem offset_lt_of_mem_tokensFrom {split : List (List Char)} (hs : ∀ piece ∈ split, piece ≠ []) {p : Position}
    {token : Located Token} (h : token ∈ tokensFrom p split) : token.span.start.offset < token.span.stop.offset := by
  obtain ⟨piece, hp, q, rfl⟩ := exists_of_mem_tokensFrom h
  exact q.offset_lt_behind (hs piece hp)

/-- Whatever the sink, a scan offers it tokens whose spans all fit the source and the tokens in front of them. The spans rise
strictly, each starts at or behind the stop of every earlier one, and the check of spans finds no fault with the tokens offered
nor with the first of them, such as those that were taken. -/
theorem scan_spans_fit (limits : Limits) (h : source.utf8ByteSize < sizeBound) {σ : Type} (accept : Sink σ) (state : σ) :
    ∃ last calls outcome, Scanner.scan limits accept state source = .ok ⟨last, outcome⟩ ∧
      Scanner.scan limits accept.observed (state, []) source = .ok ⟨(last, calls), outcome⟩ ∧
      (∀ before token after, calls.map Prod.fst = before ++ token :: after →
        SpanFits source (TokenSequence.reconstruct ⟨before⟩) token ∧
          token.span.start.compare token.span.stop = .lt) ∧
      ((calls.map Prod.fst).Pairwise fun a b =>
        a.span.stop.offset ≤ b.span.start.offset ∧ a.span.start.compare b.span.start = .lt ∧
          a.span.stop.compare b.span.stop = .lt) ∧
      ∀ first, first <+: calls.map Prod.fst → TokenSequence.checkSpans ⟨first⟩ = none := by
  have hoffered := accept.offered_calls state (delivery limits source)
  -- The tokens offered are the tokens of the first pieces of the source.
  obtain ⟨front, hfront, htokens⟩ : ∃ front, front <+: pieces source.toList ∧
      (accept.calls state (delivery limits source).tokens).map Prod.fst = tokensFrom .start front := by
    have hprefix := hoffered.map_fst_prefix
    rw [delivery, deliver_eq] at hprefix
    obtain ⟨front, hf, he⟩ := exists_of_prefix_tokensFrom hprefix
    refine ⟨front, hf.trans (List.take_prefix _ _), ?_⟩
    rw [delivery, deliver_eq]
    exact he
  have hpieces : ∀ piece ∈ front, piece ≠ [] := fun piece hp => ne_nil_of_mem_pieces (hfront.subset hp)
  refine ⟨_, _, _, Scanner.scan_eq h accept state, Scanner.scan_observed h accept state, ?_, ?_, ?_⟩
  · intro before token after he
    rw [htokens] at he
    have hm : token ∈ tokensFrom .start front := by
      rw [he]
      exact List.mem_append_right before List.mem_cons_self
    exact ⟨spanFits_of_tokensFrom hfront h he, Position.compare_eq_lt (offset_lt_of_mem_tokensFrom hpieces hm)⟩
  · rw [htokens]
    refine (pairwise_tokensFrom .start front).imp_of_mem ?_
    intro a b ha hb hab
    have ha' := offset_lt_of_mem_tokensFrom hpieces ha
    have hb' := offset_lt_of_mem_tokensFrom hpieces hb
    exact ⟨hab, Position.compare_eq_lt (by omega), Position.compare_eq_lt (by omega)⟩
  · intro first hfirst
    rw [htokens] at hfirst
    obtain ⟨pieces, -, rfl⟩ := exists_of_prefix_tokensFrom hfirst
    exact checkSpans_tokensFrom pieces

/-- A letter of two bytes and a tab: the offset behind them is 3, and the column 5. -/
theorem spans_fit_letter_tab : "é\tb".utf8ByteSize < sizeBound ∧
    ∃ last calls outcome,
      Scanner.scan .development Sink.collect.observed (#[], []) "é\tb" = .ok ⟨(last, calls), outcome⟩ ∧
        (calls.map fun call => call.1.span.start) = [⟨0, 1, 1⟩, ⟨2, 1, 2⟩, ⟨3, 1, 5⟩] ∧
        TokenSequence.checkSpans ⟨calls.map Prod.fst⟩ = none := by
  have h : "é\tb".utf8ByteSize < sizeBound := by decide
  obtain ⟨last, calls, outcome, -, hrun, -, -, hcheck⟩ := scan_spans_fit .development h Sink.collect #[]
  have hstarts : (Scanner.scan .development Sink.collect.observed (#[], []) "é\tb").map
      (fun outcome => outcome.sink.2.map fun call => call.1.span.start) = .ok [⟨0, 1, 1⟩, ⟨2, 1, 2⟩, ⟨3, 1, 5⟩] := by
    rfl
  rw [hrun] at hstarts
  exact ⟨h, last, calls, outcome, hrun, Except.ok.inj hstarts, hcheck _ (List.prefix_refl _)⟩

end Lexing.Segmentation
