import Lexing.Proofs.Lemmas.Delivery

/-!
# A scan finds the pieces of a text

The scanner reads a text once, character by character, and looks at none ahead. `scan_delivers_pieces` says what comes out in
terms of the whole text: the pieces of its one split, in order, as many as the limits allow, and the result that `ending` reads
off their lengths. So nothing of the text is lost, doubled or moved, and the limits cut the list of pieces but change none.
-/

namespace Lexing.Segmentation

/-- What the token of a piece is: the text of the piece, and blank for a blank run, or else the kind of the text. -/
def IsTokenOf (piece : List Char) (token : Token) : Prop :=
  token.text = String.ofList piece ∧
    if piece.all CharClass.isBlank then token.kind = .blank else Classification.classify token.text = .ok token.kind

theorem isTokenOf_located {piece : List Char} (h : piece ≠ []) (p : Position) : IsTokenOf piece (located p piece).value := by
  refine ⟨rfl, ?_⟩
  simp only [located, kindOf]
  split
  · rfl
  · exact classify_ofList h

/-- A scan into a sink that takes everything delivers the pieces of the text's one split, in order and with their kinds, as many
as `ending` counts, and ends as `ending` says. Every token delivered has a character and is not too long, and the texts of the
tokens are the start of the text. -/
theorem scan_delivers_pieces (limits : Limits) {source : String} (h : source.utf8ByteSize < sizeBound) :
    ∃ split, IsSplit split source.toList ∧ (∀ other, IsSplit other source.toList → other = split) ∧
      ∃ tokens, Scanner.scan limits Sink.collect #[] source = .ok ⟨tokens, (ending limits split).2⟩ ∧
        List.Forall₂ (fun piece token => IsTokenOf piece token.value) (split.take (ending limits split).1)
          tokens.toList ∧
        (∀ token ∈ tokens, token.value.text ≠ "" ∧ token.value.length ≤ limits.maxTokenLength) ∧
        (tokens.toList.flatMap fun token => token.value.text.toList) <+: source.toList := by
  have hscan : Scanner.scan limits Sink.collect #[] source = _ := Scanner.scan_collect h
  rw [delivery, deliver_eq] at hscan
  refine ⟨pieces source.toList, isSplit_pieces _, fun _ => isSplit_iff.1, _, hscan, ?_, ?_, ?_⟩
  · refine forall₂_tokensFrom ?_ .start
    intro piece hp p
    exact isTokenOf_located (ne_nil_of_mem_pieces (List.mem_of_mem_take hp)) p
  · intro token ht
    obtain ⟨piece, hp, q, rfl⟩ := exists_of_mem_tokensFrom (List.mem_toArray.1 ht)
    refine ⟨?_, ?_⟩
    · intro he
      exact ne_nil_of_mem_pieces (List.mem_of_mem_take hp) (String.ofList_eq_empty_iff.1 he)
    · simpa [Token.length, located] using length_le_of_mem_ending hp
  · rw [flatMap_tokensFrom]
    have hprefix := List.take_prefix (ending limits (pieces source.toList)).1 (pieces source.toList)
    obtain ⟨rest, hrest⟩ := hprefix
    refine ⟨rest.flatten, ?_⟩
    rw [← List.flatten_append, hrest, flatten_pieces]

/-- Tokens of two characters at most: the third piece is too long, so two tokens are delivered. -/
theorem scan_delivers_pieces_too_long : "ab cde".utf8ByteSize < sizeBound ∧
    ∃ tokens, Scanner.scan { Limits.development with maxTokenLength := 2, tokenLength_pos := by decide } Sink.collect #[]
        "ab cde" = .ok ⟨tokens, .error (.tokenTooLong 3 ⟨3, 1, 4⟩)⟩ ∧
      tokens.size = 2 ∧ ∀ token ∈ tokens, token.value.length ≤ 2 := by
  have h : "ab cde".utf8ByteSize < sizeBound := by decide
  obtain ⟨split, hsplit, -, tokens, hscan, hall, htokens, -⟩ := scan_delivers_pieces
    { Limits.development with maxTokenLength := 2, tokenLength_pos := by decide } h
  obtain rfl := isSplit_iff.1 hsplit
  have hlength := hall.length_eq
  refine ⟨h, tokens, hscan, hlength.symm, fun token ht => (htokens token ht).2⟩

end Lexing.Segmentation
