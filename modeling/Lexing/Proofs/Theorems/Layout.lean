import Lexing.Proofs.Lemmas.Layout
import Lexing.Proofs.Lemmas.Listing
import Lexing.Proofs.Theorems.Concatenation

/-!
# Blank space between tokens does not matter

Every token's text is found again by itself, and no kind depends on what stands beside a text. So the significant tokens of a text
may be set apart by any blank space: as long as no two of them run together, the same ones come out, in the same order and of the
same kinds, and the listing without blank runs and places is the same byte for byte (`layout_independent`).
-/

namespace Lexing

open Segmentation

/-- The texts and kinds of the tokens that are not blank runs. -/
def significantPairs (tokens : Array (Located Token)) : List (String × Kind) :=
  TokenSequence.pairs ⟨TokenSequence.significant ⟨tokens.toList⟩⟩

/-- The blank space of a layout keeps to the limits: no run is too long, the pieces are not too many, and the whole is below the
bound. -/
structure Layout.Fits (limits : Limits) (layout : Layout) : Prop where
  length_le : ∀ gap ∈ layout.gaps, gap.length ≤ limits.maxTokenLength
  count_le : layout.texts.length + layout.gaps.countP (· ≠ "") ≤ limits.maxTokenCount
  size_lt : layout.text.utf8ByteSize < sizeBound

variable {limits : Limits} {source : String} {tokens : Array (Located Token)}

/-- Without places a line for a person gives the text and the kind of the token, and nothing else. -/
theorem lines_eq_of_plain (summary : Bool) (tokens : List (Located Token)) :
    Listing.lines ⟨.plain, false, false, summary⟩ tokens =
      String.join ((TokenSequence.pairs ⟨TokenSequence.significant ⟨tokens⟩⟩).map fun pair =>
        Listing.plainLine false ⟨⟨pair.1, pair.2⟩, ⟨.start, .start⟩⟩ ++ "\n") := by
  have hshows : Listing.shows ⟨.plain, false, false, summary⟩ = fun token => !token.value.kind.isBlank := by
    funext token
    simp [Listing.shows]
  rw [Listing.lines, hshows, TokenSequence.pairs, TokenSequence.significant, List.map_map]
  congr 1

/-- The texts of the significant tokens are the words of the text. -/
theorem texts_significant_tokensFrom (p : Position) (cs : List Char) :
    (TokenSequence.significant ⟨tokensFrom p (pieces cs)⟩).map (fun token => token.value.text) =
      (words cs).map String.ofList := by
  have hpairs := congrArg (List.map Prod.fst) (pairs_significant_tokensFrom p cs)
  rw [TokenSequence.pairs, List.map_map, List.map_map] at hpairs
  exact hpairs

/-- The texts of a layout of the words of a text are words. -/
theorem Layout.isWord_of_texts_eq {layout : Layout} {cs : List Char} (h : layout.texts = (words cs).map String.ofList) :
    ∀ text ∈ layout.texts, IsWord text.toList := by
  intro text ht
  rw [h] at ht
  obtain ⟨word, hw, rfl⟩ := List.mem_map.1 ht
  rw [String.toList_ofList]
  exact isWord_of_mem_words hw

/-- A layout of the words of a text within the limits is within them, if its blank space is. -/
theorem Layout.Separated.within {layout : Layout} (h : layout.Separated) (hs : Within limits source.toList)
    (htexts : layout.texts = (words source.toList).map String.ofList) (hfits : layout.Fits limits) :
    Within limits layout.text.toList := by
  have hwords := Layout.isWord_of_texts_eq htexts
  have hsize := hfits.size_lt
  rw [← String.utf8Len_toList] at hsize
  refine ⟨Position.fits_of_utf8Len_lt hsize, ?_, ?_⟩
  · intro piece hp
    have hlength : (String.ofList piece).length ≤ limits.maxTokenLength := by
      rcases List.mem_append.1 (h.mem_of_mem_pieces hwords hp) with ht | hg
      · rw [htexts] at ht
        obtain ⟨word, hw, he⟩ := List.mem_map.1 ht
        rw [← he, String.length_ofList]
        exact hs.length_le word (List.mem_filter.1 hw).1
      · exact hfits.length_le _ hg
    rwa [String.length_ofList] at hlength
  · rw [h.length_pieces hwords]
    exact hfits.count_le

/-- A piece of a text within the limits is within them by itself. -/
theorem Segmentation.Within.of_mem_pieces (h : Within limits source.toList) {piece : List Char} (hp : piece ∈ pieces source.toList) :
    Within limits piece := by
  have hpieces := pieces_of_mem_pieces hp
  obtain ⟨front, back, hsplit⟩ := List.append_of_mem hp
  have hsource : source.toList = front.flatten ++ (piece ++ back.flatten) := by
    rw [← flatten_pieces source.toList, hsplit]
    simp
  have hfits := h.fits
  rw [hsource] at hfits
  refine ⟨(Position.fits_append.1 (Position.fits_of_fits_append hfits)).1, ?_, ?_⟩
  · rw [hpieces]
    intro piece' hp'
    rw [List.mem_singleton.1 hp']
    exact h.length_le piece hp
  · rw [hpieces]
    exact limits.tokenCount_pos

/-- When a text is scanned in full, so is every layout of its significant tokens that keeps to the limits. Any layout of them that is
scanned in full has the same significant tokens, by text and kind, and the same listing without blank runs and places. The text of
each token, scanned by itself, is that one token. -/
theorem layout_independent {count : Nat} (h : Scanner.scan limits Sink.collect #[] source = .ok ⟨tokens, .ok count⟩) :
    (∀ layout : Layout,
      layout.texts = (TokenSequence.significant ⟨tokens.toList⟩).map (fun token => token.value.text) → layout.Separated →
        (layout.Fits limits →
          ∃ others n, Scanner.scan limits Sink.collect #[] layout.text = .ok ⟨others, .ok n⟩) ∧
        ∀ others n, Scanner.scan limits Sink.collect #[] layout.text = .ok ⟨others, .ok n⟩ →
          significantPairs others = significantPairs tokens ∧
            ∀ summary, ∃ bytes, IsListing limits ⟨.plain, false, false, summary⟩ source bytes ∧
              IsListing limits ⟨.plain, false, false, summary⟩ layout.text bytes) ∧
      ∀ token ∈ tokens, ∃ span,
        Scanner.scan limits Sink.collect #[] token.value.text = .ok ⟨#[⟨token.value, span⟩], .ok 1⟩ := by
  obtain ⟨hwithin, rfl, rfl⟩ := scan_collect_eq_ok_iff.1 h
  refine ⟨?_, ?_⟩
  · intro layout htexts hsep
    rw [texts_significant_tokensFrom] at htexts
    refine ⟨fun hfits => ⟨_, _, scan_collect_eq_ok_iff.2 ⟨hsep.within hwithin htexts hfits, rfl, rfl⟩⟩, ?_⟩
    intro others n hscan
    obtain ⟨hlaid, rfl, rfl⟩ := scan_collect_eq_ok_iff.1 hscan
    have hwords := Layout.isWord_of_texts_eq htexts
    have hsame : words layout.text.toList = words source.toList := by
      rw [hsep.words_eq hwords, htexts, List.map_map]
      simp
    have hpairs : TokenSequence.pairs ⟨TokenSequence.significant ⟨tokensFrom .start (pieces layout.text.toList)⟩⟩ =
        TokenSequence.pairs ⟨TokenSequence.significant ⟨tokensFrom .start (pieces source.toList)⟩⟩ := by
      rw [pairs_significant_tokensFrom, pairs_significant_tokensFrom, hsame]
    refine ⟨hpairs, fun summary => ⟨_, isListing_iff.2 ⟨hwithin, rfl⟩, ?_⟩⟩
    rw [lines_eq_of_plain, ← hpairs, ← lines_eq_of_plain]
    exact isListing_iff.2 ⟨hlaid, rfl⟩
  · intro token ht
    obtain ⟨piece, hp, q, rfl⟩ := exists_of_mem_tokensFrom (List.mem_toArray.1 ht)
    have htext : (located q piece).value.text.toList = piece := String.toList_ofList
    refine ⟨⟨.start, Position.start.behind piece⟩, scan_collect_eq_ok_iff.2 ⟨?_, ?_, ?_⟩⟩
    · rw [htext]
      exact hwithin.of_mem_pieces hp
    · rw [htext, pieces_of_mem_pieces hp]
      rfl
    · rw [htext, pieces_of_mem_pieces hp]
      rfl

/-- An assignment set apart in another way: the space in front of `=` goes, and the name and the value get space around them. -/
theorem layout_independent_assignment :
    ∃ tokens others, Scanner.scan .development Sink.collect #[] "x =1" = .ok ⟨tokens, .ok 4⟩ ∧
      Scanner.scan .development Sink.collect #[] "\n x=\t1 " = .ok ⟨others, .ok 6⟩ ∧
      significantPairs others = [("x", .identifier), ("=", .operator), ("1", .integer)] ∧
      (∀ summary, ∃ bytes, IsListing .development ⟨.plain, false, false, summary⟩ "x =1" bytes ∧
        IsListing .development ⟨.plain, false, false, summary⟩ "\n x=\t1 " bytes) ∧
      ∃ span, Scanner.scan .development Sink.collect #[] "=" = .ok ⟨#[⟨⟨"=", .operator⟩, span⟩], .ok 1⟩ := by
  let layout : Layout := ⟨"\n ", [("x", ""), ("=", "\t"), ("1", " ")]⟩
  have h : Scanner.scan .development Sink.collect #[] "x =1" =
      .ok ⟨(tokensFrom .start [['x'], [' '], ['='], ['1']]).toArray, .ok 4⟩ :=
    scan_collect_eq_ok_iff.2 ⟨⟨rfl, by decide, by decide⟩, rfl, rfl⟩
  obtain ⟨hlayouts, hsingle⟩ := layout_independent h
  have hblank : (layout.gaps.all fun gap => gap.toList.all CharClass.isBlank) = true := by decide
  have hsep : layout.Separated := by
    refine ⟨fun gap hg => List.all_eq_true.1 (List.all_eq_true.1 hblank gap hg),
      List.isChain_cons.2 ⟨?_, List.isChain_cons.2 ⟨?_, .singleton _⟩⟩⟩
    · intro _ hnext
      cases hnext
      exact Or.inr (Or.inr ⟨'=', rfl, rfl⟩)
    · intro _ hnext
      cases hnext
      exact Or.inl (by decide)
  obtain ⟨hscan, hsame⟩ := hlayouts layout rfl hsep
  obtain ⟨others, n, hothers⟩ := hscan ⟨by decide, by decide, by decide⟩
  obtain ⟨hpairs, hlisting⟩ := hsame others n hothers
  obtain rfl : n = 6 := (scan_collect_eq_ok_iff.1 hothers).2.2.trans (by decide)
  exact ⟨_, others, h, hothers, hpairs.trans rfl, hlisting, hsingle _ (List.mem_toArray.2 (List.mem_of_getElem? (i := 2) rfl))⟩

end Lexing
