import Lexing.Proofs.Lemmas.ListingReading

/-!
# Listings can be read back

A listing has a line for each token that it shows, and says of the token what can be read off again. For a listing for a person that
is no matter of its format alone, which quotes nothing: `plain_listing_reads_back` rests on what the scanner lets into a token. Each
line of JSON stands for itself, and holds the place of the token, too (`json_listing_reads_back`). When blank runs are shown, the
texts that are read make up the source, so no two sources have the same listing.
-/

namespace Lexing

open Segmentation

variable {limits : Limits} {source : String} {tokens : Array (Located Token)} {count : Nat}

/-- The texts of the tokens of a text make it up. -/
theorem reconstruct_pieces (source : String) :
    TokenSequence.reconstruct ⟨tokensFrom .start (pieces source.toList)⟩ = source := by
  rw [reconstruct_tokensFrom, flatten_pieces, String.ofList_toList]

/-- Tokens of the same texts make up the same. -/
theorem reconstruct_eq_of_pairs_eq {tokens others : List (Located Token)}
    (h : TokenSequence.pairs ⟨tokens⟩ = TokenSequence.pairs ⟨others⟩) :
    TokenSequence.reconstruct ⟨tokens⟩ = TokenSequence.reconstruct ⟨others⟩ := by
  have hpairs : ∀ tokens : List (Located Token), (tokens.flatMap fun token => token.value.text.toList) =
      (TokenSequence.pairs ⟨tokens⟩).flatMap fun pair => pair.1.toList := by
    intro tokens
    rw [TokenSequence.pairs, List.flatMap_map]
  rw [← String.toList_inj, toList_reconstruct, toList_reconstruct, hpairs, hpairs, h]

/-- When a text is scanned in full, its listing for a person with all blank runs, with or without places, has a line feed for each
token, and reading it gives back the texts and kinds of the tokens in order. The texts make up the source, and no other source has
this listing, under any limits and with places or without. -/
theorem plain_listing_reads_back (h : Scanner.scan limits Sink.collect #[] source = .ok ⟨tokens, .ok count⟩)
    (positions summary : Bool) :
    ∃ text : String, IsListing limits ⟨.plain, true, positions, summary⟩ source text.toUTF8 ∧
      text.toList.count '\n' = tokens.size ∧
      Listing.readPlain? text = some (TokenSequence.pairs ⟨tokens.toList⟩) ∧
      TokenSequence.reconstruct ⟨tokens.toList⟩ = source ∧
      ∀ limits' positions' summary' other, IsListing limits' ⟨.plain, true, positions', summary'⟩ other text.toUTF8 →
        other = source := by
  obtain ⟨hwithin, rfl, rfl⟩ := scan_collect_eq_ok_iff.1 h
  have htrue := trueToKind_tokensFrom .start source.toList
  have hread := Listing.readPlain?_lines true positions summary htrue
  have hcount := Listing.count_lineFeed_lines ⟨.plain, true, positions, summary⟩ htrue
  rw [Listing.filter_shows, if_pos rfl] at hread hcount
  have hsource := reconstruct_pieces source
  refine ⟨_, isListing_iff.2 ⟨hwithin, rfl⟩, hcount, hread, hsource, ?_⟩
  intro limits' positions' summary' other hother
  obtain ⟨-, hbytes⟩ := isListing_iff.1 hother
  have hread' := Listing.readPlain?_lines true positions' summary' (trueToKind_tokensFrom .start other.toList)
  rw [Listing.filter_shows, if_pos rfl, ← String.toByteArray_inj.1 hbytes, hread] at hread'
  rw [← reconstruct_pieces other, ← reconstruct_eq_of_pairs_eq (Option.some.inj hread'), hsource]

/-- A text with a backslash in front of an `n` is shown as a line feed is, and is told apart from it by its kind. -/
theorem plain_listing_reads_back_backslash :
    ∃ tokens text, Scanner.scan .development Sink.collect #[] "a\\n\n- b" = .ok ⟨tokens, .ok 5⟩ ∧
      IsListing .development ⟨.plain, true, true, false⟩ "a\\n\n- b" text.toUTF8 ∧ text.toList.count '\n' = 5 ∧
      Listing.readPlain? text =
        some [("a\\n", .identifier), ("\n", .blank), ("-", .integer), (" ", .blank), ("b", .identifier)] ∧
      ∀ other, IsListing .development ⟨.plain, true, false, false⟩ other text.toUTF8 → other = "a\\n\n- b" := by
  have h : Scanner.scan .development Sink.collect #[] "a\\n\n- b" =
      .ok ⟨(tokensFrom .start [['a', '\\', 'n'], ['\n'], ['-'], [' '], ['b']]).toArray, .ok 5⟩ :=
    scan_collect_eq_ok_iff.2 ⟨⟨rfl, by decide, by decide⟩, rfl, rfl⟩
  obtain ⟨text, hlisting, hcount, hread, -, honly⟩ := plain_listing_reads_back h true false
  exact ⟨_, text, h, hlisting, hcount, hread.trans rfl, fun other => honly .development false false other⟩

/-- When a text is scanned in full, its listing of JSON has a line for each token that is not a blank run, or for each token if blank
runs are wanted. No line has a control character, and each parses as a JSON object that holds the text of the token, the name of its
kind, and the line, column and offset it starts at. With blank runs the texts make up the source. -/
theorem json_listing_reads_back (h : Scanner.scan limits Sink.collect #[] source = .ok ⟨tokens, .ok count⟩)
    (blanks positions summary : Bool) :
    ∃ text lines, IsListing limits ⟨.json, blanks, positions, summary⟩ source text.toUTF8 ∧
      Text.lines? text = some lines ∧ (∀ line ∈ lines, ∀ c ∈ line, 0x20 ≤ c.toNat) ∧
      ∃ entries, lines.mapM Listing.readObject? = some entries ∧
        entries = (if blanks then tokens.toList else TokenSequence.significant ⟨tokens.toList⟩).map Listing.Entry.ofToken ∧
        (blanks = true → String.join (entries.map fun entry => entry.text) = source) := by
  obtain ⟨hwithin, rfl, rfl⟩ := scan_collect_eq_ok_iff.1 h
  have htrue := trueToKind_tokensFrom .start source.toList
  have hlines := Listing.lines?_lines ⟨.json, blanks, positions, summary⟩ htrue
  have hread := Listing.readEntries?_lines blanks positions summary htrue
  rw [Listing.readEntries?, hlines, Option.bind_eq_bind, Option.bind_some] at hread
  refine ⟨_, _, isListing_iff.2 ⟨hwithin, rfl⟩, hlines, ?_, _, hread, ?_, ?_⟩
  · intro line hl c hc
    obtain ⟨token, -, rfl⟩ := List.mem_map.1 hl
    exact Json.printable_of_mem_render _ hc
  · rw [Listing.filter_shows]
  · rintro rfl
    have hsource := reconstruct_pieces source
    rw [← String.toList_inj, toList_reconstruct] at hsource
    rw [Listing.filter_shows, if_pos rfl, ← String.toList_inj]
    simpa [String.toList_join, List.flatMap_map, Listing.Entry.ofToken] using hsource

/-- A quotation mark, a backslash and a control character, all in one token, and a letter of two bytes. -/
theorem json_listing_reads_back_control :
    ∃ tokens text lines, Scanner.scan .development Sink.collect #[] "\"\\\x01 é" = .ok ⟨tokens, .ok 3⟩ ∧
      IsListing .development ⟨.json, true, false, false⟩ "\"\\\x01 é" text.toUTF8 ∧ Text.lines? text = some lines ∧
      (∀ line ∈ lines, ∀ c ∈ line, 0x20 ≤ c.toNat) ∧
      lines.mapM Listing.readObject? = some
        [ ⟨"\"\\\x01", "Invalid Identifier", 1, 1, 0⟩, ⟨" ", "Whitespace", 1, 4, 3⟩, ⟨"é", "Invalid Identifier", 1, 5, 4⟩ ] := by
  have h : Scanner.scan .development Sink.collect #[] "\"\\\x01 é" =
      .ok ⟨(tokensFrom .start [['"', '\\', '\x01'], [' '], ['é']]).toArray, .ok 3⟩ :=
    scan_collect_eq_ok_iff.2 ⟨⟨rfl, by decide, by decide⟩, rfl, rfl⟩
  obtain ⟨text, lines, hlisting, hlines, hprintable, entries, hread, hentries, -⟩ := json_listing_reads_back h true false false
  exact ⟨_, text, lines, h, hlisting, hlines, hprintable, hread.trans (hentries ▸ rfl)⟩

end Lexing
