import Lexing.Proofs.Lemmas.Lookahead

/-!
# No character is looked at ahead

A token is delivered as soon as the characters read so far say that it ends, and only the last one can be open: a run that more
characters may join. So what a scanner has delivered behind a text is all its tokens or all but the last, which the scanner then
holds as its run, and nothing that follows can change that (`delivered_without_lookahead`).
-/

namespace Lexing.Scanner

open CharClass Segmentation

variable {limits : Limits}

/-- What a scanner has delivered behind a text that has some tokens, and what it holds back. -/
structure Behind (text : String) (tokens : List (Located Token)) (scanner : Scanner) (delivered rest : List (Located Token)) :
    Prop where
  tokens_eq : tokens = delivered ++ rest
  /-- Behind no character, or one that stands alone, nothing is held back. -/
  idle : (∀ c ∈ text.toList.getLast?, standsAlone c) → rest = [] ∧ scanner.pending = none
  /-- Behind any other character it is the last token, and the pending run is its text with its start. -/
  inRun : ∀ c ∈ text.toList.getLast?, standsAlone c = false → ∃ last, rest = [last] ∧
    scanner.pending = some ⟨last.value.text, last.value.length, isBlank c, last.span.start⟩
  position_eq : Position.start.advanceText text = .ok scanner.position
  emitted_eq : scanner.emitted = delivered.length

/-- The characters of a text that can be scanned in full are fed to a fresh scanner. Then a sink that takes everything has got all
tokens of the text, or all but the last one when the text ends in a run, which is pending. To finish there hands out just what is held
back, to that sink or to another. And whatever text follows, the tokens delivered by then are the first ones of the whole, also when
the whole cannot be scanned in full. -/
theorem delivered_without_lookahead {text : String} {tokens : Array (Located Token)} {count : Nat}
    (h : scan limits Sink.collect #[] text = .ok ⟨tokens, .ok count⟩) :
    ∃ scanner delivered rest, Behind text tokens.toList scanner delivered rest ∧
      (∀ {σ : Type} (accept : Sink σ), accept.TakesAll → ∀ state,
        feedAll limits accept .fresh state text.toList = .ok ⟨scanner, (accept.offer state delivered).1, none⟩ ∧
          finish limits accept scanner state = .ok ⟨(accept.offer state rest).1, .ok count⟩) ∧
      ∀ following outcome, scan limits Sink.collect #[] (text ++ following) = .ok outcome →
        delivered <+: outcome.sink.toList := by
  obtain ⟨hwithin, rfl, rfl⟩ := scan_collect_eq_ok_iff.1 h
  obtain ⟨scanner, delivered, hmoves, hstands⟩ := exists_stands hwithin
  obtain ⟨rest, htokens, hidle, hinRun, hfinish⟩ := hstands.exists_rest hwithin
  have hposition : Position.start.advanceText text = .ok scanner.position := by
    rw [hstands.position_eq]
    exact hwithin.fits
  refine ⟨scanner, delivered, rest, ⟨htokens, hidle, hinRun, hposition, hstands.emitted_eq⟩, ?_, ?_⟩
  · exact fun accept haccept state => ⟨hmoves accept haccept state, hfinish accept haccept state⟩
  · intro following outcome hscan
    have hfed : feedAll limits Sink.collect .fresh #[] text.toList = .ok ⟨scanner, delivered.toArray, none⟩ := by
      rw [hmoves Sink.collect Sink.takesAll_collect, Sink.offer_collect]
      simp
    rw [scan_eq_complete, String.toList_append, complete_append hfed] at hscan
    exact hstands.prefix_of_complete hwithin hscan

/-- Behind `i+ in` the scanner has delivered three tokens and holds `in`. Whatever follows, also a `t` that makes a keyword of it, these
are the first three. -/
theorem delivered_without_lookahead_in_run :
    scan .development Sink.collect #[] "i+ in" =
        .ok ⟨(tokensFrom .start [['i'], ['+'], [' '], ['i', 'n']]).toArray, .ok 4⟩ ∧
      ∃ scanner delivered last, delivered.map (fun token => token.value.text) = ["i", "+", " "] ∧
        scanner.pending = some ⟨"in", 2, false, ⟨3, 1, 4⟩⟩ ∧
        feedAll .development Sink.collect .fresh #[] "i+ in".toList = .ok ⟨scanner, delivered.toArray, none⟩ ∧
        finish .development Sink.collect scanner #[] = .ok ⟨#[last], .ok 4⟩ ∧ last.value = ⟨"in", .identifier⟩ ∧
        ∀ following outcome, scan .development Sink.collect #[] ("i+ in" ++ following) = .ok outcome →
          delivered <+: outcome.sink.toList := by
  have h : scan .development Sink.collect #[] "i+ in" =
      .ok ⟨(tokensFrom .start [['i'], ['+'], [' '], ['i', 'n']]).toArray, .ok 4⟩ :=
    scan_collect_eq_ok_iff.2 ⟨⟨rfl, by decide, by decide⟩, rfl, rfl⟩
  obtain ⟨scanner, delivered, rest, hbehind, hfeed, hprefix⟩ := delivered_without_lookahead h
  obtain ⟨hfed, hfinish⟩ := hfeed Sink.collect Sink.takesAll_collect #[]
  obtain ⟨last, rfl, hpending⟩ := hbehind.inRun 'n' rfl rfl
  obtain ⟨rfl, hlast⟩ := List.append_inj' (show tokensFrom .start [['i'], ['+'], [' ']] ++
    tokensFrom ⟨3, 1, 4⟩ [['i', 'n']] = delivered ++ [last] from hbehind.tokens_eq) rfl
  obtain rfl := List.singleton_inj.1 hlast
  rw [Sink.offer_collect] at hfed hfinish
  exact ⟨h, scanner, _, _, rfl, hpending, by simpa using hfed, hfinish, rfl, hprefix⟩

end Lexing.Scanner
