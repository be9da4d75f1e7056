import Lexing.Proofs.Lemmas.Success
import Lexing.Proofs.Theorems.Languages

/-!
# Scans of two texts one behind the other

The scanner carries nothing over a seam but the run that is pending there. So the tokens of two texts one behind the other are
the tokens of the one and then those of the other, unless a run goes over the seam: then the last token of the one and the first
of the other are one token, whose kind is found anew (`pairs_scan_append`).
-/

namespace Lexing.Segmentation

open CharClass

variable {limits : Limits}

/-- Two texts are cut apart where they meet: one of them is empty, or a character at the seam stands alone, or just one of the two
characters at the seam is blank. -/
def CutApart (cs ds : List Char) : Prop :=
  cs = [] ∨ ds = [] ∨ ∃ c d, cs.getLast? = some c ∧ ds.head? = some d ∧
    (standsAlone c ∨ standsAlone d ∨ isBlank c ≠ isBlank d)

theorem joined_eq_false_of_cutApart {cs ds : List Char} (h : CutApart cs ds) :
    ∀ c ∈ cs.getLast?, ∀ d ∈ ds.head?, joined c d = false := by
  rcases h with rfl | rfl | ⟨c, d, hc, hd, h⟩
  · simp
  · simp
  · intro c' hc' d' hd'
    obtain rfl := Option.some.inj (hc.symm.trans hc')
    obtain rfl := Option.some.inj (hd.symm.trans hd')
    rcases h with h | h | h
    · exact joined_eq_false_of_standsAlone_left h
    · exact joined_eq_false_of_standsAlone_right h
    · simp [joined, h]

/-- Where two texts are not cut apart, the characters at the seam join runs of the same sort: both are blank, or both are neither
blank nor stand alone. -/
theorem exists_joins_of_not_cutApart {cs ds : List Char} (h : ¬CutApart cs ds) :
    ∃ blank c d, cs.getLast? = some c ∧ ds.head? = some d ∧ joins blank c ∧ joins blank d := by
  simp only [CutApart, not_or, not_exists, not_and] at h
  obtain ⟨hcs, hds, h⟩ := h
  obtain ⟨c, hc⟩ := Option.ne_none_iff_exists'.1 (mt List.getLast?_eq_none_iff.1 hcs)
  obtain ⟨d, hd⟩ := Option.ne_none_iff_exists'.1 (mt List.head?_eq_none_iff.1 hds)
  obtain ⟨hsc, hsd, hblank⟩ := h c d hc hd
  rw [Bool.not_eq_true] at hsc hsd
  rw [ne_eq, not_not] at hblank
  exact ⟨isBlank c, c, d, hc, hd, joins_isBlank hsc, hblank ▸ joins_isBlank hsd⟩

/-- What is left of a seam when the two texts are not cut apart: one piece runs over it. -/
theorem exists_pieces_of_not_cutApart {cs ds : List Char} (h : ¬CutApart cs ds) :
    ∃ front last first back, pieces cs = front ++ [last] ∧ pieces ds = first :: back ∧
      pieces (cs ++ ds) = front ++ (last ++ first) :: back := by
  obtain ⟨blank, c, d, hc, hd, hjc, hjd⟩ := exists_joins_of_not_cutApart h
  exact exists_pieces_append hc hd (by rwa [joined_eq_joins hjc])

/-- Of two texts that are within the limits one behind the other, each is within them. -/
theorem Within.of_append {cs ds : List Char} (h : Within limits (cs ++ ds)) : Within limits cs ∧ Within limits ds := by
  obtain ⟨hfits, hlength, hcount⟩ := h
  have hcs := (Position.fits_append.1 hfits).1
  have hds := Position.fits_of_fits_append hfits
  by_cases hcut : CutApart cs ds
  · have hpieces := pieces_append (joined_eq_false_of_cutApart hcut)
    rw [hpieces] at hlength hcount
    rw [List.length_append] at hcount
    refine ⟨⟨hcs, fun piece hp => hlength piece (List.mem_append_left _ hp), by omega⟩,
      ⟨hds, fun piece hp => hlength piece (List.mem_append_right _ hp), by omega⟩⟩
  · obtain ⟨front, last, first, back, hfront, hback, hpieces⟩ := exists_pieces_of_not_cutApart hcut
    rw [hpieces] at hlength hcount
    simp only [List.length_append, List.length_cons] at hcount
    have hseam := hlength (last ++ first) (by simp)
    rw [List.length_append] at hseam
    refine ⟨⟨hcs, ?_, by rw [hfront]; simp; omega⟩, ⟨hds, ?_, by rw [hback]; simp; omega⟩⟩
    · intro piece hp
      rw [hfront, List.mem_append, List.mem_singleton] at hp
      rcases hp with hp | rfl
      · exact hlength piece (List.mem_append_left _ hp)
      · omega
    · intro piece hp
      rw [hback, List.mem_cons] at hp
      rcases hp with rfl | hp
      · omega
      · exact hlength piece (by simp [hp])

/-- The texts and kinds of the tokens of pieces do not depend on where the pieces are. -/
theorem pairs_tokensFrom (p : Position) (split : List (List Char)) :
    TokenSequence.pairs ⟨tokensFrom p split⟩ = split.map fun piece => (String.ofList piece, kindOf piece) := by
  induction split generalizing p with
  | nil => rfl
  | cons piece rest ih =>
    have hrest := ih (p.behind piece)
    simp only [TokenSequence.pairs] at hrest ⊢
    rw [tokensFrom, List.map_cons, List.map_cons, hrest]
    rfl

/-- The kind of every piece is what its text is classified as, also that of a blank run. -/
theorem classify_eq_kindOf {piece : List Char} (h : piece ≠ []) :
    Classification.classify (String.ofList piece) = .ok (kindOf piece) := by
  have hne : String.ofList piece ≠ "" := fun he => h (String.ofList_eq_empty_iff.1 he)
  rw [classify_ofList h, kindOf]
  split
  · rename_i hall
    rw [List.all_eq_true] at hall
    have hblank : Classification.Described (String.ofList piece) .blank := by
      rw [Classification.Described, String.toList_ofList]
      exact hall
    rw [Classification.kindOf_of_described hne hblank]
  · rfl

/-- When two texts one behind the other are scanned in full, so is each of them. Where they are cut apart, the tokens are those of
the one and then those of the other. Otherwise both characters at the seam are blank, or neither is and neither stands alone: then
the last token of the one and the first of the other give way to one token, which has the text of both and the kind of that
text. -/
theorem pairs_scan_append {a b : String} {tokens : Array (Located Token)} {count : Nat}
    (h : Scanner.scan limits Sink.collect #[] (a ++ b) = .ok ⟨tokens, .ok count⟩) :
    ∃ left right m n, Scanner.scan limits Sink.collect #[] a = .ok ⟨left, .ok m⟩ ∧
      Scanner.scan limits Sink.collect #[] b = .ok ⟨right, .ok n⟩ ∧
      (CutApart a.toList b.toList → TokenSequence.pairs ⟨tokens.toList⟩ =
        TokenSequence.pairs ⟨left.toList⟩ ++ TokenSequence.pairs ⟨right.toList⟩) ∧
      (¬CutApart a.toList b.toList →
        (∃ blank c d, a.toList.getLast? = some c ∧ b.toList.head? = some d ∧ joins blank c ∧ joins blank d) ∧
        ∃ front last first back kind, TokenSequence.pairs ⟨left.toList⟩ = front ++ [last] ∧
          TokenSequence.pairs ⟨right.toList⟩ = first :: back ∧
          Classification.classify (last.1 ++ first.1) = .ok kind ∧
          TokenSequence.pairs ⟨tokens.toList⟩ = front ++ (last.1 ++ first.1, kind) :: back) := by
  obtain ⟨hwithin, rfl, rfl⟩ := scan_collect_eq_ok_iff.1 h
  rw [String.toList_append] at hwithin
  obtain ⟨ha, hb⟩ := hwithin.of_append
  refine ⟨_, _, _, _, scan_collect_eq_ok_iff.2 ⟨ha, rfl, rfl⟩, scan_collect_eq_ok_iff.2 ⟨hb, rfl, rfl⟩, ?_, ?_⟩
  · intro hcut
    simp only [pairs_tokensFrom, String.toList_append]
    rw [pieces_append (joined_eq_false_of_cutApart hcut), List.map_append]
  · intro hcut
    refine ⟨exists_joins_of_not_cutApart hcut, ?_⟩
    obtain ⟨front, last, first, back, hfront, hback, hpieces⟩ := exists_pieces_of_not_cutApart hcut
    have hlast : last ≠ [] := ne_nil_of_mem_pieces (hfront ▸ List.mem_append_right front List.mem_cons_self)
    have hkind := classify_eq_kindOf (List.append_ne_nil_of_left_ne_nil hlast first)
    simp only [pairs_tokensFrom, String.toList_append, hfront, hback, hpieces, List.map_append, List.map_cons, List.map_nil]
    refine ⟨_, _, _, _, kindOf (last ++ first), rfl, rfl, ?_, ?_⟩
    · rw [← String.ofList_append]
      exact hkind
    · rw [String.ofList_append]

/-- Two names become a keyword: nothing cuts `in` from the `t` behind it. -/
theorem pairs_scan_append_keyword :
    ∃ tokens left right m n, Scanner.scan .development Sink.collect #[] ("x in" ++ "t y") = .ok ⟨tokens, .ok 5⟩ ∧
      Scanner.scan .development Sink.collect #[] "x in" = .ok ⟨left, .ok m⟩ ∧
      Scanner.scan .development Sink.collect #[] "t y" = .ok ⟨right, .ok n⟩ ∧
      TokenSequence.pairs ⟨left.toList⟩ = [("x", .identifier), (" ", .blank), ("in", .identifier)] ∧
      TokenSequence.pairs ⟨right.toList⟩ = [("t", .identifier), (" ", .blank), ("y", .identifier)] ∧
      TokenSequence.pairs ⟨tokens.toList⟩ =
        [("x", .identifier), (" ", .blank), ("int", .keyword), (" ", .blank), ("y", .identifier)] := by
  have h : Scanner.scan .development Sink.collect #[] ("x in" ++ "t y") =
      .ok ⟨(tokensFrom .start [['x'], [' '], ['i', 'n', 't'], [' '], ['y']]).toArray, .ok 5⟩ :=
    scan_collect_eq_ok_iff.2 ⟨⟨rfl, by decide, by decide⟩, rfl, rfl⟩
  obtain ⟨left, right, m, n, hleft, hright, -, hjoin⟩ := pairs_scan_append h
  have hjoined : ¬CutApart "x in".toList "t y".toList := by
    rintro (hnil | hnil | ⟨c, d, hc, hd, hcut⟩)
    · cases hnil
    · cases hnil
    · cases hc
      cases hd
      exact absurd hcut (by decide)
  obtain ⟨-, front, last, first, back, kind, hfront, hback, hkind, hpairs⟩ := hjoin hjoined
  have hl : TokenSequence.pairs ⟨left.toList⟩ = [("x", .identifier), (" ", .blank)] ++ [("in", .identifier)] := by
    obtain ⟨-, rfl, -⟩ := scan_collect_eq_ok_iff.1 hleft
    rfl
  have hr : TokenSequence.pairs ⟨right.toList⟩ = ("t", .identifier) :: [(" ", .blank), ("y", .identifier)] := by
    obtain ⟨-, rfl, -⟩ := scan_collect_eq_ok_iff.1 hright
    rfl
  obtain ⟨rfl, hlast⟩ := List.append_inj' (hl.symm.trans hfront) rfl
  obtain rfl := List.singleton_inj.1 hlast
  obtain ⟨rfl, rfl⟩ := List.cons.inj (hr.symm.trans hback)
  obtain rfl : .keyword = kind := Except.ok.inj hkind
  exact ⟨_, left, right, m, n, h, hleft, hright, hl, hr, hpairs⟩

end Lexing.Segmentation
