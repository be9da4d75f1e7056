import Lexing.Proofs.Lemmas.Success
import Lexing.Proofs.Theorems.Languages

/-!
# Layouts

A layout is a list of texts with blank space in front of all, behind each, and so between them. When the texts are words, pieces
that are not blank, and no two of them run together, the pieces of the layout are the words and the runs of blank space that are
not empty (`Layout.pieces_eq`). So the words can be read back off the layout, whatever the space (`Layout.words_eq`).
-/

namespace Lexing

namespace Segmentation

open CharClass

/-- A piece that is not blank: a character that stands alone, or a run of characters that are neither blank nor stand alone. -/
def IsWord (piece : List Char) : Prop := (∃ c, standsAlone c ∧ piece = [c]) ∨ IsRun false piece

/-- The pieces of a text that are not blank. -/
def words (cs : List Char) : List (List Char) := (pieces cs).filter fun piece => !piece.all isBlank

theorem IsWord.ne_nil {piece : List Char} (h : IsWord piece) : piece ≠ [] := by
  rcases h with ⟨c, _, rfl⟩ | h
  · exact List.cons_ne_nil c []
  · exact h.ne_nil

/-- No character of a word is blank. -/
theorem IsWord.not_isBlank {piece : List Char} (h : IsWord piece) {c : Char} (hc : c ∈ piece) : isBlank c = false := by
  rcases h with ⟨d, hd, rfl⟩ | h
  · rw [List.mem_singleton] at hc
    exact hc ▸ not_isBlank_of_standsAlone hd
  · exact isBlank_of_joins (h.all_join c hc)

theorem IsWord.not_all_isBlank {piece : List Char} (h : IsWord piece) : piece.all isBlank = false := by
  obtain ⟨c, hc⟩ := List.exists_mem_of_ne_nil piece h.ne_nil
  exact List.all_eq_false.2 ⟨c, hc, by simp [h.not_isBlank hc]⟩

/-- The pieces of a text that are not blank are words. -/
theorem isWord_of_mem_words {cs piece : List Char} (h : piece ∈ words cs) : IsWord piece := by
  obtain ⟨hp, hblank⟩ := List.mem_filter.1 h
  rcases (isSplit_pieces cs).sort piece hp with hs | ⟨blank, hr⟩
  · exact Or.inl hs
  · cases blank with
    | false => exact Or.inr hr
    | true =>
      have hall : piece.all isBlank = true := List.all_eq_true.2 fun c hc => isBlank_of_joins (hr.all_join c hc)
      simp [hall] at hblank

/-- A piece is of the blank kind when all its characters are blank. -/
theorem isBlank_kindOf {piece : List Char} (h : piece ≠ []) : (kindOf piece).isBlank = piece.all isBlank := by
  have hne : String.ofList piece ≠ "" := fun he => h (String.ofList_eq_empty_iff.1 he)
  rw [kindOf]
  cases hall : piece.all isBlank with
  | true => rfl
  | false =>
    have hnot : Classification.kindOf (String.ofList piece) ≠ .blank := by
      intro hkind
      have hblank : ∀ c ∈ (String.ofList piece).toList, isBlank c :=
        (Classification.kindOf_eq_iff_language hne .blank).1 hkind
      rw [String.toList_ofList, ← List.all_eq_true, hall] at hblank
      cases hblank
    simp only [Bool.false_eq_true, if_false]
    generalize Classification.kindOf (String.ofList piece) = kind at hnot
    cases kind <;> simp_all [Kind.isBlank]

/-- The significant tokens of a text are those of its words, with their kinds. -/
theorem pairs_significant_tokensFrom (p : Position) (cs : List Char) :
    TokenSequence.pairs ⟨TokenSequence.significant ⟨tokensFrom p (pieces cs)⟩⟩ =
      (words cs).map fun piece => (String.ofList piece, kindOf piece) := by
  have hpieces : ∀ piece ∈ pieces cs, piece ≠ [] := fun _ => ne_nil_of_mem_pieces
  unfold words
  generalize pieces cs = split at hpieces
  induction split generalizing p with
  | nil => rfl
  | cons piece rest ih =>
    have hblank := isBlank_kindOf (hpieces piece List.mem_cons_self)
    have hrest := ih (p.behind piece) fun q hq => hpieces q (List.mem_cons_of_mem piece hq)
    simp only [TokenSequence.pairs, TokenSequence.significant] at hrest ⊢
    rw [tokensFrom, List.filter_cons, List.filter_cons]
    simp only [located, hblank]
    split
    · rw [List.map_cons, List.map_cons, hrest]
    · exact hrest

/-! ## Pieces of blank space and words -/

/-- The pieces of blank space: one, or none if there is no space. -/
def gapPieces (gap : List Char) : List (List Char) := if gap = [] then [] else [gap]

/-- Blank space in front of a character that is not blank is a piece, if it is there. -/
theorem pieces_gap_append {gap cs : List Char} (hgap : ∀ c ∈ gap, isBlank c) (hcs : ∀ c ∈ cs.head?, isBlank c = false) :
    pieces (gap ++ cs) = gapPieces gap ++ pieces cs := by
  by_cases hnil : gap = []
  · simp [hnil, gapPieces]
  · have hrun : IsRun true gap := ⟨hnil, by simpa [joins] using hgap⟩
    rw [pieces_run_append hrun (by simpa [joins] using hcs), gapPieces, if_neg hnil, List.singleton_append]

/-- A word is a piece, when it is a character that stands alone or no character behind it joins it. -/
theorem pieces_word_append {word cs : List Char} (h : IsWord word)
    (hcs : (∃ c, standsAlone c ∧ word = [c]) ∨ ∀ c ∈ cs.head?, joins false c = false) :
    pieces (word ++ cs) = word :: pieces cs := by
  rcases h with ⟨c, hc, rfl⟩ | hrun
  · exact pieces_cons_of_standsAlone hc cs
  · rcases hcs with ⟨c, hc, rfl⟩ | hcs
    · exact pieces_cons_of_standsAlone hc cs
    · exact pieces_run_append hrun hcs

/-- A word by itself is its only piece. -/
theorem pieces_of_mem_pieces {cs piece : List Char} (h : piece ∈ pieces cs) : pieces piece = [piece] := by
  rcases (isSplit_pieces cs).sort piece h with ⟨c, hc, rfl⟩ | ⟨blank, hrun⟩
  · exact pieces_cons_of_standsAlone hc []
  · exact pieces_run hrun

end Segmentation

open CharClass Segmentation

/-- Texts and the blank space around them: the space in front of all, and each text with the space behind it. -/
structure Layout where
  lead : String
  items : List (String × String)

namespace Layout

/-- The texts of a layout. -/
def texts (layout : Layout) : List String := layout.items.map Prod.fst

/-- The blank space of a layout: in front of all texts, between them, and behind all. -/
def gaps (layout : Layout) : List String := layout.lead :: layout.items.map Prod.snd

/-- A layout as one text. -/
def text (layout : Layout) : String := layout.lead ++ String.join (layout.items.map fun item => item.1 ++ item.2)

/-- Whether a text is a single character that stands alone. -/
def IsSingle (text : String) : Prop := ∃ c, standsAlone c ∧ text.toList = [c]

/-- The space of a layout is blank, and two texts have some between them unless one of the two is a character that stands
alone. -/
structure Separated (layout : Layout) : Prop where
  blank : ∀ gap ∈ layout.gaps, ∀ c ∈ gap.toList, isBlank c
  apart : layout.items.IsChain fun a b => a.2 ≠ "" ∨ IsSingle a.1 ∨ IsSingle b.1

variable {layout : Layout}

/-- The characters of items, one behind the other. -/
def chars (items : List (String × String)) : List Char := items.flatMap fun item => item.1.toList ++ item.2.toList

/-- The pieces of items: each text, and the space behind it. -/
def itemPieces (items : List (String × String)) : List (List Char) :=
  items.flatMap fun item => item.1.toList :: gapPieces item.2.toList

theorem itemPieces_cons (item : String × String) (rest : List (String × String)) :
    itemPieces (item :: rest) = item.1.toList :: (gapPieces item.2.toList ++ itemPieces rest) := by
  simp [itemPieces]

theorem Separated.blank_of_mem_items (h : layout.Separated) {item : String × String} (hi : item ∈ layout.items) :
    ∀ c ∈ item.2.toList, isBlank c := h.blank item.2 (List.mem_cons_of_mem _ (List.mem_map_of_mem hi))

theorem toList_text (layout : Layout) : layout.text.toList = layout.lead.toList ++ chars layout.items := by
  obtain ⟨lead, items⟩ := layout
  rw [text, String.toList_append]
  congr 1
  induction items with
  | nil => simp [chars]
  | cons item rest ih =>
    rw [List.map_cons, String.join_cons, String.toList_append, String.toList_append, ih]
    simp [chars]

/-- Items start with a character of the first text. -/
theorem not_isBlank_of_mem_head?_chars {items : List (String × String)} (h : ∀ item ∈ items, IsWord item.1.toList) {c : Char}
    (hc : c ∈ (chars items).head?) : isBlank c = false := by
  cases items with
  | nil => cases hc
  | cons item rest =>
    have hword := h item List.mem_cons_self
    have hhead : (chars (item :: rest)).head? = item.1.toList.head? := by
      simp only [chars, List.flatMap_cons, List.append_assoc]
      exact List.head?_append_of_ne_nil _ hword.ne_nil
    rw [hhead] at hc
    exact hword.not_isBlank (List.mem_of_mem_head? hc)

/-- The pieces of items are the texts and the space behind them. -/
theorem pieces_chars {items : List (String × String)} (hwords : ∀ item ∈ items, IsWord item.1.toList)
    (hblank : ∀ item ∈ items, ∀ c ∈ item.2.toList, isBlank c)
    (hapart : items.IsChain fun a b => a.2 ≠ "" ∨ IsSingle a.1 ∨ IsSingle b.1) :
    pieces (chars items) = itemPieces items := by
  induction items with
  | nil => rfl
  | cons item rest ih =>
    obtain ⟨hnext, hrest⟩ := List.isChain_cons.1 hapart
    have hwords' : ∀ item ∈ rest, IsWord item.1.toList := fun i hi => hwords i (List.mem_cons_of_mem item hi)
    have hgap := hblank item List.mem_cons_self
    have hih := ih hwords' (fun i hi => hblank i (List.mem_cons_of_mem item hi)) hrest
    -- Behind the text comes its space, or else the next text, which is then a character that stands alone if the text is none.
    have hbehind : (∃ c, standsAlone c ∧ item.1.toList = [c]) ∨
        ∀ c ∈ (item.2.toList ++ chars rest).head?, joins false c = false := by
      by_cases hnil : item.2.toList = []
      · cases rest with
        | nil => exact Or.inr (by simp [hnil, chars])
        | cons next more =>
          rcases hnext next rfl with hne | hsingle | ⟨d, hd, hsingle⟩
          · exact absurd (String.toList_eq_nil_iff.1 hnil) hne
          · exact Or.inl hsingle
          · right
            intro c hc
            have hcd : c = d := by
              simpa [hnil, chars, hsingle, eq_comm] using hc
            simp [joins, hcd, hd]
      · right
        intro c hc
        rw [List.head?_append_of_ne_nil _ hnil] at hc
        simp [joins, hgap c (List.mem_of_mem_head? hc)]
    have hchars : chars (item :: rest) = item.1.toList ++ (item.2.toList ++ chars rest) := by
      simp [chars]
    rw [hchars, pieces_word_append (hwords item List.mem_cons_self) hbehind,
      pieces_gap_append hgap fun c hc => not_isBlank_of_mem_head?_chars hwords' hc, hih, itemPieces_cons]

/-- The pieces of a layout of words are the words and the space that is there. -/
theorem Separated.pieces_eq (h : layout.Separated) (hwords : ∀ text ∈ layout.texts, IsWord text.toList) :
    pieces layout.text.toList = gapPieces layout.lead.toList ++ itemPieces layout.items := by
  have hwords' : ∀ item ∈ layout.items, IsWord item.1.toList := fun item hi => hwords item.1 (List.mem_map_of_mem hi)
  rw [toList_text, pieces_gap_append (h.blank layout.lead List.mem_cons_self)
    fun c hc => not_isBlank_of_mem_head?_chars hwords' hc, pieces_chars hwords' (fun _ => h.blank_of_mem_items) h.apart]

theorem filter_gapPieces {gap : List Char} (h : ∀ c ∈ gap, isBlank c) :
    (gapPieces gap).filter (fun piece => !piece.all isBlank) = [] := by
  unfold gapPieces
  split
  · rfl
  · simpa using h

/-- The words of a layout are its texts, whatever the space between them. -/
theorem Separated.words_eq (h : layout.Separated) (hwords : ∀ text ∈ layout.texts, IsWord text.toList) :
    words layout.text.toList = layout.texts.map String.toList := by
  rw [words, h.pieces_eq hwords, List.filter_append, filter_gapPieces (h.blank layout.lead List.mem_cons_self),
    List.nil_append]
  have hblank : ∀ item ∈ layout.items, ∀ c ∈ item.2.toList, isBlank c := fun _ => h.blank_of_mem_items
  have hitems : ∀ item ∈ layout.items, item.1.toList.all isBlank = false := fun item hi =>
    (hwords item.1 (List.mem_map_of_mem hi)).not_all_isBlank
  unfold texts
  generalize layout.items = items at hblank hitems
  induction items with
  | nil => rfl
  | cons item rest ih =>
    have hih := ih (fun i hi => hblank i (List.mem_cons_of_mem item hi)) fun i hi => hitems i (List.mem_cons_of_mem item hi)
    rw [itemPieces_cons, List.filter_cons, if_pos (by simp [hitems item List.mem_cons_self]), List.filter_append,
      filter_gapPieces (hblank item List.mem_cons_self), List.nil_append, hih]
    rfl

theorem length_gapPieces (gap : String) : (gapPieces gap.toList).length = if decide (gap ≠ "") then 1 else 0 := by
  by_cases hnil : gap = ""
  · simp [gapPieces, hnil]
  · have hne : gap.toList ≠ [] := fun h => hnil (String.toList_eq_nil_iff.1 h)
    simp [gapPieces, hne, hnil]

theorem length_itemPieces (items : List (String × String)) :
    (itemPieces items).length = items.length + (items.map Prod.snd).countP (· ≠ "") := by
  induction items with
  | nil => rfl
  | cons item rest ih =>
    rw [itemPieces_cons, List.length_cons, List.length_append, length_gapPieces, ih, List.map_cons, List.countP_cons,
      List.length_cons]
    omega

/-- A layout has a piece for each text, and for the space where there is some. -/
theorem Separated.length_pieces (h : layout.Separated) (hwords : ∀ text ∈ layout.texts, IsWord text.toList) :
    (pieces layout.text.toList).length = layout.texts.length + layout.gaps.countP (· ≠ "") := by
  rw [h.pieces_eq hwords, List.length_append, length_gapPieces, length_itemPieces, texts, List.length_map, gaps,
    List.countP_cons]
  omega

/-- The pieces of a layout are texts and space of it. -/
theorem Separated.mem_of_mem_pieces (h : layout.Separated) (hwords : ∀ text ∈ layout.texts, IsWord text.toList)
    {piece : List Char} (hp : piece ∈ pieces layout.text.toList) : String.ofList piece ∈ layout.texts ++ layout.gaps := by
  have hgap : ∀ gap : String, piece ∈ gapPieces gap.toList → String.ofList piece = gap := by
    intro gap hg
    unfold gapPieces at hg
    split at hg
    · cases hg
    · rw [List.mem_singleton.1 hg, String.ofList_toList]
  rw [h.pieces_eq hwords, List.mem_append] at hp
  rw [List.mem_append]
  rcases hp with hp | hp
  · exact Or.inr (List.mem_cons.2 (Or.inl (hgap _ hp)))
  · obtain ⟨item, hi, hp⟩ := List.mem_flatMap.1 hp
    rcases List.mem_cons.1 hp with rfl | hp
    · exact Or.inl (List.mem_map.2 ⟨item, hi, String.ofList_toList.symm⟩)
    · exact Or.inr (List.mem_cons_of_mem _ (List.mem_map.2 ⟨item, hi, (hgap _ hp).symm⟩))

end Layout

end Lexing
