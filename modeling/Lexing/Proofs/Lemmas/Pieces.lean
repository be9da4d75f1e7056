import Lexing.Segmentation
import Mathlib.Data.List.SplitBy

/-!
# Pieces of a text

`IsSplit` says without an algorithm how a text falls into pieces: the pieces are the text, each is one character that stands
alone or a run, and two neighbouring runs are of different sorts, so that each run is as long as it can be. A text has exactly
one such split, `Segmentation.pieces` (`isSplit_iff`). The equations of `pieces` follow it from the front of the text: a
character that stands alone is a piece, and so is a run in front of a character that does not join it. The pieces of two texts
one behind the other are those of the two, but for the one piece that may run over the seam (`pieces_append`,
`exists_pieces_append`).
-/

namespace Lexing

namespace CharClass

/-- Whether a character joins a run: of blank characters, or of characters that are neither blank nor stand alone. -/
def joins (blank : Bool) (c : Char) : Bool :=
  if blank then isBlank c else !isBlank c && !standsAlone c

theorem not_standsAlone_of_joins {blank : Bool} {c : Char} (h : joins blank c) : standsAlone c = false := by
  cases blank with
  | true => exact not_standsAlone_of_isBlank (by simpa [joins] using h)
  | false =>
    simp only [joins, Bool.false_eq_true, if_false, Bool.and_eq_true, Bool.not_eq_true'] at h
    exact h.2

/-- A character that stands alone is not blank. -/
theorem not_isBlank_of_standsAlone {c : Char} (h : standsAlone c) : isBlank c = false := by
  cases hb : isBlank c with
  | false => rfl
  | true => rw [not_standsAlone_of_isBlank hb] at h; exact absurd h (by decide)

theorem isBlank_of_joins {blank : Bool} {c : Char} (h : joins blank c) : isBlank c = blank := by
  cases blank with
  | true => simpa [joins] using h
  | false =>
    simp only [joins, Bool.false_eq_true, if_false, Bool.and_eq_true, Bool.not_eq_true'] at h
    exact h.1

/-- A character that does not stand alone joins the runs of its own sort. -/
theorem joins_isBlank {c : Char} (h : standsAlone c = false) : joins (isBlank c) c := by
  cases hb : isBlank c <;> simp [joins, hb, h]

/-- No character joins runs of both sorts. -/
theorem eq_of_joins {a b : Bool} {c : Char} (ha : joins a c) (hb : joins b c) : a = b := by
  rw [← isBlank_of_joins ha, ← isBlank_of_joins hb]

end CharClass

namespace Segmentation

open CharClass

/-- A run of blank characters, or of characters that are neither blank nor stand alone. -/
structure IsRun (blank : Bool) (piece : List Char) : Prop where
  ne_nil : piece ≠ []
  all_join : ∀ c ∈ piece, joins blank c

/-- A list of pieces splits a text: together they are the text, each is one character that stands alone or a run, and each run
is as long as it can be, since no neighbour is a run of its sort. -/
structure IsSplit (split : List (List Char)) (cs : List Char) : Prop where
  flatten_eq : split.flatten = cs
  sort : ∀ piece ∈ split, (∃ c, standsAlone c ∧ piece = [c]) ∨ ∃ blank, IsRun blank piece
  maximal : split.IsChain fun a b => ¬∃ blank, IsRun blank a ∧ IsRun blank b

/-! ## Neighbouring characters -/

/-- A character of a run is joined to exactly those that join the run. -/
theorem joined_eq_joins {blank : Bool} {a b : Char} (h : joins blank a) : joined a b = joins blank b := by
  have ha := not_standsAlone_of_joins h
  have hs := isBlank_of_joins h
  cases blank with
  | true =>
    cases hb : isBlank b with
    | true => simp [joined, joins, ha, hs, hb, not_standsAlone_of_isBlank hb]
    | false => simp [joined, joins, hs, hb]
  | false => cases hb : isBlank b <;> simp [joined, joins, ha, hs, hb]

theorem joined_eq_false_of_standsAlone_left {a b : Char} (h : standsAlone a) : joined a b = false := by
  simp [joined, h]

theorem joined_eq_false_of_standsAlone_right {a b : Char} (h : standsAlone b) : joined a b = false := by
  simp [joined, h]

/-- The characters of a run are joined one to the next. -/
theorem IsRun.isChain {blank : Bool} {piece : List Char} (h : IsRun blank piece) :
    piece.IsChain fun a b => joined a b := by
  apply List.Pairwise.isChain
  refine List.pairwise_of_forall_mem_list ?_
  intro a ha b hb
  rw [joined_eq_joins (h.all_join a ha)]
  exact h.all_join b hb

/-- Characters that are joined one to the next are a run, unless the first stands alone: then there is no second. -/
theorem sort_of_isChain {c : Char} {cs : List Char} (h : (c :: cs).IsChain fun a b => joined a b) :
    (standsAlone c ∧ cs = []) ∨ IsRun (isBlank c) (c :: cs) := by
  cases hc : standsAlone c with
  | true =>
    left
    refine ⟨rfl, ?_⟩
    cases cs with
    | nil => rfl
    | cons d ds =>
      have := (List.isChain_cons_cons.1 h).1
      rw [joined_eq_false_of_standsAlone_left hc] at this
      exact absurd this (by decide)
  | false =>
    right
    refine ⟨List.cons_ne_nil c cs, ?_⟩
    have hj := joins_isBlank hc
    -- Along the chain the sort of the first character is handed on from each character to the next.
    generalize isBlank c = blank at hj ⊢
    clear hc
    induction cs generalizing c with
    | nil =>
      intro d hd
      rw [List.mem_singleton] at hd
      exact hd ▸ hj
    | cons d ds ih =>
      obtain ⟨hcd, htail⟩ := List.isChain_cons_cons.1 h
      rw [joined_eq_joins hj] at hcd
      intro e he
      rcases List.mem_cons.1 he with rfl | he
      · exact hj
      · exact ih htail hcd e he

/-! ## The one split of a text -/

theorem isSplit_pieces (cs : List Char) : IsSplit (pieces cs) cs := by
  refine ⟨List.flatten_splitBy joined cs, ?_, ?_⟩
  · intro piece hp
    have hc := List.isChain_of_mem_splitBy hp
    cases piece with
    | nil => exact absurd hp (List.nil_notMem_splitBy joined cs)
    | cons c rest =>
      rcases sort_of_isChain hc with ⟨h, rfl⟩ | h
      · exact Or.inl ⟨c, h, rfl⟩
      · exact Or.inr ⟨_, h⟩
  · refine (List.isChain_getLast_head_splitBy joined cs).imp ?_
    rintro a b ⟨ha, hb, h⟩ ⟨blank, hra, hrb⟩
    rw [joined_eq_joins (hra.all_join _ (List.getLast_mem ha)), hrb.all_join _ (List.head_mem hb)] at h
    exact absurd h (by decide)

/-- A text has one split, and `pieces` finds it. -/
theorem isSplit_iff {split : List (List Char)} {cs : List Char} : IsSplit split cs ↔ split = pieces cs := by
  constructor
  · intro h
    refine (List.splitBy_eq_iff.2 ⟨h.flatten_eq.symm, ?_, ?_, ?_⟩).symm
    · intro hn
      rcases h.sort [] hn with ⟨c, _, hc⟩ | ⟨blank, hr⟩
      · exact absurd hc (List.cons_ne_nil c []).symm
      · exact hr.ne_nil rfl
    · intro piece hp
      rcases h.sort piece hp with ⟨c, _, rfl⟩ | ⟨blank, hr⟩
      · exact List.isChain_singleton c
      · exact hr.isChain
    · refine h.maximal.imp_of_mem_imp ?_
      intro a b ha hb hmax
      rcases h.sort a ha with ⟨c, hc, rfl⟩ | ⟨blank, hra⟩
      · rcases h.sort b hb with ⟨d, _, rfl⟩ | ⟨_, hrb⟩
        · exact ⟨List.cons_ne_nil c [], List.cons_ne_nil d [], joined_eq_false_of_standsAlone_left hc⟩
        · exact ⟨List.cons_ne_nil c [], hrb.ne_nil, joined_eq_false_of_standsAlone_left hc⟩
      · rcases h.sort b hb with ⟨d, hd, rfl⟩ | ⟨blank', hrb⟩
        · exact ⟨hra.ne_nil, List.cons_ne_nil d [], joined_eq_false_of_standsAlone_right hd⟩
        · refine ⟨hra.ne_nil, hrb.ne_nil, ?_⟩
          have hlast := hra.all_join _ (List.getLast_mem hra.ne_nil)
          have hhead := hrb.all_join _ (List.head_mem hrb.ne_nil)
          rw [joined_eq_joins hlast]
          cases hj : joins blank (b.head hrb.ne_nil) with
          | false => rfl
          | true => exact absurd ⟨blank, hra, eq_of_joins hhead hj ▸ hrb⟩ hmax
  · rintro rfl
    exact isSplit_pieces cs

theorem flatten_pieces (cs : List Char) : (pieces cs).flatten = cs := (isSplit_pieces cs).flatten_eq

theorem ne_nil_of_mem_pieces {cs piece : List Char} (h : piece ∈ pieces cs) : piece ≠ [] :=
  List.ne_nil_of_mem_splitBy h

/-! ## Pieces from the front -/

@[simp] theorem pieces_nil : pieces [] = [] := rfl

/-- A character that stands alone is a piece. -/
theorem pieces_cons_of_standsAlone {c : Char} (h : standsAlone c) (cs : List Char) :
    pieces (c :: cs) = [c] :: pieces cs := by
  have hsplit : pieces ([c] ++ cs) = pieces [c] ++ pieces cs := by
    apply List.splitBy_append
    intro x hx y _
    rw [List.getLast?_singleton, Option.mem_some_iff] at hx
    rw [← hx, joined_eq_false_of_standsAlone_left h]
  exact hsplit

/-- A run in front of a character that does not join it is a piece. -/
theorem pieces_run_append {blank : Bool} {run : List Char} (h : IsRun blank run) {cs : List Char}
    (hc : ∀ c ∈ cs.head?, joins blank c = false) : pieces (run ++ cs) = run :: pieces cs := by
  have hsplit : pieces (run ++ cs) = pieces run ++ pieces cs := by
    apply List.splitBy_append
    intro x hx y hy
    rw [joined_eq_joins (h.all_join x (List.mem_of_mem_getLast? hx)), hc y hy]
  have hrun : pieces run = [run] := List.splitBy_of_isChain h.ne_nil h.isChain
  rw [hsplit, hrun, List.singleton_append]

theorem pieces_run {blank : Bool} {run : List Char} (h : IsRun blank run) : pieces run = [run] := by
  have hrun : pieces (run ++ []) = run :: pieces [] := pieces_run_append h (by simp)
  rwa [List.append_nil] at hrun

theorem IsRun.snoc {blank : Bool} {run : List Char} (h : IsRun blank run) {c : Char} (hc : joins blank c) :
    IsRun blank (run ++ [c]) := by
  refine ⟨by simp, ?_⟩
  intro d hd
  rcases List.mem_append.1 hd with hd | hd
  · exact h.all_join d hd
  · exact List.mem_singleton.1 hd ▸ hc

theorem isRun_singleton {blank : Bool} {c : Char} (hc : joins blank c) : IsRun blank [c] :=
  ⟨List.cons_ne_nil c [], fun _ hd => List.mem_singleton.1 hd ▸ hc⟩

/-- The first piece of a text that starts with a run is that run or a longer one. -/
theorem exists_pieces_run_append {blank : Bool} (cs : List Char) {run : List Char} (h : IsRun blank run) :
    ∃ more rest, pieces (run ++ cs) = (run ++ more) :: rest := by
  induction cs generalizing run with
  | nil => exact ⟨[], [], by simpa using pieces_run h⟩
  | cons c cs ih =>
    cases hj : joins blank c with
    | false =>
      refine ⟨[], pieces (c :: cs), ?_⟩
      rw [List.append_nil]
      exact pieces_run_append h (by simpa using hj)
    | true =>
      obtain ⟨more, rest, hp⟩ := ih (h.snoc hj)
      exact ⟨c :: more, rest, by simpa using hp⟩

/-! ## Pieces of two texts -/

/-- Where two texts are not joined, the pieces are those of the one and then those of the other. -/
theorem pieces_append {cs ds : List Char} (h : ∀ c ∈ cs.getLast?, ∀ d ∈ ds.head?, joined c d = false) :
    pieces (cs ++ ds) = pieces cs ++ pieces ds := List.splitBy_append h

/-- The last piece of a text ends as the text. -/
theorem exists_last_piece {cs : List Char} {c : Char} (h : cs.getLast? = some c) :
    ∃ front last, pieces cs = front ++ [last] ∧ last.getLast? = some c := by
  have hflat := flatten_pieces cs
  rcases List.eq_nil_or_concat (pieces cs) with hnil | ⟨front, last, hcs⟩
  · rw [← hflat, hnil] at h
    cases h
  · rw [List.concat_eq_append] at hcs
    have hlast : last ≠ [] := ne_nil_of_mem_pieces (hcs ▸ List.mem_append_right front List.mem_cons_self)
    rw [hcs, List.flatten_concat] at hflat
    refine ⟨front, last, hcs, ?_⟩
    rw [← h, ← hflat, List.getLast?_append_of_ne_nil _ hlast]

/-- The first piece of a text starts as the text. -/
theorem exists_first_piece {cs : List Char} {c : Char} (h : cs.head? = some c) :
    ∃ first back, pieces cs = first :: back ∧ first.head? = some c := by
  have hflat := flatten_pieces cs
  rcases hcs : pieces cs with _ | ⟨first, back⟩
  · rw [← hflat, hcs] at h
    cases h
  · have hfirst : first ≠ [] := ne_nil_of_mem_pieces (hcs ▸ List.mem_cons_self)
    rw [hcs, List.flatten_cons] at hflat
    refine ⟨first, back, rfl, ?_⟩
    rw [← h, ← hflat, List.head?_append_of_ne_nil _ hfirst]

/-- Where two texts are joined, the last piece of the one and the first piece of the other are one piece. -/
theorem exists_pieces_append {cs ds : List Char} {c d : Char} (hc : cs.getLast? = some c) (hd : ds.head? = some d)
    (h : joined c d) :
    ∃ front last first back, pieces cs = front ++ [last] ∧ pieces ds = first :: back ∧
      pieces (cs ++ ds) = front ++ (last ++ first) :: back := by
  obtain ⟨front, last, hcs, hlast⟩ := exists_last_piece hc
  obtain ⟨first, back, hds, hfirst⟩ := exists_first_piece hd
  refine ⟨front, last, first, back, hcs, hds, ?_⟩
  obtain ⟨hflat, hnil, hchain, hseams⟩ := List.splitBy_eq_iff.1 hcs
  obtain ⟨hflat', hnil', hchain', hseams'⟩ := List.splitBy_eq_iff.1 hds
  obtain ⟨hfront, -, hbefore⟩ := List.isChain_append.1 hseams
  obtain ⟨hbehind, hback⟩ := List.isChain_cons.1 hseams'
  have hne : last ≠ [] := by
    rintro rfl
    cases hlast
  have hne' : first ≠ [] := by
    rintro rfl
    cases hfirst
  -- The new piece starts as the last piece of the one text and ends as the first piece of the other, so its seams are theirs.
  refine List.splitBy_eq_iff.2 ⟨?_, ?_, ?_, List.isChain_append.2 ⟨hfront, List.isChain_cons.2 ⟨?_, hback⟩, ?_⟩⟩
  · rw [hflat, hflat']
    simp
  · rw [List.mem_append, List.mem_cons, not_or] at *
    simp_all
  · intro piece hp
    rcases List.mem_append.1 hp with hp | hp
    · exact hchain piece (List.mem_append_left _ hp)
    · rcases List.mem_cons.1 hp with rfl | hp
      · refine List.isChain_append.2 ⟨hchain last (by simp), hchain' first (by simp), ?_⟩
        simpa [hlast, hfirst] using h
      · exact hchain' piece (List.mem_cons_of_mem _ hp)
  · intro piece hp
    obtain ⟨_, hpiece, hj⟩ := hbehind piece hp
    refine ⟨List.append_ne_nil_of_left_ne_nil hne first, hpiece, ?_⟩
    rwa [List.getLast_append_of_right_ne_nil _ _ hne']
  · intro piece hp piece' hp'
    obtain ⟨hpiece, _, hj⟩ := hbefore piece hp last (by simp)
    obtain rfl : last ++ first = piece' := by simpa using hp'
    refine ⟨hpiece, List.append_ne_nil_of_left_ne_nil hne first, ?_⟩
    rwa [List.head_append_of_ne_nil hne]
/-! ## Kinds of pieces -/

/-- Characters that are there are classified. -/
theorem classify_ofList {cs : List Char} (h : cs ≠ []) :
    Classification.classify (String.ofList cs) = .ok (Classification.kindOf (String.ofList cs)) := by
  have hne : String.ofList cs ≠ "" := fun he => h (String.ofList_eq_empty_iff.1 he)
  exact if_neg hne

/-- The kind of a run says whether it is blank. -/
theorem IsRun.kindOf_eq {blank : Bool} {run : List Char} (h : IsRun blank run) :
    kindOf run = if blank then .blank else Classification.kindOf (String.ofList run) := by
  cases blank with
  | true =>
    have hall : run.all isBlank = true := by
      rw [List.all_eq_true]
      exact fun c hc => isBlank_of_joins (h.all_join c hc)
    simp [kindOf, hall]
  | false =>
    have hall : run.all isBlank = false := by
      obtain ⟨c, hc⟩ := List.exists_mem_of_ne_nil run h.ne_nil
      rw [List.all_eq_false]
      exact ⟨c, hc, by simp [isBlank_of_joins (h.all_join c hc)]⟩
    simp [kindOf, hall]

/-- A character that stands alone is classified. -/
theorem kindOf_singleton {c : Char} (h : standsAlone c) :
    kindOf [c] = Classification.kindOf (String.ofList [c]) := by
  simp [kindOf, not_isBlank_of_standsAlone h]

end Segmentation

end Lexing
