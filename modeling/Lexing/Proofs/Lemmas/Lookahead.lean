import Lexing.Proofs.Theorems.Concatenation

/-!
# Where a scanner stands

What a scanner has done after the first characters of a text depends on these alone. `Stands` says it for every prefix: the scanner
is idle behind a character that stands alone, with all pieces handed out, or it holds the last piece as its run, with the pieces in
front of that one handed out. One more character leads from one such state to the next (`Stands.snoc`), so the scanner is in one
after any characters that are within the limits (`exists_stands`).

`Moves` leaves the sink open, as long as it takes everything: the characters lead from one scanner to another and some tokens are
handed out on the way. Characters that follow each other move the scanner one behind the other (`Moves.append`).
-/

namespace Lexing

namespace Sink

variable {σ : Type} {accept : Sink σ}

/-- A sink that never refuses a token. -/
def TakesAll (accept : Sink σ) : Prop := ∀ state token, (accept state token).2 = none

theorem takesAll_collect : TakesAll collect := fun _ _ => rfl

theorem TakesAll.accept_eq (h : accept.TakesAll) (state : σ) (token : Located Token) :
    accept state token = ((accept state token).1, none) := Prod.ext rfl (h state token)

/-- A token that is taken leaves the rest to be offered. -/
theorem TakesAll.offer_cons (h : accept.TakesAll) (state : σ) (token : Located Token) (rest : List (Located Token)) :
    accept.offer state (token :: rest) = accept.offer (accept state token).1 rest := by
  rw [offer, h.accept_eq]

/-- When all tokens are taken, those behind are offered to what the ones in front leave. -/
theorem TakesAll.offer_append (h : accept.TakesAll) (state : σ) (front back : List (Located Token)) :
    accept.offer state (front ++ back) = accept.offer (accept.offer state front).1 back := by
  induction front generalizing state with
  | nil => rfl
  | cons token rest ih => rw [List.cons_append, h.offer_cons, h.offer_cons, ih]

end Sink

namespace Scanner

open CharClass Segmentation

variable {σ : Type} {limits : Limits} {accept : Sink σ} {scanner mid last : Scanner} {more later : List (Located Token)}

/-! ## Feeding in parts -/

/-- What was fed without an error can be fed by itself, and then the rest. -/
theorem feedAll_append {state after : σ} {cs : List Char}
    (h : feedAll limits accept scanner state cs = .ok ⟨mid, after, none⟩) (ds : List Char) :
    feedAll limits accept scanner state (cs ++ ds) = feedAll limits accept mid after ds := by
  induction cs generalizing scanner state with
  | nil =>
    cases h
    rfl
  | cons c cs ih =>
    rw [feedAll] at h
    rw [List.cons_append, feedAll]
    rcases hf : feed limits accept scanner state c with fault | ⟨scanner', state', _ | error⟩
    · simp [hf] at h
    · simp only [hf] at h ⊢
      exact ih h
    · simp [hf] at h

/-- The rest of a scan behind what was fed without an error. -/
theorem complete_append {state after : σ} {cs : List Char}
    (h : feedAll limits accept scanner state cs = .ok ⟨mid, after, none⟩) (ds : List Char) :
    complete limits accept scanner state (cs ++ ds) = complete limits accept mid after ds := by
  induction cs generalizing scanner state with
  | nil =>
    cases h
    rfl
  | cons c cs ih =>
    rw [feedAll] at h
    rw [List.cons_append, complete]
    rcases hf : feed limits accept scanner state c with fault | ⟨scanner', state', _ | error⟩
    · simp [hf] at h
    · simp only [hf] at h
      exact ih h
    · simp [hf] at h

/-- Characters lead from one scanner to another, and hand out tokens on the way to any sink that takes everything. -/
def Moves (limits : Limits) (scanner : Scanner) (cs : List Char) (last : Scanner) (more : List (Located Token)) : Prop :=
  ∀ {σ : Type} (accept : Sink σ), accept.TakesAll → ∀ state,
    feedAll limits accept scanner state cs = .ok ⟨last, (accept.offer state more).1, none⟩

theorem moves_nil (limits : Limits) (scanner : Scanner) : Moves limits scanner [] scanner [] := fun _ _ _ => rfl

theorem Moves.append {cs ds : List Char} (h : Moves limits scanner cs mid more) (h' : Moves limits mid ds last later) :
    Moves limits scanner (cs ++ ds) last (more ++ later) := by
  intro σ accept haccept state
  rw [feedAll_append (h accept haccept state), h' accept haccept, haccept.offer_append]

/-! ## One character -/

section Characters

variable {c : Char} {p start : Position} {n : Nat} {blank : Bool} {piece : List Char}

/-- A token below the limit is handed out and counted. -/
theorem emit_of_takesAll (h : accept.TakesAll) (hn : n < limits.maxTokenCount) (state : σ) (token : Located Token) :
    emit limits accept ⟨none, p, n⟩ state token = ⟨⟨none, p, n + 1⟩, (accept.offer state [token]).1, none⟩ := by
  rw [emit, if_neg (Nat.not_le.2 hn), h.offer_cons, h.accept_eq]
  rfl

/-- One character moves a scanner as its feed says. -/
theorem moves_singleton
    (h : ∀ {σ : Type} (accept : Sink σ), accept.TakesAll → ∀ state,
      feed limits accept scanner state c = .ok ⟨last, (accept.offer state more).1, none⟩) :
    Moves limits scanner [c] last more := by
  intro σ accept haccept state
  rw [feedAll, h accept haccept]
  rfl

theorem Moves.feed_eq (h : Moves limits scanner [c] last more) (haccept : accept.TakesAll) (state : σ) :
    feed limits accept scanner state c = .ok ⟨last, (accept.offer state more).1, none⟩ := by
  have hall := h accept haccept state
  rw [feedAll] at hall
  rcases hf : feed limits accept scanner state c with fault | ⟨scanner', state', _ | error⟩
  · simp [hf] at hall
  · simpa [hf, feedAll] using hall
  · simp [hf] at hall

/-- An idle scanner hands out a character that stands alone. -/
theorem moves_idle_of_standsAlone (hs : standsAlone c) (hp : p.advance c = .ok (p.after c)) (hn : n < limits.maxTokenCount) :
    Moves limits ⟨none, p, n⟩ [c] ⟨none, p.behind [c], n + 1⟩ [located p [c]] := by
  refine moves_singleton fun accept haccept state => ?_
  rw [feed_eq_feedWith, feedWith_idle_of_standsAlone hs, singleWith_eq hs hp, emit_of_takesAll haccept hn]

/-- An idle scanner starts a run and hands out nothing. -/
theorem moves_idle_of_joins (hj : joins blank c) (hp : p.advance c = .ok (p.after c)) :
    Moves limits ⟨none, p, n⟩ [c] ⟨some (holding p blank [c]), p.behind [c], n⟩ [] := by
  refine moves_singleton fun accept _ state => ?_
  rw [feed_eq_feedWith, feedWith_idle_of_joins hj, append_idle hp]
  rfl

/-- A run grows by a character that joins it, and nothing is handed out. -/
theorem moves_holding_of_joins (hj : joins blank c) (hp : (start.behind piece).advance c = .ok ((start.behind piece).after c))
    (hl : piece.length < limits.maxTokenLength) :
    Moves limits ⟨some (holding start blank piece), start.behind piece, n⟩ [c]
      ⟨some (holding start blank (piece ++ [c])), start.behind (piece ++ [c]), n⟩ [] := by
  refine moves_singleton fun accept _ state => ?_
  rw [feed_eq_feedWith, feedWith_holding_of_joins hj, append_holding hp hl]
  rfl

/-- A character that does not join a run hands it out, and then moves an idle scanner. -/
theorem Moves.of_not_joins (h : Moves limits ⟨none, start.behind piece, n + 1⟩ [c] last more) (hrun : IsRun blank piece)
    (hj : joins blank c = false) (hn : n < limits.maxTokenCount) :
    Moves limits ⟨some (holding start blank piece), start.behind piece, n⟩ [c] last (located start piece :: more) := by
  refine moves_singleton fun accept haccept state => ?_
  rw [feed_eq_feedWith, feedWith_holding_of_not_joins (keepsRun_emit limits accept) hj, flushWith_holding hrun,
    emit_of_takesAll haccept hn]
  simp only
  rw [← feed_eq_feedWith, h.feed_eq haccept, haccept.offer_cons, haccept.offer_cons]
  rfl

end Characters

end Scanner

namespace Segmentation

open CharClass

/-! ## The pieces of one more character -/

variable {cs : List Char} {c : Char} {front : List (List Char)} {run : List Char} {blank : Bool}

/-- A character that is not joined to the text in front of it is one more piece. -/
theorem pieces_snoc (h : ∀ d ∈ cs.getLast?, joined d c = false) : pieces (cs ++ [c]) = pieces cs ++ [[c]] := by
  rw [pieces_append (by simpa using h)]
  rfl

/-- The last character of a text is that of its last piece. -/
theorem getLast?_of_pieces_eq (h : pieces cs = front ++ [run]) : cs.getLast? = run.getLast? := by
  have hne : run ≠ [] := ne_nil_of_mem_pieces (h ▸ List.mem_append_right front List.mem_cons_self)
  rw [← flatten_pieces cs, h, List.flatten_concat, List.getLast?_append_of_ne_nil _ hne]

/-- A character joins the run that a text ends with. -/
theorem pieces_snoc_of_joins (hp : pieces cs = front ++ [run]) (hrun : IsRun blank run) (hj : joins blank c) :
    pieces (cs ++ [c]) = front ++ [run ++ [c]] := by
  have hlast := getLast?_of_pieces_eq hp
  rw [List.getLast?_eq_some_getLast hrun.ne_nil] at hlast
  have hjoined : joined (run.getLast hrun.ne_nil) c := by
    rwa [joined_eq_joins (hrun.all_join _ (List.getLast_mem hrun.ne_nil))]
  have hhead : [c].head? = some c := rfl
  have hpiece : pieces [c] = [[c]] := rfl
  obtain ⟨front', run', first, back, hcs, hds, happ⟩ := exists_pieces_append hlast hhead hjoined
  obtain ⟨rfl, hruns⟩ := List.append_inj' (hp.symm.trans hcs) rfl
  obtain rfl := List.singleton_inj.1 hruns
  obtain ⟨rfl, rfl⟩ := List.cons.inj (hpiece.symm.trans hds)
  exact happ

end Segmentation

namespace Scanner

open CharClass Segmentation

/-! ## After every prefix -/

/-- Where a scanner stands after the first characters of a text, and which tokens it has handed out by then: all pieces when the
last character stands alone, and all but the last one otherwise, which is the run that is pending. -/
inductive Stands : List Char → Scanner → List (Located Token) → Prop
  | idle {cs} (alone : ∀ c ∈ cs.getLast?, standsAlone c) :
    Stands cs ⟨none, Position.start.behind cs, (pieces cs).length⟩ (tokensFrom .start (pieces cs))
  | inRun {cs front run blank} (pieces_eq : pieces cs = front ++ [run]) (isRun : IsRun blank run) :
    Stands cs ⟨some (holding (Position.start.behind front.flatten) blank run),
      (Position.start.behind front.flatten).behind run, front.length⟩ (tokensFrom .start front)

variable {limits : Limits} {cs : List Char} {c : Char} {scanner : Scanner} {delivered : List (Located Token)}

theorem stands_fresh : Stands [] .fresh [] := .idle (by simp)

/-- The scanner stands behind the characters. -/
theorem Stands.position_eq (h : Stands cs scanner delivered) : scanner.position = Position.start.behind cs := by
  cases h with
  | idle => rfl
  | inRun pieces_eq => rw [← flatten_pieces cs, pieces_eq, List.flatten_concat, Position.behind_append]

/-- The scanner has counted what it handed out. -/
theorem Stands.emitted_eq (h : Stands cs scanner delivered) : scanner.emitted = delivered.length := by
  cases h with
  | idle => rw [length_tokensFrom]
  | inRun => rw [length_tokensFrom]

/-- One more character of what fits has a place behind it. -/
theorem advance_of_within_snoc (hw : Within limits (cs ++ [c])) :
    (Position.start.behind cs).advance c = .ok ((Position.start.behind cs).after c) :=
  (Position.fits_cons.1 (Position.fits_append.1 hw.fits).2).1

/-- With all pieces handed out, one more character that is not joined to them is a token at once or the run that is pending. -/
theorem stands_snoc_of_cut (h : ∀ d ∈ cs.getLast?, joined d c = false) (hw : Within limits (cs ++ [c])) :
    ∃ last more, Moves limits ⟨none, Position.start.behind cs, (pieces cs).length⟩ [c] last more ∧
      Stands (cs ++ [c]) last (tokensFrom .start (pieces cs) ++ more) := by
  have hp := pieces_snoc h
  have hc := advance_of_within_snoc hw
  have hcount := hw.count_le
  rw [hp, List.length_append, List.length_singleton] at hcount
  cases hs : standsAlone c with
  | true =>
    refine ⟨_, _, moves_idle_of_standsAlone hs hc hcount, ?_⟩
    have hstands : Stands (cs ++ [c]) _ _ := .idle (by simpa using hs)
    rw [hp, tokensFrom_append, flatten_pieces, Position.behind_append, List.length_append] at hstands
    exact hstands
  | false =>
    have hj := joins_isBlank hs
    refine ⟨_, _, moves_idle_of_joins hj hc, ?_⟩
    have hstands := Stands.inRun hp (isRun_singleton hj)
    rw [flatten_pieces] at hstands
    rwa [List.append_nil]

/-- One more character leads from where the scanner stands to where it stands then. -/
theorem Stands.snoc (h : Stands cs scanner delivered) (hw : Within limits (cs ++ [c])) :
    ∃ last more, Moves limits scanner [c] last more ∧ Stands (cs ++ [c]) last (delivered ++ more) := by
  cases h with
  | idle alone => exact stands_snoc_of_cut (fun d hd => joined_eq_false_of_standsAlone_left (alone d hd)) hw
  | @inRun front run blank pieces_eq isRun =>
    have hcs : cs = front.flatten ++ run := by rw [← flatten_pieces cs, pieces_eq, List.flatten_concat]
    have hplace : (Position.start.behind front.flatten).behind run = Position.start.behind cs := by
      rw [hcs, Position.behind_append]
    cases hj : joins blank c with
    | true =>
      have hp := pieces_snoc_of_joins pieces_eq isRun hj
      have hc := advance_of_within_snoc hw
      have hlength := hw.length_le (run ++ [c]) (by simp [hp])
      rw [List.length_append] at hlength
      rw [← hplace] at hc
      refine ⟨_, _, moves_holding_of_joins hj hc hlength, ?_⟩
      rw [List.append_nil]
      exact .inRun hp (isRun.snoc hj)
    | false =>
      have hcut : ∀ d ∈ cs.getLast?, joined d c = false := by
        intro d hd
        rw [getLast?_of_pieces_eq pieces_eq] at hd
        rw [joined_eq_joins (isRun.all_join d (List.mem_of_getLast? hd)), hj]
      have hlength : (pieces cs).length = front.length + 1 := by simp [pieces_eq]
      have hcount := hw.of_append.1.count_le
      obtain ⟨last, more, hmoves, hstands⟩ := stands_snoc_of_cut hcut hw
      rw [← hplace, hlength] at hmoves
      refine ⟨last, _, hmoves.of_not_joins isRun hj (by omega), ?_⟩
      rw [pieces_eq, tokensFrom_append, List.append_assoc] at hstands
      exact hstands

/-- Characters within the limits move a scanner from the start to where it then stands. -/
theorem exists_stands (h : Within limits cs) :
    ∃ scanner delivered, Moves limits .fresh cs scanner delivered ∧ Stands cs scanner delivered := by
  induction cs using List.reverseRecOn with
  | nil => exact ⟨_, _, moves_nil limits .fresh, stands_fresh⟩
  | append_singleton cs c ih =>
    obtain ⟨scanner, delivered, hmoves, hstands⟩ := ih h.of_append.1
    obtain ⟨last, more, hlast, hnext⟩ := hstands.snoc h
    exact ⟨last, _, hmoves.append hlast, hnext⟩

/-! ## From there on -/

/-- What is left to be handed out where a scanner stands: the run that is pending, if there is one. -/
theorem Stands.exists_rest (h : Stands cs scanner delivered) (hw : Within limits cs) :
    ∃ rest, tokensFrom .start (pieces cs) = delivered ++ rest ∧
      ((∀ c ∈ cs.getLast?, standsAlone c) → rest = [] ∧ scanner.pending = none) ∧
      (∀ c ∈ cs.getLast?, standsAlone c = false → ∃ last, rest = [last] ∧
        scanner.pending = some ⟨last.value.text, last.value.length, isBlank c, last.span.start⟩) ∧
      ∀ {σ : Type} (accept : Sink σ), accept.TakesAll → ∀ state,
        finish limits accept scanner state = .ok ⟨(accept.offer state rest).1, .ok (pieces cs).length⟩ := by
  cases h with
  | idle alone =>
    refine ⟨[], (List.append_nil _).symm, fun _ => ⟨rfl, rfl⟩, fun c hc hs => ?_, fun accept _ state => rfl⟩
    rw [alone c hc] at hs
    cases hs
  | @inRun front run blank pieces_eq isRun =>
    have hlast := getLast?_of_pieces_eq pieces_eq
    have hcount := hw.count_le
    have hlength : (pieces cs).length = front.length + 1 := by simp [pieces_eq]
    refine ⟨[located (Position.start.behind front.flatten) run], ?_, fun alone => ?_, fun c hc _ => ?_, ?_⟩
    · rw [pieces_eq, tokensFrom_append]
      rfl
    · -- A text that ends with a run does not end with a character that stands alone.
      have hend := List.getLast?_eq_some_getLast isRun.ne_nil
      have hj := isRun.all_join _ (List.getLast_mem isRun.ne_nil)
      have hs := alone _ (hlast.trans hend)
      rw [not_standsAlone_of_joins hj] at hs
      cases hs
    · rw [hlast] at hc
      refine ⟨_, rfl, ?_⟩
      rw [isBlank_of_joins (isRun.all_join c (List.mem_of_getLast? hc))]
      simp [holding, located, Token.length]
    · intro σ accept haccept state
      rw [finish_eq, flush_eq_flushWith, flushWith_holding isRun, emit_of_takesAll haccept (by omega), hlength]
      rfl

/-- The rest of a scan that returns is a delivery. -/
theorem Stands.exists_delivery (h : Stands cs scanner delivered) (hw : Within limits cs) {σ : Type} {accept : Sink σ}
    {state : σ} {ds : List Char} {outcome : Outcome σ} (hd : complete limits accept scanner state ds = .ok outcome) :
    ∃ delivery : Delivery, outcome = delivery.into accept state := by
  obtain ⟨hidle, hrun⟩ := complete_delivers limits accept ds
  cases h with
  | idle => exact ⟨_, (hidle _ _ _).eq_of_ok hd⟩
  | @inRun front run blank pieces_eq isRun =>
    have hl := hw.length_le run (by simp [pieces_eq])
    exact ⟨_, (hrun _ _ _ _ _ isRun hl).eq_of_ok hd⟩

/-- Whatever follows, the tokens that were handed out stay the first ones. -/
theorem Stands.prefix_of_complete (h : Stands cs scanner delivered) (hw : Within limits cs) {ds : List Char}
    {outcome : Outcome (Array (Located Token))}
    (hd : complete limits Sink.collect scanner delivered.toArray ds = .ok outcome) : delivered <+: outcome.sink.toList := by
  obtain ⟨delivery, rfl⟩ := h.exists_delivery hw hd
  rw [Delivery.sink_into, Sink.offer_collect]
  simp

end Scanner

end Lexing
