import Lexing.Scanner
import Lexing.Proofs.Lemmas.Pieces
import Lexing.Proofs.Lemmas.Position

/-!
# What one character does

Which token the scanner finds next does not depend on what becomes of it. So the scanner is given here with that left open:
`feedWith hand` does with each token what `hand` says, and with `emit` it is the scanner's own step (`feed_eq_feedWith`). Two ways
of handing out tokens, one of which shows less of the same, go on alike (`feedWith_map`).

Between two characters the scanner is either idle or holds a run. The lemmas say what a character does in either case, whatever is
done with the tokens.
-/

namespace Lexing

namespace Segmentation

/-- The token of a piece that starts at a place. -/
def located (p : Position) (piece : List Char) : Located Token :=
  ⟨⟨String.ofList piece, kindOf piece⟩, ⟨p, p.behind piece⟩⟩

end Segmentation

/-- What is done with a token that the scanner has found. -/
abbrev Handing (σ : Type) := Scanner → σ → Located Token → Step σ

/-- Handing out a token leaves the pending run as it is. -/
def Handing.KeepsRun {σ : Type} (hand : Handing σ) : Prop :=
  ∀ scanner state token, (hand scanner state token).scanner.pending = scanner.pending

/-- A step, with only a part of the sink's state in view. -/
def Step.map {τ σ : Type} (view : τ → σ) (step : Step τ) : Step σ := ⟨step.scanner, view step.sink, step.error⟩

namespace Scanner

open CharClass Segmentation

variable {σ τ : Type} {limits : Limits} {accept : Sink σ} {hand : Handing σ}

/-- Closes the pending run, if there is one. -/
def flushWith (hand : Handing σ) (scanner : Scanner) (state : σ) : Except Fault (Step σ) :=
  match scanner with
  | ⟨none, position, emitted⟩ => .ok ⟨⟨none, position, emitted⟩, state, none⟩
  | ⟨some run, position, emitted⟩ =>
    match closeRun run position with
    | .error fault => .error fault
    | .ok token => .ok (hand ⟨none, position, emitted⟩ state token)

/-- Takes a character that is a token by itself. -/
def singleWith (hand : Handing σ) (scanner : Scanner) (state : σ) (c : Char) : Except Fault (Step σ) := do
  let stop ← scanner.position.advance c
  let token ← Token.ofCandidate (String.singleton c)
  let span ← Span.between scanner.position stop
  return hand { scanner with position := stop } state ⟨token, span⟩

/-- Takes one character. -/
def feedWith (limits : Limits) (hand : Handing σ) (scanner : Scanner) (state : σ) (c : Char) : Except Fault (Step σ) :=
  if isBlank c then
    if scanner.inBlank then append limits scanner state c true
    else
      match flushWith hand scanner state with
      | .ok ⟨scanner, state, none⟩ => append limits scanner state c true
      | outcome => outcome
  else if standsAlone c then
    match flushWith hand scanner state with
    | .ok ⟨scanner, state, none⟩ => singleWith hand scanner state c
    | outcome => outcome
  else if scanner.inBlank then
    match flushWith hand scanner state with
    | .ok ⟨scanner, state, none⟩ => append limits scanner state c false
    | outcome => outcome
  else append limits scanner state c false

theorem flush_eq_flushWith : flush limits accept = flushWith (emit limits accept) := rfl

/-- The scanner's own step hands its tokens to the sink. -/
theorem feed_eq_feedWith : feed limits accept = feedWith limits (emit limits accept) := rfl

theorem keepsRun_emit (limits : Limits) (accept : Sink σ) : Handing.KeepsRun (emit limits accept) := by
  intro scanner state token
  unfold emit
  split
  · rfl
  · split <;> rfl

/-! ## Less in view -/

section Views

variable {inner : Handing σ} {outer : Handing τ} {view : τ → σ}

theorem append_map (view : τ → σ) (scanner : Scanner) (state : τ) (c : Char) (blank : Bool) :
    append limits scanner (view state) c blank = (append limits scanner state c blank).map (Step.map view) := by
  obtain ⟨pending, p, n⟩ := scanner
  unfold append
  simp only
  split
  · rfl
  · cases p.advance c <;> rfl

theorem flushWith_map (h : ∀ scanner state token, inner scanner (view state) token = (outer scanner state token).map view)
    (scanner : Scanner) (state : τ) :
    flushWith inner scanner (view state) = (flushWith outer scanner state).map (Step.map view) := by
  obtain ⟨_ | run, p, n⟩ := scanner
  · rfl
  · cases hc : closeRun run p with
    | error fault => simp only [flushWith, hc, Except.map]
    | ok token => simp only [flushWith, hc, h, Except.map]

theorem singleWith_map (h : ∀ scanner state token, inner scanner (view state) token = (outer scanner state token).map view)
    (scanner : Scanner) (state : τ) (c : Char) :
    singleWith inner scanner (view state) c = (singleWith outer scanner state c).map (Step.map view) := by
  unfold singleWith
  cases scanner.position.advance c with
  | error fault => rfl
  | ok stop =>
    cases Token.ofCandidate (String.singleton c) with
    | error fault => rfl
    | ok token =>
      cases hspan : Span.between scanner.position stop with
      | error fault => simp only [hspan, bind, Except.bind, Except.map]
      | ok span => simp only [hspan, bind, Except.bind, pure, Except.pure, Except.map, h]

/-- What follows a flush keeps the view. -/
theorem flushWith_then_map
    (h : ∀ scanner state token, inner scanner (view state) token = (outer scanner state token).map view)
    {next : Scanner → σ → Except Fault (Step σ)} {next' : Scanner → τ → Except Fault (Step τ)}
    (hn : ∀ scanner state, next scanner (view state) = (next' scanner state).map (Step.map view)) (scanner : Scanner)
    (state : τ) :
    (match flushWith inner scanner (view state) with
      | .ok ⟨scanner, state, none⟩ => next scanner state
      | outcome => outcome) =
    Except.map (Step.map view)
      (match flushWith outer scanner state with
        | .ok ⟨scanner, state, none⟩ => next' scanner state
        | outcome => outcome) := by
  rw [flushWith_map h]
  rcases flushWith outer scanner state with fault | ⟨scanner', state', _ | error⟩
  · rfl
  · exact hn scanner' state'
  · rfl

/-- When one way of handing out shows a part of what another one does, so does each step. -/
theorem feedWith_map (h : ∀ scanner state token, inner scanner (view state) token = (outer scanner state token).map view)
    (scanner : Scanner) (state : τ) (c : Char) :
    feedWith limits inner scanner (view state) c = (feedWith limits outer scanner state c).map (Step.map view) := by
  unfold feedWith
  split
  · split
    · exact append_map view scanner state c true
    · exact flushWith_then_map h (fun scanner state => append_map view scanner state c true) scanner state
  · split
    · exact flushWith_then_map h (fun scanner state => singleWith_map h scanner state c) scanner state
    · split
      · exact flushWith_then_map h (fun scanner state => append_map view scanner state c false) scanner state
      · exact append_map view scanner state c false

end Views

/-! ## Single characters -/

/-- A character that stands alone closes what is pending and is handed out. -/
theorem feedWith_of_standsAlone {c : Char} (h : standsAlone c) (scanner : Scanner) (state : σ) :
    feedWith limits hand scanner state c =
      match flushWith hand scanner state with
      | .ok ⟨scanner, state, none⟩ => singleWith hand scanner state c
      | outcome => outcome := by
  have hb : ¬isBlank c := by simp [not_isBlank_of_standsAlone h]
  rw [feedWith, if_neg hb]
  exact if_pos h

/-- A character that starts a run of the other sort closes what is pending and starts that run. -/
theorem feedWith_of_joins_other {c : Char} (h : standsAlone c = false) {scanner : Scanner}
    (hs : scanner.inBlank = !isBlank c) (state : σ) :
    feedWith limits hand scanner state c =
      match flushWith hand scanner state with
      | .ok ⟨scanner, state, none⟩ => append limits scanner state c (isBlank c)
      | outcome => outcome := by
  cases hb : isBlank c with
  | true =>
    have hin : ¬scanner.inBlank := by simp [hs, hb]
    rw [feedWith, if_pos hb]
    exact if_neg hin
  | false =>
    have hin : scanner.inBlank := by simp [hs, hb]
    rw [feedWith, if_neg (by simp [hb]), if_neg (by simp [h])]
    exact if_pos hin

/-- An idle scanner starts a run at a character that can join one. -/
theorem feedWith_idle_of_joins {blank : Bool} {c : Char} (h : joins blank c) (p : Position) (n : Nat) (state : σ) :
    feedWith limits hand ⟨none, p, n⟩ state c = append limits ⟨none, p, n⟩ state c blank := by
  have hs := not_standsAlone_of_joins h
  have hb := isBlank_of_joins h
  cases blank <;> simp [feedWith, hs, hb, inBlank, flushWith]

/-- An idle scanner hands out a character that stands alone. -/
theorem feedWith_idle_of_standsAlone {c : Char} (h : standsAlone c) (p : Position) (n : Nat) (state : σ) :
    feedWith limits hand ⟨none, p, n⟩ state c = singleWith hand ⟨none, p, n⟩ state c :=
  feedWith_of_standsAlone h ⟨none, p, n⟩ state

/-- The pending run that holds the characters of a piece. -/
def holding (start : Position) (blank : Bool) (piece : List Char) : PendingRun :=
  ⟨String.ofList piece, piece.length, blank, start⟩

/-- A run grows by a character that joins it. -/
theorem feedWith_holding_of_joins {blank : Bool} {c : Char} (h : joins blank c) (start : Position) (piece : List Char)
    (p : Position) (n : Nat) (state : σ) :
    feedWith limits hand ⟨some (holding start blank piece), p, n⟩ state c =
      append limits ⟨some (holding start blank piece), p, n⟩ state c blank := by
  have hs := not_standsAlone_of_joins h
  have hb := isBlank_of_joins h
  cases blank <;> simp [feedWith, hs, hb, inBlank, holding]

/-- What a flush leaves is idle. -/
theorem pending_flushWith (hk : hand.KeepsRun) {scanner : Scanner} {state : σ} {step : Step σ}
    (h : flushWith hand scanner state = .ok step) : step.scanner.pending = none := by
  obtain ⟨_ | run, p, n⟩ := scanner
  · cases h
    rfl
  · unfold flushWith at h
    cases hc : closeRun run p with
    | error fault => simp [hc] at h
    | ok token =>
      simp only [hc, Except.ok.injEq] at h
      rw [← h, hk]

/-- What follows a flush meets an idle scanner only. -/
theorem flushWith_then_congr (hk : hand.KeepsRun) {next next' : Scanner → σ → Except Fault (Step σ)}
    (h : ∀ p n state, next ⟨none, p, n⟩ state = next' ⟨none, p, n⟩ state) (scanner : Scanner) (state : σ) :
    (match flushWith hand scanner state with
      | .ok ⟨scanner, state, none⟩ => next scanner state
      | outcome => outcome) =
    match flushWith hand scanner state with
      | .ok ⟨scanner, state, none⟩ => next' scanner state
      | outcome => outcome := by
  rcases hf : flushWith hand scanner state with fault | ⟨⟨pending, p, n⟩, state', _ | error⟩
  · rfl
  · obtain rfl : pending = none := pending_flushWith hk hf
    exact h p n state'
  · rfl

/-- A character that does not join a run closes it and then meets an idle scanner. -/
theorem feedWith_holding_of_not_joins (hk : hand.KeepsRun) {blank : Bool} {c : Char} (h : joins blank c = false)
    (start : Position) (piece : List Char) (p : Position) (n : Nat) (state : σ) :
    feedWith limits hand ⟨some (holding start blank piece), p, n⟩ state c =
      match flushWith hand ⟨some (holding start blank piece), p, n⟩ state with
      | .ok ⟨scanner, state, none⟩ => feedWith limits hand scanner state c
      | outcome => outcome := by
  cases hs : standsAlone c with
  | true =>
    rw [feedWith_of_standsAlone hs ⟨some (holding start blank piece), p, n⟩ state]
    exact flushWith_then_congr hk (fun p n state => (feedWith_idle_of_standsAlone hs p n state).symm) _ _
  | false =>
    have hj := joins_isBlank hs
    -- The character starts a run of the other sort, so the scanner is in a blank run exactly when it is not blank.
    have hother : blank = !isBlank c := by
      cases hb : isBlank c <;> cases blank <;> simp_all
    rw [feedWith_of_joins_other hs (by exact hother) state]
    exact flushWith_then_congr hk (fun p n state => (feedWith_idle_of_joins hj p n state).symm) _ _

/-! ## Runs and tokens -/

/-- Closing a run hands out the token of its piece. -/
theorem flushWith_holding {blank : Bool} {piece : List Char} (h : IsRun blank piece) (start : Position) (n : Nat)
    (state : σ) :
    flushWith hand ⟨some (holding start blank piece), start.behind piece, n⟩ state =
      .ok (hand ⟨none, start.behind piece, n⟩ state (located start piece)) := by
  have hspan : Span.between start (start.behind piece) = .ok ⟨start, start.behind piece⟩ :=
    if_pos (start.offset_le_behind piece)
  have hkind := classify_ofList h.ne_nil
  have hclose : closeRun (holding start blank piece) (start.behind piece) = .ok (located start piece) := by
    simp only [closeRun, holding, located, hspan, h.kindOf_eq]
    cases blank <;> simp [hkind, bind, Except.bind, pure, Except.pure]
  simp only [flushWith, hclose]

/-- A character that stands alone is handed out as the token of its piece. -/
theorem singleWith_eq {c : Char} (h : standsAlone c) {p : Position} (hp : p.advance c = .ok (p.after c)) (n : Nat)
    (state : σ) :
    singleWith hand ⟨none, p, n⟩ state c = .ok (hand ⟨none, p.behind [c], n⟩ state (located p [c])) := by
  have hspan : Span.between p (p.after c) = .ok ⟨p, p.after c⟩ := if_pos (Nat.le_of_lt (p.offset_lt_after c))
  have hkind := classify_ofList (List.cons_ne_nil c [])
  simp only [singleWith, hp, String.singleton_eq_ofList, Token.ofCandidate, hkind, hspan, bind, Except.bind,
    pure, Except.pure, located, kindOf_singleton h, Position.behind_cons, Position.behind_nil]

/-- A character that stands alone where there is no place behind it. -/
theorem singleWith_of_fault {c : Char} {p : Position} {fault : Fault} (h : p.advance c = .error fault) (n : Nat) (state : σ) :
    singleWith hand ⟨none, p, n⟩ state c = .error fault := by
  simp only [singleWith, h, bind, Except.bind]

/-- A run that is not full takes one more character. -/
theorem append_holding {blank : Bool} {piece : List Char} {c : Char} {start : Position}
    (hp : (start.behind piece).advance c = .ok ((start.behind piece).after c))
    (hl : piece.length < limits.maxTokenLength) (n : Nat) (state : σ) :
    append limits ⟨some (holding start blank piece), start.behind piece, n⟩ state c blank =
      .ok ⟨⟨some (holding start blank (piece ++ [c])), start.behind (piece ++ [c]), n⟩, state, none⟩ := by
  have hfit : ¬limits.maxTokenLength ≤ piece.length := by omega
  simp [append, holding, hfit, hp, Position.behind_append]

/-- A run that is not full, where there is no place behind the next character. -/
theorem append_holding_of_fault {blank : Bool} {piece : List Char} {c : Char} {start p : Position} {fault : Fault}
    (h : p.advance c = .error fault) (hl : piece.length < limits.maxTokenLength) (n : Nat) (state : σ) :
    append limits ⟨some (holding start blank piece), p, n⟩ state c blank = .error fault := by
  have hfit : ¬limits.maxTokenLength ≤ piece.length := by omega
  simp [append, holding, hfit, h]

/-- An idle scanner starts a run. -/
theorem append_idle {blank : Bool} {c : Char} {p : Position} (hp : p.advance c = .ok (p.after c)) (n : Nat)
    (state : σ) :
    append limits ⟨none, p, n⟩ state c blank =
      .ok ⟨⟨some (holding p blank [c]), p.behind [c], n⟩, state, none⟩ := by
  have hfit : ¬limits.maxTokenLength ≤ 0 := by have := limits.tokenLength_pos; omega
  simp [append, holding, hfit, hp]

/-- An idle scanner where there is no place behind the next character. -/
theorem append_idle_of_fault {blank : Bool} {c : Char} {p : Position} {fault : Fault} (h : p.advance c = .error fault) (n : Nat)
    (state : σ) : append limits ⟨none, p, n⟩ state c blank = .error fault := by
  have hfit : ¬limits.maxTokenLength ≤ 0 := by have := limits.tokenLength_pos; omega
  simp [append, hfit, h]

/-- A full run takes no more. -/
theorem append_full {blank : Bool} {piece : List Char} {c : Char} {start p : Position}
    (hl : limits.maxTokenLength = piece.length) (n : Nat) (state : σ) :
    append limits ⟨some (holding start blank piece), p, n⟩ state c blank =
      .ok ⟨⟨some (holding start blank piece), p, n⟩, state, some (.tokenTooLong (limits.maxTokenLength + 1) start)⟩ := by
  simp [append, holding, hl]

end Scanner

end Lexing
