import Lexing.Proofs.Lemmas.Handing

/-!
# Scans as deliveries

`Segmentation.delivery` says what a scan has to hand out, without a scanner and without a sink: the pieces of the text in
order as tokens with their places, up to the first piece that is too long or the first that would be one too many.
`scan_eq` is the main statement: in a text below `sizeBound` bytes a scan into any sink never faults, offers the sink the
tokens of the delivery up to the first one it refuses, and ends with that refusal or, if there is none, as the delivery ends.
All it needs of the bound is that no place in the text is out of range (`scan_eq_of_fits`). A scan of a longer text may fault, but
when it returns it is the delivery too (`eq_into_of_scan`).

The proof follows the characters that are left. Between two characters the scanner is either idle or holds a run that starts
where the last token stopped; `complete_delivers` states for both what the rest of the scan does.
-/

namespace Lexing

/-- What a scan hands out to a sink that takes everything, and how it ends. -/
structure Delivery where
  tokens : List (Located Token)
  result : Except ScanError Nat

namespace Segmentation

/-- The delivery of pieces, the first of which starts at a place, after some tokens. -/
def deliver (limits : Limits) (p : Position) (emitted : Nat) : List (List Char) → Delivery
  | [] => ⟨[], .ok emitted⟩
  | piece :: rest =>
    if limits.maxTokenLength < piece.length then ⟨[], .error (.tokenTooLong (limits.maxTokenLength + 1) p)⟩
    else if limits.maxTokenCount ≤ emitted then ⟨[], .error (.tooManyTokens (emitted + 1))⟩
    else
      let later := deliver limits (p.behind piece) (emitted + 1) rest
      ⟨located p piece :: later.tokens, later.result⟩

/-- The delivery of a text. -/
def delivery (limits : Limits) (source : String) : Delivery :=
  deliver limits .start 0 (pieces source.toList)

end Segmentation

namespace Sink

variable {σ : Type}

/-- Offers tokens to a sink in order, up to the first one that it refuses. -/
def offer (accept : Sink σ) (state : σ) : List (Located Token) → σ × Option ScanError
  | [] => (state, none)
  | token :: rest =>
    match accept state token with
    | (state, none) => offer accept state rest
    | (state, some error) => (state, some error)

end Sink

/-- The outcome of a delivery into a sink: the sink's own refusal comes first. -/
def Delivery.into {σ : Type} (delivery : Delivery) (accept : Sink σ) (state : σ) : Scanner.Outcome σ :=
  match accept.offer state delivery.tokens with
  | (state, none) => ⟨state, delivery.result⟩
  | (state, some error) => ⟨state, .error error⟩

/-- A delivery leaves the sink as the offering does. -/
theorem Delivery.sink_into {σ : Type} (delivery : Delivery) (accept : Sink σ) (state : σ) :
    (delivery.into accept state).sink = (accept.offer state delivery.tokens).1 := by
  rw [Delivery.into]
  rcases accept.offer state delivery.tokens with ⟨last, _ | error⟩ <;> rfl

/-- Goes on after a step, unless an error stopped it. -/
def Step.conclude {σ : Type} (step : Step σ) (next : Scanner → σ → Except Fault (Scanner.Outcome σ)) :
    Except Fault (Scanner.Outcome σ) :=
  match step with
  | ⟨scanner, state, none⟩ => next scanner state
  | ⟨_, state, some error⟩ => .ok ⟨state, .error error⟩

namespace Scanner

open CharClass Segmentation

variable {σ : Type} {limits : Limits} {accept : Sink σ}

/-! ## The rest of a scan -/

/-- Feeds the characters that are left and finishes. -/
def complete (limits : Limits) (accept : Sink σ) (scanner : Scanner) (state : σ) :
    List Char → Except Fault (Outcome σ)
  | [] => finish limits accept scanner state
  | c :: cs =>
    (feed limits accept scanner state c).bind fun step =>
      step.conclude fun scanner state => complete limits accept scanner state cs

/-- A scan is the rest of a scan in front of the whole text. -/
theorem scan_eq_complete (state : σ) (source : String) :
    scan limits accept state source = complete limits accept fresh state source.toList := by
  unfold scan
  generalize fresh = scanner
  generalize source.toList = cs
  induction cs generalizing scanner state with
  | nil => rfl
  | cons c cs ih =>
    rw [feedAll, complete]
    rcases feed limits accept scanner state c with fault | ⟨scanner', state', _ | error⟩
    · rfl
    · exact ih state' scanner'
    · rfl

theorem finish_eq (scanner : Scanner) (state : σ) :
    finish limits accept scanner state =
      (flush limits accept scanner state).bind fun step =>
        step.conclude fun scanner state => .ok ⟨state, .ok scanner.emitted⟩ := by
  unfold finish
  rcases flush limits accept scanner state with fault | ⟨scanner', state', _ | error⟩ <;> rfl

/-! ## The run of a scan -/

/-- A computation has the value that it should have, unless there is a cause for it to fault. -/
def Barring {α : Type} (cause : Prop) (result : Except Fault α) (value : α) : Prop :=
  result = .ok value ∨ cause ∧ ∃ fault, result = .error fault

theorem Barring.imp {α : Type} {cause cause' : Prop} {result : Except Fault α} {value : α} (h : Barring cause result value)
    (hc : cause → cause') : Barring cause' result value :=
  h.imp_right fun ⟨h, hfault⟩ => ⟨hc h, hfault⟩

/-- A computation that returns has the value that it should have. -/
theorem Barring.eq_of_ok {α : Type} {cause : Prop} {result : Except Fault α} {value returned : α}
    (h : Barring cause result value) (hr : result = .ok returned) : returned = value := by
  rcases h with hok | ⟨-, fault, hfault⟩
  · exact Except.ok.inj (hr.symm.trans hok)
  · cases hr.symm.trans hfault

/-- Handing out the token of a piece that is not too long, and then what is left of the delivery. -/
theorem conclude_emit {p : Position} {n : Nat} {piece : List Char} {rest : List (List Char)} {cause : Prop}
    (hl : piece.length ≤ limits.maxTokenLength) {next : Scanner → σ → Except Fault (Outcome σ)}
    (hn : ∀ state, Barring cause (next ⟨none, p.behind piece, n + 1⟩ state)
      ((deliver limits (p.behind piece) (n + 1) rest).into accept state)) (state : σ) :
    Barring cause ((emit limits accept ⟨none, p.behind piece, n⟩ state (located p piece)).conclude next)
      ((deliver limits p n (piece :: rest)).into accept state) := by
  have hshort : ¬limits.maxTokenLength < piece.length := by omega
  by_cases hc : limits.maxTokenCount ≤ n
  · exact Or.inl (by simp [emit, deliver, hshort, hc, Step.conclude, Delivery.into, Sink.offer])
  · rcases ha : accept state (located p piece) with ⟨state', _ | error⟩
    · have hinto : (deliver limits p n (piece :: rest)).into accept state =
          (deliver limits (p.behind piece) (n + 1) rest).into accept state' := by
        simp [deliver, hshort, hc, ha, Delivery.into, Sink.offer]
      have hgoes : (emit limits accept ⟨none, p.behind piece, n⟩ state (located p piece)).conclude next =
          next ⟨none, p.behind piece, n + 1⟩ state' := by
        simp [emit, hc, ha, Step.conclude]
      rw [hinto, hgoes]
      exact hn state'
    · exact Or.inl (by simp [emit, deliver, hshort, hc, ha, Step.conclude, Delivery.into, Sink.offer])

/-- An idle scanner delivers the pieces of the characters that are left, and can only fault where these do not fit. -/
def DeliversIdle (limits : Limits) (accept : Sink σ) (cs : List Char) : Prop :=
  ∀ (p : Position) (n : Nat) (state : σ),
    Barring (¬p.Fits cs) (complete limits accept ⟨none, p, n⟩ state cs) ((deliver limits p n (pieces cs)).into accept state)

/-- A scanner with a pending run delivers the pieces of the run and the characters that are left, and can only fault where these do
not fit. -/
def DeliversRun (limits : Limits) (accept : Sink σ) (cs : List Char) : Prop :=
  ∀ (start : Position) (blank : Bool) (run : List Char) (n : Nat) (state : σ), IsRun blank run →
    run.length ≤ limits.maxTokenLength →
    Barring (¬(start.behind run).Fits cs) (complete limits accept ⟨some (holding start blank run), start.behind run, n⟩ state cs)
      ((deliver limits start n (pieces (run ++ cs))).into accept state)

/-- The end of the text closes a pending run. -/
theorem deliversRun_nil (limits : Limits) (accept : Sink σ) : DeliversRun limits accept [] := by
  intro start blank run n state hrun hl
  rw [complete, finish_eq, flush_eq_flushWith, flushWith_holding hrun, List.append_nil, pieces_run hrun]
  exact conclude_emit hl (fun _ => Or.inl rfl) state

section Characters

variable {c : Char} {cs : List Char}

/-- An idle scanner hands out the next character or starts a run with it. -/
theorem DeliversIdle.cons (hidle : DeliversIdle limits accept cs) (hrun : DeliversRun limits accept cs) (c : Char) :
    DeliversIdle limits accept (c :: cs) := by
  intro p n state
  have hlater : ¬(p.after c).Fits cs → ¬p.Fits (c :: cs) := fun h hp => h (Position.fits_cons.1 hp).2
  cases hs : standsAlone c with
  | true =>
    rw [complete, feed_eq_feedWith, feedWith_idle_of_standsAlone hs]
    rcases p.advance_or_fault c with hc | ⟨fault, hc⟩
    · rw [singleWith_eq hs hc, pieces_cons_of_standsAlone hs]
      have hl : [c].length ≤ limits.maxTokenLength := limits.tokenLength_pos
      exact (conclude_emit hl (fun state => hidle (p.after c) (n + 1) state) state).imp hlater
    · rw [singleWith_of_fault hc]
      exact Or.inr ⟨Position.not_fits_of_fault hc cs, fault, rfl⟩
  | false =>
    have hj := joins_isBlank hs
    rw [complete, feed_eq_feedWith, feedWith_idle_of_joins hj]
    rcases p.advance_or_fault c with hc | ⟨fault, hc⟩
    · rw [append_idle hc]
      exact (hrun p (isBlank c) [c] n state (isRun_singleton hj) limits.tokenLength_pos).imp hlater
    · rw [append_idle_of_fault hc]
      exact Or.inr ⟨Position.not_fits_of_fault hc cs, fault, rfl⟩

/-- A character that joins the pending run makes it longer, or too long. -/
theorem DeliversRun.joined (h : DeliversRun limits accept cs) {start : Position} {blank : Bool} {run : List Char}
    (hj : joins blank c) (hrun : IsRun blank run) (hl : run.length ≤ limits.maxTokenLength) (n : Nat) (state : σ) :
    Barring (¬(start.behind run).Fits (c :: cs))
      (complete limits accept ⟨some (holding start blank run), start.behind run, n⟩ state (c :: cs))
      ((deliver limits start n (pieces (run ++ c :: cs))).into accept state) := by
  have happ : run ++ c :: cs = (run ++ [c]) ++ cs := by simp
  rw [complete, feed_eq_feedWith, feedWith_holding_of_joins hj]
  rcases Nat.lt_or_eq_of_le hl with hl | hl
  · rcases (start.behind run).advance_or_fault c with hc | ⟨fault, hc⟩
    · have hnext : start.behind (run ++ [c]) = (start.behind run).after c := Position.behind_append start run [c]
      have hl' : (run ++ [c]).length ≤ limits.maxTokenLength := by
        rw [List.length_append]
        exact hl
      rw [append_holding hc hl, happ]
      refine (h start blank (run ++ [c]) n state (hrun.snoc hj) hl').imp fun hnot hp => hnot ?_
      rw [hnext]
      exact (Position.fits_cons.1 hp).2
    · rw [append_holding_of_fault hc hl]
      exact Or.inr ⟨Position.not_fits_of_fault hc cs, fault, rfl⟩
  · -- The run is full, so the piece it starts is too long and nothing of it is delivered.
    obtain ⟨more, rest, hpieces⟩ := exists_pieces_run_append cs (hrun.snoc hj)
    have hlong : limits.maxTokenLength < (run ++ [c] ++ more).length := by
      simp only [List.length_append, List.length_cons, List.length_nil]
      omega
    rw [append_full hl.symm, happ, hpieces, deliver, if_pos hlong]
    exact Or.inl rfl

/-- A character that does not join the pending run closes it and meets an idle scanner. -/
theorem DeliversIdle.closed (h : DeliversIdle limits accept (c :: cs)) {start : Position} {blank : Bool} {run : List Char}
    (hj : joins blank c = false) (hrun : IsRun blank run) (hl : run.length ≤ limits.maxTokenLength) (n : Nat) (state : σ) :
    Barring (¬(start.behind run).Fits (c :: cs))
      (complete limits accept ⟨some (holding start blank run), start.behind run, n⟩ state (c :: cs))
      ((deliver limits start n (pieces (run ++ c :: cs))).into accept state) := by
  have hfeed : complete limits accept ⟨some (holding start blank run), start.behind run, n⟩ state (c :: cs) =
      (emit limits accept ⟨none, start.behind run, n⟩ state (located start run)).conclude fun scanner state =>
        complete limits accept scanner state (c :: cs) := by
    rw [complete, feed_eq_feedWith, feedWith_holding_of_not_joins (keepsRun_emit limits accept) hj, flushWith_holding hrun]
    rcases emit limits accept ⟨none, start.behind run, n⟩ state (located start run) with
      ⟨scanner', state', _ | error⟩ <;> rfl
  rw [hfeed, pieces_run_append hrun (by simpa using hj)]
  exact conclude_emit hl (fun state => h (start.behind run) (n + 1) state) state

end Characters

/-- The rest of a scan delivers the pieces that are left. An idle scanner is in front of the first piece; a pending run is the start of
the first. -/
theorem complete_delivers (limits : Limits) (accept : Sink σ) (cs : List Char) :
    DeliversIdle limits accept cs ∧ DeliversRun limits accept cs := by
  induction cs with
  | nil => exact ⟨fun p n state => Or.inl rfl, deliversRun_nil limits accept⟩
  | cons c cs ih =>
    obtain ⟨ihIdle, ihRun⟩ := ih
    have hidle := ihIdle.cons ihRun c
    refine ⟨hidle, ?_⟩
    intro start blank run n state hrun hl
    cases hj : joins blank c with
    | true => exact ihRun.joined hj hrun hl n state
    | false => exact hidle.closed hj hrun hl n state

/-- A scan offers the sink the tokens of the delivery up to the first one that the sink refuses, and ends with the refusal or as
the delivery ends. Only where the text does not fit can it fault. -/
theorem scan_barring (limits : Limits) (accept : Sink σ) (state : σ) (source : String) :
    Barring (¬Position.start.Fits source.toList) (scan limits accept state source)
      ((delivery limits source).into accept state) := by
  rw [scan_eq_complete]
  exact (complete_delivers limits accept source.toList).1 .start 0 state

/-- A scan of a text that fits never faults. -/
theorem scan_eq_of_fits {source : String} (h : Position.start.Fits source.toList) (accept : Sink σ) (state : σ) :
    scan limits accept state source = .ok ((delivery limits source).into accept state) :=
  (scan_barring limits accept state source).resolve_right fun hfault => hfault.1 h

/-- A scan that returns is a delivery, whether or not the text fits. -/
theorem eq_into_of_scan {source : String} {state : σ} {outcome : Outcome σ}
    (h : scan limits accept state source = .ok outcome) : outcome = (delivery limits source).into accept state :=
  (scan_barring limits accept state source).eq_of_ok h

/-- A text below the bound fits, so no scan of it faults. -/
theorem scan_eq {source : String} (h : source.utf8ByteSize < sizeBound) (accept : Sink σ) (state : σ) :
    scan limits accept state source = .ok ((delivery limits source).into accept state) := by
  rw [← String.utf8Len_toList] at h
  exact scan_eq_of_fits (Position.fits_of_utf8Len_lt h) accept state

end Scanner

end Lexing
