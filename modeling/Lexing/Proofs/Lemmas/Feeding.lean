import Lexing.Proofs.Lemmas.Calls
import Lexing.Proofs.Lemmas.Delivery

/-!
# Feeding past errors

A scanner may be fed on after an error. To say what it has done by then, `Feeding` keeps two lists beside it: every token that was
handed out, with what became of it (`emitLogged`), and the characters that were consumed (`consumes`).

`Balanced` says how the lists and the scanner hang together: the tokens are those of some pieces, the consumed characters are these
pieces and the run that is pending, and the scanner stands behind them. One character keeps the balance whatever the sink answers
(`Balanced.feed`), and so do all of them (`Balanced.run`).
-/

namespace Lexing

/-- What became of a token that was handed out. -/
inductive Fate where
  | taken
  /-- The sink refused it. -/
  | refused (error : ScanError)
  /-- The sink had had as many as it may get, and was not asked. -/
  | surplus
deriving DecidableEq, Repr, Inhabited

/-- A token that was handed out. -/
structure Handout where
  token : Located Token
  fate : Fate
deriving DecidableEq, Repr, Inhabited

namespace Handout

/-- Whether the sink took the token. -/
def isTaken (handout : Handout) : Bool := handout.fate = .taken

/-- The call that the sink got for the token. -/
def call? (handout : Handout) : Option (Located Token × Option ScanError) :=
  match handout.fate with
  | .taken => some (handout.token, none)
  | .refused error => some (handout.token, some error)
  | .surplus => none

end Handout

/-- A scanner and its sink, what has been handed out, and the characters consumed. -/
structure Feeding (σ : Type) where
  scanner : Scanner
  sink : σ
  handed : List Handout
  consumed : List Char

namespace Scanner

open CharClass Segmentation

variable {σ : Type} {limits : Limits} {accept : Sink σ}

/-- What becomes of a token that is handed out. -/
def fateOf (limits : Limits) (accept : Sink σ) (scanner : Scanner) (state : σ) (token : Located Token) : Fate :=
  if limits.maxTokenCount ≤ scanner.emitted then .surplus
  else
    match (accept state token).2 with
    | none => .taken
    | some error => .refused error

/-- Hands a token to the sink and writes down what became of it. -/
def emitLogged (limits : Limits) (accept : Sink σ) : Handing (σ × List Handout) := fun scanner (state, handed) token =>
  let step := emit limits accept scanner state token
  ⟨step.scanner, (step.sink, handed ++ [⟨token, fateOf limits accept scanner state token⟩]), step.error⟩

theorem keepsRun_emitLogged (limits : Limits) (accept : Sink σ) : (emitLogged limits accept).KeepsRun :=
  fun scanner state token => keepsRun_emit limits accept scanner state.1 token

/-- Feeds characters one by one, and goes on after errors. -/
def feedOn (limits : Limits) (accept : Sink σ) (scanner : Scanner) (state : σ) : List Char → Except Fault (Scanner × σ)
  | [] => .ok (scanner, state)
  | c :: rest =>
    match feed limits accept scanner state c with
    | .error fault => .error fault
    | .ok step => feedOn limits accept step.scanner step.sink rest

theorem feedOn_cons {scanner : Scanner} {state : σ} {c : Char} {step : Step σ}
    (h : feed limits accept scanner state c = .ok step) (cs : List Char) :
    feedOn limits accept scanner state (c :: cs) = feedOn limits accept step.scanner step.sink cs := by
  rw [feedOn, h]

/-- A character is consumed when its feed ends without an error, or when it stands alone, the pending run was closed without an error,
and so only its own token met one. -/
def consumes (limits : Limits) (accept : Sink σ) (scanner : Scanner) (state : σ) (c : Char) : Bool :=
  match feed limits accept scanner state c with
  | .error _ => false
  | .ok step =>
    step.error.isNone ||
      standsAlone c && match flush limits accept scanner state with
        | .error _ => false
        | .ok closed => closed.error.isNone

end Scanner

namespace Feeding

open CharClass Segmentation Scanner

variable {σ : Type} {limits : Limits} {accept : Sink σ} {feeding : Feeding σ}

/-- A scanner in front of a text. -/
def fresh (state : σ) : Feeding σ := ⟨Scanner.fresh, state, [], []⟩

/-- The tokens that were handed out. -/
def tokens (feeding : Feeding σ) : List (Located Token) := feeding.handed.map Handout.token

/-- The calls that the sink got. -/
def calls (feeding : Feeding σ) : Calls := feeding.handed.filterMap Handout.call?

/-- Feeds one character. -/
def feed (limits : Limits) (accept : Sink σ) (feeding : Feeding σ) (c : Char) : Except Fault (Feeding σ) :=
  (feedWith limits (emitLogged limits accept) feeding.scanner (feeding.sink, feeding.handed) c).map fun step =>
    ⟨step.scanner, step.sink.1, step.sink.2,
      if consumes limits accept feeding.scanner feeding.sink c then feeding.consumed ++ [c] else feeding.consumed⟩

/-- Feeds characters one by one, and goes on after errors. -/
def run (limits : Limits) (accept : Sink σ) (feeding : Feeding σ) (cs : List Char) : Except Fault (Feeding σ) :=
  cs.foldlM (feed limits accept) feeding

/-! ## The lists change nothing -/

/-- Without the list of what was handed out, a feed is the scanner's own. -/
theorem feed_eq_map_fst (scanner : Scanner) (state : σ × List Handout) (c : Char) :
    Scanner.feed limits accept scanner state.1 c =
      (feedWith limits (emitLogged limits accept) scanner state c).map (Step.map Prod.fst) :=
  feedWith_map (fun _ _ _ => rfl) scanner state c

/-- The state of a sink and the calls among what was handed out. -/
def seen (state : σ × List Handout) : σ × Calls := (state.1, state.2.filterMap Handout.call?)

/-- A sink that writes down its calls is handed a token as the list has it. -/
theorem emit_observed_eq (scanner : Scanner) (state : σ × List Handout) (token : Located Token) :
    emit limits accept.observed scanner (seen state) token =
      (emitLogged limits accept scanner state token).map seen := by
  obtain ⟨state, handed⟩ := state
  unfold emitLogged fateOf emit
  split
  · simp [Step.map, seen, Handout.call?]
  · rcases ha : accept state token with ⟨after, _ | error⟩ <;> simp [Step.map, seen, Handout.call?, Sink.observed, ha]

/-- A sink that writes down its calls sees those among what was handed out. -/
theorem feed_observed_eq (scanner : Scanner) (state : σ × List Handout) (c : Char) :
    Scanner.feed limits accept.observed scanner (seen state) c =
      (feedWith limits (emitLogged limits accept) scanner state c).map (Step.map seen) :=
  feedWith_map emit_observed_eq scanner state c

/-- The lists beside a scanner change nothing that it does, and the calls among what was handed out are those that the sink got. -/
theorem feedOn_eq_of_run {cs : List Char} {last : Feeding σ} (h : feeding.run limits accept cs = .ok last) :
    feedOn limits accept feeding.scanner feeding.sink cs = .ok (last.scanner, last.sink) ∧
      feedOn limits accept.observed feeding.scanner (feeding.sink, feeding.calls) cs =
        .ok (last.scanner, (last.sink, last.calls)) := by
  induction cs generalizing feeding with
  | nil =>
    cases h
    exact ⟨rfl, rfl⟩
  | cons c cs ih =>
    rw [run, List.foldlM_cons] at h
    obtain ⟨next, hnext, h⟩ := exists_of_bind_eq_ok h
    obtain ⟨hplain, hseen⟩ := ih h
    have hfeed : Scanner.feed limits accept feeding.scanner feeding.sink c = _ :=
      feed_eq_map_fst feeding.scanner (feeding.sink, feeding.handed) c
    have hobserved : Scanner.feed limits accept.observed feeding.scanner (feeding.sink, feeding.calls) c = _ :=
      feed_observed_eq feeding.scanner (feeding.sink, feeding.handed) c
    unfold Feeding.feed at hnext
    cases hstep : feedWith limits (emitLogged limits accept) feeding.scanner (feeding.sink, feeding.handed) c with
    | error fault => simp [hstep, Except.map] at hnext
    | ok step =>
      simp only [hstep, Except.map, Except.ok.injEq] at hnext hfeed hobserved
      subst hnext
      exact ⟨(feedOn_cons hfeed cs).trans hplain, (feedOn_cons hobserved cs).trans hseen⟩

/-! ## The balance -/

/-- A scanner between two pieces: all that was consumed is the pieces in front. -/
def between (sink : σ) (handed : List Handout) (split : List (List Char)) (emitted : Nat) : Feeding σ :=
  ⟨⟨none, Position.start.behind split.flatten, emitted⟩, sink, handed, split.flatten⟩

/-- A scanner in a run: what was consumed is the pieces in front and the characters of the run. -/
def inside (sink : σ) (handed : List Handout) (split : List (List Char)) (emitted : Nat) (blank : Bool) (piece : List Char) :
    Feeding σ :=
  ⟨⟨some (holding (Position.start.behind split.flatten) blank piece), (Position.start.behind split.flatten).behind piece,
      emitted⟩, sink, handed, split.flatten ++ piece⟩

/-- A scanner that has just handed out the next piece. -/
def behind (sink : σ) (handed : List Handout) (split : List (List Char)) (emitted : Nat) (piece : List Char) : Feeding σ :=
  ⟨⟨none, (Position.start.behind split.flatten).behind piece, emitted⟩, sink, handed, split.flatten ++ piece⟩

/-- What was handed out is the tokens of some pieces in order, and the scanner has counted those that were taken. -/
structure Ledger (limits : Limits) (handed : List Handout) (split : List (List Char)) (emitted : Nat) : Prop where
  tokens_eq : handed.map Handout.token = tokensFrom .start split
  ne_nil : ∀ piece ∈ split, piece ≠ []
  countP_eq : handed.countP Handout.isTaken = emitted
  emitted_le : emitted ≤ limits.maxTokenCount

/-- The scanner stands behind the characters consumed: these are the pieces that were handed out and, when a run is pending, the
characters of the run, which are of one sort and not too many. -/
inductive Balanced (limits : Limits) : Feeding σ → Prop
  | between {handed split emitted} (sink : σ) (ledger : Ledger limits handed split emitted) :
    Balanced limits (between sink handed split emitted)
  | inside {handed split emitted blank piece} (sink : σ) (ledger : Ledger limits handed split emitted)
      (isRun : IsRun blank piece) (length_le : piece.length ≤ limits.maxTokenLength) :
    Balanced limits (inside sink handed split emitted blank piece)

theorem balanced_fresh (limits : Limits) (state : σ) : Balanced limits (fresh state) :=
  have ledger : Ledger limits [] [] 0 := ⟨rfl, fun _ h => absurd h List.not_mem_nil, rfl, Nat.zero_le _⟩
  .between state ledger

variable {sink : σ} {handed : List Handout} {split : List (List Char)} {emitted : Nat} {blank : Bool} {piece : List Char}
  {c : Char}

/-- One more token of the next piece keeps the ledger, when the count goes up exactly if it was taken. -/
theorem Ledger.snoc (h : Ledger limits handed split emitted) (hp : piece ≠ []) {fate : Fate} {n : Nat}
    (hn : n = emitted + if fate = .taken then 1 else 0) (hle : n ≤ limits.maxTokenCount) :
    Ledger limits (handed ++ [⟨located (Position.start.behind split.flatten) piece, fate⟩]) (split ++ [piece]) n := by
  refine ⟨?_, ?_, ?_, hle⟩
  · rw [List.map_append, h.tokens_eq, tokensFrom_append]
    rfl
  · intro q hq
    rcases List.mem_append.1 hq with hq | hq
    · exact h.ne_nil q hq
    · exact List.mem_singleton.1 hq ▸ hp
  · rw [List.countP_append, h.countP_eq, hn, List.countP_singleton]
    simp [Handout.isTaken]

/-- Handing out the token of the next piece keeps the ledger, whatever becomes of the token. -/
theorem Ledger.emit (h : Ledger limits handed split emitted) (hp : piece ≠ []) (stop : Position) (accept : Sink σ) (sink : σ) :
    ∃ n after handed' error, emitLogged limits accept ⟨none, stop, emitted⟩ (sink, handed)
        (located (Position.start.behind split.flatten) piece) = ⟨⟨none, stop, n⟩, (after, handed'), error⟩ ∧
      Ledger limits handed' (split ++ [piece]) n := by
  by_cases hfull : limits.maxTokenCount ≤ emitted
  · have hn : emitted = emitted + if Fate.surplus = .taken then 1 else 0 := rfl
    refine ⟨emitted, sink, _, some (.tooManyTokens (emitted + 1)), ?_, h.snoc hp hn h.emitted_le⟩
    simp [emitLogged, fateOf, Scanner.emit, hfull]
  · rcases ha : accept sink (located (Position.start.behind split.flatten) piece) with ⟨after, _ | error⟩
    · have hn : emitted + 1 = emitted + if Fate.taken = .taken then 1 else 0 := rfl
      refine ⟨emitted + 1, after, _, none, ?_, h.snoc hp hn (Nat.lt_of_not_le hfull)⟩
      simp [emitLogged, fateOf, Scanner.emit, hfull, ha]
    · have hn : emitted = emitted + if Fate.refused error = .taken then 1 else 0 := rfl
      refine ⟨emitted, after, _, some error, ?_, h.snoc hp hn h.emitted_le⟩
      simp [emitLogged, fateOf, Scanner.emit, hfull, ha]

/-- A scanner that has handed out the next piece is balanced. -/
theorem Ledger.balanced (h : Ledger limits handed (split ++ [piece]) emitted) (sink : σ) :
    Balanced limits (behind sink handed split emitted piece) := by
  have hflatten : (split ++ [piece]).flatten = split.flatten ++ piece := by simp
  have hbalanced := Balanced.between sink h
  rw [Feeding.between, hflatten, Position.behind_append] at hbalanced
  exact hbalanced

/-! ## One character -/

/-- The feed of a character that is consumed. -/
theorem feed_of_consumes {step : Step (σ × List Handout)}
    (h : feedWith limits (emitLogged limits accept) feeding.scanner (feeding.sink, feeding.handed) c = .ok step)
    (hc : consumes limits accept feeding.scanner feeding.sink c) :
    feeding.feed limits accept c = .ok ⟨step.scanner, step.sink.1, step.sink.2, feeding.consumed ++ [c]⟩ := by
  rw [Feeding.feed, h, if_pos hc]
  rfl

/-- The feed of a character that is not consumed. -/
theorem feed_of_not_consumes {step : Step (σ × List Handout)}
    (h : feedWith limits (emitLogged limits accept) feeding.scanner (feeding.sink, feeding.handed) c = .ok step)
    (hc : ¬consumes limits accept feeding.scanner feeding.sink c) :
    feeding.feed limits accept c = .ok ⟨step.scanner, step.sink.1, step.sink.2, feeding.consumed⟩ := by
  rw [Feeding.feed, h, if_neg hc]
  rfl

/-- Two scanners that do the same with a character and have consumed the same do so afterwards. -/
theorem feed_congr {other : Feeding σ}
    (h : feedWith limits (emitLogged limits accept) feeding.scanner (feeding.sink, feeding.handed) c =
      feedWith limits (emitLogged limits accept) other.scanner (other.sink, other.handed) c)
    (hc : consumes limits accept feeding.scanner feeding.sink c = consumes limits accept other.scanner other.sink c)
    (he : feeding.consumed = other.consumed) : feeding.feed limits accept c = other.feed limits accept c := by
  rw [Feeding.feed, Feeding.feed, h, hc, he]

/-- An idle scanner consumes each character. -/
theorem consumes_idle {p : Position} (hc : p.advance c = .ok (p.after c)) (n : Nat) (state : σ) :
    consumes limits accept ⟨none, p, n⟩ state c := by
  unfold consumes
  cases hs : standsAlone c with
  | true =>
    rw [feed_eq_feedWith, feedWith_idle_of_standsAlone hs, singleWith_eq hs hc]
    simp [flush]
  | false =>
    rw [feed_eq_feedWith, feedWith_idle_of_joins (joins_isBlank hs), append_idle hc]
    rfl

/-- Between two pieces the scanner consumes the next character and stays balanced. -/
theorem Balanced.feed_of_idle (h : Balanced limits feeding) (hidle : feeding.scanner.pending = none)
    (hc : feeding.scanner.position.advance c = .ok (feeding.scanner.position.after c)) (accept : Sink σ) :
    ∃ next, feeding.feed limits accept c = .ok next ∧ Balanced limits next ∧
      next.consumed = feeding.consumed ++ [c] := by
  cases h with
  | inside => cases hidle
  | @between handed split emitted sink ledger =>
    have hconsumes : consumes limits accept (Feeding.between sink handed split emitted).scanner sink c :=
      consumes_idle hc emitted sink
    cases hs : standsAlone c with
    | true =>
      obtain ⟨n, after, handed', error, hemit, hledger⟩ :=
        ledger.emit (List.cons_ne_nil c []) ((Position.start.behind split.flatten).behind [c]) accept sink
      have hstep : feedWith limits (emitLogged limits accept) (Feeding.between sink handed split emitted).scanner
          (sink, handed) c = .ok ⟨(Feeding.behind after handed' split n [c]).scanner, (after, handed'), error⟩ := by
        rw [Feeding.between, feedWith_idle_of_standsAlone hs, singleWith_eq hs (by exact hc), hemit]
        rfl
      exact ⟨_, feed_of_consumes hstep hconsumes, hledger.balanced after, rfl⟩
    | false =>
      have hj := joins_isBlank hs
      have hstep : feedWith limits (emitLogged limits accept) (Feeding.between sink handed split emitted).scanner
          (sink, handed) c =
            .ok ⟨(Feeding.inside sink handed split emitted (isBlank c) [c]).scanner, (sink, handed), none⟩ := by
        rw [Feeding.between, feedWith_idle_of_joins hj, append_idle (by exact hc)]
        rfl
      exact ⟨_, feed_of_consumes hstep hconsumes, .inside sink ledger (isRun_singleton hj) limits.tokenLength_pos, rfl⟩

/-- A run that is not full consumes a character that joins it. -/
theorem feed_inside_of_joins (hj : joins blank c) (hl : piece.length < limits.maxTokenLength)
    (hc : ((Position.start.behind split.flatten).behind piece).advance c =
      .ok (((Position.start.behind split.flatten).behind piece).after c)) :
    (inside sink handed split emitted blank piece).feed limits accept c =
      .ok (inside sink handed split emitted blank (piece ++ [c])) := by
  have hstep : ∀ {τ : Type} (hand : Handing τ) (state : τ), feedWith limits hand
      (inside sink handed split emitted blank piece).scanner state c =
        .ok ⟨(inside sink handed split emitted blank (piece ++ [c])).scanner, state, none⟩ := fun hand state =>
    (feedWith_holding_of_joins hj _ piece _ emitted state).trans (append_holding hc hl emitted state)
  have hconsumes : consumes limits accept (inside sink handed split emitted blank piece).scanner sink c := by
    rw [consumes, feed_eq_feedWith, hstep]
    rfl
  rw [feed_of_consumes (hstep _ _) hconsumes]
  simp [inside]

/-- A full run consumes no character that joins it. -/
theorem feed_inside_of_full (hj : joins blank c) (hl : limits.maxTokenLength = piece.length) :
    (inside sink handed split emitted blank piece).feed limits accept c =
      .ok (inside sink handed split emitted blank piece) := by
  have hstep : ∀ {τ : Type} (hand : Handing τ) (state : τ), feedWith limits hand
      (inside sink handed split emitted blank piece).scanner state c =
        .ok ⟨(inside sink handed split emitted blank piece).scanner, state,
          some (.tokenTooLong (limits.maxTokenLength + 1) (Position.start.behind split.flatten))⟩ := fun hand state =>
    (feedWith_holding_of_joins hj _ piece _ emitted state).trans (append_full hl emitted state)
  have hconsumes : ¬consumes limits accept (inside sink handed split emitted blank piece).scanner sink c := by
    rw [consumes, feed_eq_feedWith, hstep]
    simp [not_standsAlone_of_joins hj]
  exact feed_of_not_consumes (hstep _ _) hconsumes

/-- A character that does not join a run hands it out. After an error that is all, and the character is not consumed. Otherwise the
character is fed to the idle scanner that is left. -/
theorem feed_inside_of_not_joins (hj : joins blank c = false) (hrun : IsRun blank piece) {n : Nat} {after : σ}
    {handed' : List Handout} {error : Option ScanError}
    (hemit : emitLogged limits accept ⟨none, (Position.start.behind split.flatten).behind piece, emitted⟩ (sink, handed)
      (located (Position.start.behind split.flatten) piece) =
        ⟨(behind after handed' split n piece).scanner, (after, handed'), error⟩) :
    (inside sink handed split emitted blank piece).feed limits accept c =
      if error.isNone then (behind after handed' split n piece).feed limits accept c
      else .ok (behind after handed' split n piece) := by
  have hplain : emit limits accept ⟨none, (Position.start.behind split.flatten).behind piece, emitted⟩ sink
      (located (Position.start.behind split.flatten) piece) = ⟨(behind after handed' split n piece).scanner, after, error⟩ :=
    congrArg (Step.map Prod.fst) hemit
  have hflush : flush limits accept (inside sink handed split emitted blank piece).scanner sink =
      .ok ⟨(behind after handed' split n piece).scanner, after, error⟩ := by
    rw [inside, flush_eq_flushWith, flushWith_holding hrun, hplain]
  have hfeed : Scanner.feed limits accept (inside sink handed split emitted blank piece).scanner sink c = _ :=
    feedWith_holding_of_not_joins (keepsRun_emit limits accept) hj _ piece _ emitted sink
  have hlogged : feedWith limits (emitLogged limits accept) (inside sink handed split emitted blank piece).scanner
      (sink, handed) c = _ :=
    feedWith_holding_of_not_joins (keepsRun_emitLogged limits accept) hj _ piece _ emitted (sink, handed)
  rw [flushWith_holding hrun, hplain] at hfeed
  rw [flushWith_holding hrun, hemit] at hlogged
  cases error with
  | none =>
    have hconsumes : consumes limits accept (inside sink handed split emitted blank piece).scanner sink c =
        consumes limits accept (behind after handed' split n piece).scanner after c := by
      rw [consumes, hfeed, hflush]
      rfl
    exact feed_congr hlogged hconsumes rfl
  | some error =>
    have hconsumes : ¬consumes limits accept (inside sink handed split emitted blank piece).scanner sink c := by
      rw [consumes, hfeed, hflush]
      simp
    exact feed_of_not_consumes hlogged hconsumes

/-- One character keeps the balance, whatever the sink answers; it is consumed or leaves the characters consumed as they were. -/
theorem Balanced.feed (h : Balanced limits feeding)
    (hc : feeding.scanner.position.advance c = .ok (feeding.scanner.position.after c)) (accept : Sink σ) :
    ∃ next, feeding.feed limits accept c = .ok next ∧ Balanced limits next ∧
      (next.consumed = feeding.consumed ∨ next.consumed = feeding.consumed ++ [c]) := by
  cases h with
  | @between handed split emitted sink ledger =>
    obtain ⟨next, hnext, hbalanced, hconsumed⟩ := (Balanced.between sink ledger).feed_of_idle rfl hc accept
    exact ⟨next, hnext, hbalanced, Or.inr hconsumed⟩
  | @inside handed split emitted blank piece sink ledger isRun length_le =>
    cases hj : joins blank c with
    | true =>
      rcases Nat.lt_or_eq_of_le length_le with hl | hl
      · have hl' : (piece ++ [c]).length ≤ limits.maxTokenLength := by
          rw [List.length_append]
          exact hl
        exact ⟨_, feed_inside_of_joins hj hl hc, .inside sink ledger (isRun.snoc hj) hl',
          Or.inr (List.append_assoc _ _ _).symm⟩
      · exact ⟨_, feed_inside_of_full hj hl.symm, .inside sink ledger isRun length_le, Or.inl rfl⟩
    | false =>
      obtain ⟨n, after, handed', error, hemit, hledger⟩ :=
        ledger.emit isRun.ne_nil ((Position.start.behind split.flatten).behind piece) accept sink
      have hfeed := feed_inside_of_not_joins hj isRun hemit
      cases error with
      | none =>
        obtain ⟨next, hnext, hbalanced, hconsumed⟩ := (hledger.balanced after).feed_of_idle rfl hc accept
        exact ⟨next, hfeed.trans hnext, hbalanced, Or.inr hconsumed⟩
      | some error => exact ⟨_, hfeed, hledger.balanced after, Or.inl rfl⟩

/-! ## All characters -/

/-- The place of a scanner that is balanced is behind the characters consumed. -/
theorem Balanced.position_eq (h : Balanced limits feeding) :
    feeding.scanner.position = Position.start.behind feeding.consumed := by
  cases h with
  | between => rfl
  | inside => exact (Position.behind_append _ _ _).symm

/-- Characters keep the balance, as long as the whole is below the bound. -/
theorem Balanced.run (h : Balanced limits feeding) {cs : List Char}
    (hb : String.utf8Len (feeding.consumed ++ cs) < sizeBound) (accept : Sink σ) :
    ∃ last, feeding.run limits accept cs = .ok last ∧ Balanced limits last ∧ String.utf8Len last.consumed < sizeBound := by
  induction cs generalizing feeding with
  | nil => exact ⟨feeding, rfl, h, by rwa [List.append_nil] at hb⟩
  | cons c cs ih =>
    rw [String.utf8Len_append, String.utf8Len_cons] at hb
    have hc : feeding.scanner.position.advance c = .ok (feeding.scanner.position.after c) := by
      rw [h.position_eq]
      refine (Position.regular_start.behind feeding.consumed).advance_eq ?_
      rw [Position.offset_after, Position.offset_start_behind]
      omega
    obtain ⟨next, hnext, hbalanced, hconsumed⟩ := h.feed hc accept
    have hb' : String.utf8Len (next.consumed ++ cs) < sizeBound := by
      rcases hconsumed with he | he
      · rw [he, String.utf8Len_append]
        omega
      · rw [he, String.utf8Len_append, String.utf8Len_append, String.utf8Len_cons]
        simp only [String.utf8Len_nil]
        omega
    obtain ⟨last, hlast, hrest⟩ := ih hbalanced hb'
    refine ⟨last, ?_, hrest⟩
    rw [Feeding.run, List.foldlM_cons, hnext]
    exact hlast

end Feeding

end Lexing
