import Lexing.Proofs.Lemmas.Delivery

/-!
# Scans that succeed

A scan into a sink that takes everything succeeds exactly when the text is within the limits and no place in it is out of range
(`scan_collect_eq_ok_iff`). So what is said of successful scans needs no bound on the size of the text. One direction is the
delivery in closed form. For the other, each character that the scanner takes moves its place by that character
(`advance_of_feed`), and a scan that succeeds has taken all of them.
-/

namespace Lexing

namespace Scanner

open CharClass

variable {σ : Type} {limits : Limits} {accept : Sink σ} {scanner : Scanner} {state : σ} {c : Char} {step : Step σ}

/-! ## The place of the scanner -/

theorem position_emit (scanner : Scanner) (state : σ) (token : Located Token) :
    (emit limits accept scanner state token).scanner.position = scanner.position := by
  unfold emit
  split
  · rfl
  · split <;> rfl

/-- Closing a run leaves the place as it is. -/
theorem position_flush (h : flush limits accept scanner state = .ok step) : step.scanner.position = scanner.position := by
  obtain ⟨_ | run, p, n⟩ := scanner
  · cases h
    rfl
  · unfold flush at h
    cases hc : closeRun run p with
    | error fault => simp [hc] at h
    | ok token =>
      simp only [hc, Except.ok.injEq] at h
      subst h
      exact position_emit _ _ _

theorem advance_of_append {blank : Bool} (h : append limits scanner state c blank = .ok step) (he : step.error = none) :
    scanner.position.advance c = .ok step.scanner.position := by
  obtain ⟨pending, p, n⟩ := scanner
  unfold append at h
  simp only at h
  split at h
  · cases h
    cases he
  · cases ha : p.advance c with
    | error fault => simp [ha] at h
    | ok q =>
      simp only [ha, Except.ok.injEq] at h
      subst h
      rfl

theorem advance_of_single (h : single limits accept scanner state c = .ok step) :
    scanner.position.advance c = .ok step.scanner.position := by
  obtain ⟨stop, hstop, h⟩ := exists_of_bind_eq_ok h
  obtain ⟨token, -, h⟩ := exists_of_bind_eq_ok h
  obtain ⟨span, -, h⟩ := exists_of_bind_eq_ok h
  obtain rfl := Except.ok.inj h
  rw [hstop, position_emit]

/-- What follows a flush starts at the scanner's place. -/
theorem advance_of_flush_then {next : Scanner → σ → Except Fault (Step σ)}
    (hn : ∀ {scanner state step}, next scanner state = .ok step → step.error = none →
      scanner.position.advance c = .ok step.scanner.position)
    (h : (match flush limits accept scanner state with
      | .ok ⟨scanner, state, none⟩ => next scanner state
      | outcome => outcome) = .ok step) (he : step.error = none) :
    scanner.position.advance c = .ok step.scanner.position := by
  rcases hf : flush limits accept scanner state with fault | ⟨scanner', state', _ | error⟩
  · simp [hf] at h
  · simp only [hf] at h
    rw [← position_flush hf]
    exact hn h he
  · simp only [hf, Except.ok.injEq] at h
    subst h
    cases he

/-- A character that is taken moves the scanner's place behind it. -/
theorem advance_of_feed (h : feed limits accept scanner state c = .ok step) (he : step.error = none) :
    scanner.position.advance c = .ok step.scanner.position := by
  unfold feed at h
  split at h
  · split at h
    · exact advance_of_append h he
    · exact advance_of_flush_then advance_of_append h he
  · split at h
    · exact advance_of_flush_then (fun hs _ => advance_of_single hs) h he
    · split at h
      · exact advance_of_flush_then advance_of_append h he
      · exact advance_of_append h he

/-- The rest of a scan can only succeed when the characters that are left fit behind the scanner's place. -/
theorem fits_of_complete {cs : List Char} {last : σ} {count : Nat}
    (h : complete limits accept scanner state cs = .ok ⟨last, .ok count⟩) : scanner.position.Fits cs := by
  induction cs generalizing scanner state with
  | nil => exact Position.fits_nil _
  | cons c cs ih =>
    rw [complete] at h
    rcases hf : feed limits accept scanner state c with fault | ⟨scanner', state', _ | error⟩
    · simp [hf, Except.bind] at h
    · simp only [hf, Except.bind, Step.conclude] at h
      have hc := advance_of_feed hf rfl
      obtain ⟨hq, -⟩ := Position.advance_eq_ok_iff.1 hc
      have hcs := ih h
      simp only at hc hq
      rw [hq] at hc hcs
      exact Position.fits_cons.2 ⟨hc, hcs⟩
    · simp [hf, Except.bind, Step.conclude] at h

/-- A scan can only succeed when the text fits. -/
theorem fits_of_scan {source : String} {last : σ} {count : Nat}
    (h : scan limits accept state source = .ok ⟨last, .ok count⟩) : Position.start.Fits source.toList := by
  rw [scan_eq_complete] at h
  exact fits_of_complete h

end Scanner

namespace Segmentation

variable {limits : Limits}

/-- What a scan can take in full: no place in the text is out of range, no piece is too long, and the pieces are not too many. -/
structure Within (limits : Limits) (cs : List Char) : Prop where
  fits : Position.start.Fits cs
  length_le : ∀ piece ∈ pieces cs, piece.length ≤ limits.maxTokenLength
  count_le : (pieces cs).length ≤ limits.maxTokenCount

/-- A delivery ends well only when all pieces are within the limits. -/
theorem within_of_ending {split : List (List Char)} {count : Nat} (h : (ending limits split).2 = .ok count) :
    (∀ piece ∈ split, piece.length ≤ limits.maxTokenLength) ∧ split.length ≤ limits.maxTokenCount := by
  unfold ending at h
  split at h
  · split at h <;> cases h
  · rename_i hnone
    split at h
    · rename_i hcount
      refine ⟨fun piece hp => ?_, hcount⟩
      simpa using List.findIdx?_eq_none_iff.1 hnone piece hp
    · cases h

/-- A delivery that ends well is of all pieces, and counts them. -/
theorem delivery_eq_of_result {source : String} {count : Nat} (h : (delivery limits source).result = .ok count) :
    delivery limits source = ⟨tokensFrom .start (pieces source.toList), .ok (pieces source.toList).length⟩ := by
  rw [delivery, deliver_eq] at h
  obtain ⟨hlength, hcount⟩ := within_of_ending h
  exact deliver_all hlength hcount .start

/-- A text within the limits is delivered in full. -/
theorem Within.delivery_eq {source : String} (h : Within limits source.toList) :
    delivery limits source = ⟨tokensFrom .start (pieces source.toList), .ok (pieces source.toList).length⟩ :=
  deliver_all h.length_le h.count_le .start

/-- A scan into any sink can only succeed for a text within the limits. -/
theorem within_of_scan {σ : Type} {accept : Sink σ} {state last : σ} {source : String} {count : Nat}
    (h : Scanner.scan limits accept state source = .ok ⟨last, .ok count⟩) : Within limits source.toList := by
  have hfits := Scanner.fits_of_scan h
  rw [Scanner.scan_eq_of_fits hfits, Except.ok.injEq] at h
  have hresult : (delivery limits source).result = .ok count := by
    unfold Delivery.into at h
    split at h
    · exact congrArg Scanner.Outcome.result h
    · cases congrArg Scanner.Outcome.result h
  rw [delivery, deliver_eq] at hresult
  obtain ⟨hlength, hcount⟩ := within_of_ending hresult
  exact ⟨hfits, hlength, hcount⟩

/-- A scan into a sink that takes everything succeeds exactly for the texts within the limits, and then delivers a token for each
piece. -/
theorem scan_collect_eq_ok_iff {source : String} {tokens : Array (Located Token)} {count : Nat} :
    Scanner.scan limits Sink.collect #[] source = .ok ⟨tokens, .ok count⟩ ↔
      Within limits source.toList ∧ tokens = (tokensFrom .start (pieces source.toList)).toArray ∧
        count = (pieces source.toList).length := by
  have hscan : Within limits source.toList → Scanner.scan limits Sink.collect #[] source =
      .ok ⟨(tokensFrom .start (pieces source.toList)).toArray, .ok (pieces source.toList).length⟩ := by
    intro hwithin
    rw [Scanner.scan_eq_of_fits hwithin.fits, Delivery.into, Sink.offer_collect, hwithin.delivery_eq]
    simp
  constructor
  · intro h
    have hwithin := within_of_scan h
    rw [hscan hwithin] at h
    cases h
    exact ⟨hwithin, rfl, rfl⟩
  · rintro ⟨hwithin, rfl, rfl⟩
    exact hscan hwithin

/-- A scan that succeeds counts the tokens that were kept. -/
theorem count_eq_of_scan_collect {source : String} {tokens : Array (Located Token)} {count : Nat}
    (h : Scanner.scan limits Sink.collect #[] source = .ok ⟨tokens, .ok count⟩) : count = tokens.size := by
  obtain ⟨-, rfl, rfl⟩ := scan_collect_eq_ok_iff.1 h
  rw [List.size_toArray, length_tokensFrom]

end Segmentation

end Lexing
