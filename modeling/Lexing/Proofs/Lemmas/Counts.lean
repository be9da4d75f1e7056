import Lexing.Analysis.Analyzer
import Lexing.Proofs.Lemmas.Calls
import Lexing.Proofs.Lemmas.Delivery
import Lexing.Proofs.Lemmas.Tables

/-!
# Counts

Each count of an analysis counts some of the tokens that the sink took, and no text has more tokens than characters. So the counts
are bounded by the length of the text (`exists_scan_bounded`), whatever the sink takes and refuses.
-/

namespace Lexing

namespace Metrics

/-- The counts of some tokens, at most so many: each of the counts is of some of these, and so is each entry of the tally. -/
structure Bounded (most : Nat) (metrics : Metrics) : Prop where
  total_le : metrics.total ≤ most
  blanks_le : metrics.blanks ≤ metrics.total
  signals_le : metrics.signals ≤ metrics.total
  literals_le : metrics.literals ≤ metrics.total
  tally_le : metrics.tally.total ≤ metrics.total
  entries_le : ∀ entry ∈ metrics.tally.entries, entry.2 ≤ metrics.tally.total

variable {most : Nat} {metrics : Metrics}

theorem bounded_start (characters : Nat) : (start characters).Bounded 0 :=
  ⟨Nat.le_refl 0, Nat.le_refl 0, Nat.le_refl 0, Nat.le_refl 0, Nat.le_refl 0, fun _ h => absurd h List.not_mem_nil⟩

theorem Bounded.mono (h : metrics.Bounded most) {more : Nat} (hle : most ≤ more) : metrics.Bounded more :=
  { h with total_le := Nat.le_trans h.total_le hle }

theorem bump_le {count total : Nat} (h : count ≤ total) (condition : Bool) : bump count condition ≤ total + 1 := by
  unfold bump
  split <;> omega

/-- Counting one more token of a kind keeps each entry of a tally within its total. -/
theorem entries_record_le {tally : Tally} (h : ∀ entry ∈ tally.entries, entry.2 ≤ tally.total) (kind : Kind) :
    ∀ entry ∈ (tally.record kind).entries, entry.2 ≤ (tally.record kind).total := by
  intro entry he
  rcases Assoc.of_mem_alter he with he | rfl | ⟨old, ho, rfl⟩
  · exact Nat.le_succ_of_le (h entry he)
  · exact Nat.succ_le_succ (Nat.zero_le _)
  · exact Nat.succ_le_succ (h old ho)

/-- Counting one more token. -/
theorem Bounded.record (h : metrics.Bounded most) (settings : AnalysisSettings) (token : Token) :
    (metrics.record settings token).Bounded (most + 1) := by
  refine ⟨Nat.succ_le_succ h.total_le, bump_le h.blanks_le _, bump_le h.signals_le _, bump_le h.literals_le _, ?_, ?_⟩
  · simp only [Metrics.record]
    split
    · exact Nat.succ_le_succ h.tally_le
    · exact Nat.le_succ_of_le h.tally_le
  · simp only [Metrics.record]
    split
    · exact entries_record_le h.entries_le _
    · exact h.entries_le

/-! ## The counts of a text -/

/-- The counts of some tokens of a text. -/
def ofTokens (settings : AnalysisSettings) (characters : Nat) (tokens : List (Located Token)) : Metrics :=
  tokens.foldl (fun metrics token => metrics.record settings token.value) (start characters)

theorem total_foldl (settings : AnalysisSettings) (metrics : Metrics) (tokens : List (Located Token)) :
    (tokens.foldl (fun metrics token => metrics.record settings token.value) metrics).total = metrics.total + tokens.length := by
  induction tokens generalizing metrics with
  | nil => rfl
  | cons token rest ih =>
    rw [List.foldl_cons, ih, List.length_cons]
    simp only [Metrics.record]
    omega

theorem total_ofTokens (settings : AnalysisSettings) (characters : Nat) (tokens : List (Located Token)) :
    (ofTokens settings characters tokens).total = tokens.length := by
  rw [ofTokens, total_foldl]
  exact Nat.zero_add _

theorem Bounded.foldl {most : Nat} {metrics : Metrics} (h : metrics.Bounded most) (settings : AnalysisSettings)
    (tokens : List (Located Token)) :
    (tokens.foldl (fun metrics token => metrics.record settings token.value) metrics).Bounded (most + tokens.length) := by
  induction tokens generalizing most metrics with
  | nil => exact h
  | cons token rest ih =>
    rw [List.foldl_cons, List.length_cons]
    exact (ih (h.record settings token.value)).mono (by omega)

/-- The counts of some tokens tell how many of them are not blank runs. -/
theorem exists_significant_ofTokens (settings : AnalysisSettings) (characters : Nat) (tokens : List (Located Token)) :
    ∃ significant, (ofTokens settings characters tokens).significant = .ok significant :=
  ⟨_, if_pos ((bounded_start characters).foldl settings tokens).blanks_le⟩

end Metrics

namespace Segmentation

/-- There are no more pieces than characters. -/
theorem length_pieces_le (cs : List Char) : (pieces cs).length ≤ cs.length := by
  have hsplit : ∀ split : List (List Char), (∀ piece ∈ split, piece ≠ []) → split.length ≤ split.flatten.length := by
    intro split hs
    induction split with
    | nil => exact Nat.le_refl 0
    | cons piece rest ih =>
      have hp := List.length_pos_iff.2 (hs piece List.mem_cons_self)
      have hrest := ih fun q hq => hs q (List.mem_cons_of_mem piece hq)
      rw [List.length_cons, List.flatten_cons, List.length_append]
      omega
  have h := hsplit (pieces cs) fun _ => ne_nil_of_mem_pieces
  rwa [flatten_pieces] at h

/-- A delivery has no more tokens than the text has characters. -/
theorem length_delivery_le (limits : Limits) (source : String) : (delivery limits source).tokens.length ≤ source.length := by
  have h := length_pieces_le source.toList
  rw [String.length_toList] at h
  rw [delivery, deliver_eq, length_tokensFrom, List.length_take]
  omega

end Segmentation

namespace Analyzer

open Sink

variable {σ : Type}

/-- The counting sink counts each token that it takes. -/
theorem accumulates_metrics (limits : Limits) (settings : AnalysisSettings) (accept : Sink (σ × Session)) :
    Accumulates (recording limits settings accept) Recorded.metrics fun metrics token => metrics.record settings token.value := by
  rintro ⟨state, session, metrics⟩ token
  rcases ha : accept (state, session) token with ⟨after, _ | error⟩ <;> simp only [recording, ha]

/-- The tokens that the counting sink takes are those that the sink inside it takes. -/
theorem accumulates_recording {α : Type} {accept : Sink (σ × Session)} {measure : σ → α} {add : α → Located Token → α}
    (h : Accumulates accept (fun state => measure state.1) add) (limits : Limits) (settings : AnalysisSettings) :
    Accumulates (recording limits settings accept) (fun recorded => measure recorded.sink) add := by
  rintro ⟨state, session, metrics⟩ token
  have hstep := h (state, session) token
  rcases ha : accept (state, session) token with ⟨after, _ | error⟩
  · rw [ha] at hstep
    simp only [recording, ha]
    exact hstep
  · rw [ha] at hstep
    simp only [recording, ha]
    exact hstep

/-- A scan into the counting sink never faults, and counts no more tokens than the text has characters. -/
theorem exists_scan_bounded (limits : Limits) {source : String} (h : source.utf8ByteSize < sizeBound)
    (settings : AnalysisSettings) (accept : Sink (σ × Session)) (state : σ) (session : Session) :
    ∃ outcome, Scanner.scan limits (recording limits settings accept) ⟨state, session, .start source.length⟩ source =
      .ok outcome ∧ outcome.sink.metrics.Bounded source.length := by
  have hcounts := (accumulates_metrics limits settings accept).offer_eq ⟨state, session, .start source.length⟩
    (Segmentation.delivery limits source).tokens
  have hoffered := (recording limits settings accept).offered_calls ⟨state, session, .start source.length⟩
    (Segmentation.delivery limits source)
  have htaken := hoffered.taken_prefix.length_le
  have hle := Segmentation.length_delivery_le limits source
  refine ⟨_, Scanner.scan_eq h _ _, ?_⟩
  rw [Delivery.sink_into, hcounts]
  exact ((Metrics.bounded_start source.length).foldl settings _).mono (by omega)

end Analyzer

end Lexing
