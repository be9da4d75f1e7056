import Lexing.Proofs.Lemmas.Analysis
import Lexing.Proofs.Lemmas.Listing

/-!
# What the counts tell

An analysis keeps several counts side by side. `CountsOf` says of each of them which of the tokens it counts, and `countsOf_ofTokens`
that the counts of an analysis are these: each token counts where it should (`CountsOf.record`), and so do all of them.

The tally is one of the kinds that are wanted in it. `Tally.Counts` says what a tally tells of some kinds: the number of each, and two
sums over its entries. From this the tally agrees with the counts beside it (`CountsOf.detailed`).

A listing writer counts too: the lines that it has written are those of the tokens that it took and shows.
-/

namespace Lexing

namespace Kind

theorem rank_injective {a b : Kind} (h : a.rank = b.rank) : a = b := by
  cases a <;> cases b <;> first | rfl | cases h

instance : Std.TransCmp compare := inferInstanceAs (Std.TransCmp (compareOn rank))

instance : Std.LawfulEqCmp compare where
  compare_self := Std.ReflCmp.compare_self
  eq_of_compare h := rank_injective (Std.LawfulEqCmp.eq_of_compare h)

theorem isBlank_eq (kind : Kind) : kind.isBlank = decide (kind = .blank) := by cases kind <;> rfl

theorem isSignal_eq (kind : Kind) : kind.isSignal = decide (kind ∈ [invalid, inclusion]) := by cases kind <;> rfl

theorem isLiteral_eq (kind : Kind) : kind.isLiteral = decide (kind ∈ [integer, float, string]) := by cases kind <;> rfl

end Kind

namespace Tally

/-- What a tally tells of some kinds. -/
structure Counts (kinds : List Kind) (tally : Tally) : Prop where
  sorted : Assoc.Sorted Kind.compare tally.entries
  get_eq : ∀ kind, tally.get kind = kinds.count kind
  total_eq : tally.total = kinds.length
  sum_eq : (tally.entries.map Prod.snd).sum = tally.total
  signals_eq : tally.signals = kinds.countP Kind.isSignal

variable {kinds : List Kind} {tally : Tally}

theorem counts_empty : Counts [] empty := ⟨List.Pairwise.nil, fun _ => rfl, rfl, rfl, rfl⟩

/-- One kind more. -/
theorem Counts.record (h : Counts kinds tally) (kind : Kind) : Counts (kinds ++ [kind]) (tally.record kind) := by
  refine ⟨h.sorted.alter kind _, ?_, ?_, ?_, ?_⟩
  · intro other
    have hget := h.get_eq other
    rw [get] at hget
    by_cases ho : other = kind
    · subst ho
      rw [get, Tally.record, Assoc.get?_alter_self h.sorted, Option.getD_some, hget, List.count_append, List.count_singleton_self]
    · have hne : Kind.compare other kind ≠ .eq := fun heq => ho (Std.LawfulEqCmp.eq_of_compare heq)
      rw [get, Tally.record, Assoc.get?_alter_other hne, hget, List.count_append,
        List.count_eq_zero_of_not_mem (List.mem_singleton.not.2 ho), Nat.add_zero]
  · rw [Tally.record, h.total_eq, List.length_append, List.length_singleton]
  · have hsum := h.sum_eq
    rw [← Assoc.total_value] at hsum ⊢
    rw [Tally.record, Assoc.total_alter (by rfl) (fun _ _ _ => rfl), hsum]
  · have hsignals := h.signals_eq
    rw [signals] at hsignals ⊢
    have hextra : ∀ k old, Kind.compare kind k = .eq →
        (if k.isSignal then (some old).getD 0 + 1 else 0) =
          (if k.isSignal then old else 0) + if kind.isSignal then 1 else 0 := by
      intro k old heq
      obtain rfl := Std.LawfulEqCmp.eq_of_compare heq
      cases kind.isSignal <;> rfl
    rw [Tally.record, Assoc.total_alter (by rfl) hextra, hsignals, List.countP_append, List.countP_singleton]

/-- The tally of some kinds. -/
def ofKinds (kinds : List Kind) : Tally := kinds.foldl record empty

/-- The tally of some kinds tells of these. -/
theorem counts_ofKinds (kinds : List Kind) : Counts kinds (ofKinds kinds) := by
  induction kinds using List.reverseRecOn with
  | nil => exact counts_empty
  | append_singleton kinds kind ih =>
    rw [ofKinds, List.foldl_concat]
    exact ih.record kind

end Tally

namespace Metrics

/-- Whether an analysis with these settings tallies a kind. -/
def tallies (settings : AnalysisSettings) (kind : Kind) : Bool := settings.detailed && (!kind.isBlank || settings.countBlanks)

/-- What the counts of an analysis tell of the tokens that were taken from a text. -/
structure CountsOf (settings : AnalysisSettings) (characters : Nat) (tokens : List (Located Token)) (metrics : Metrics) : Prop where
  characters_eq : metrics.characters = characters
  total_eq : metrics.total = tokens.length
  blanks_eq : metrics.blanks = tokens.countP fun token => token.value.kind = .blank
  signals_eq : metrics.signals = tokens.countP fun token => token.value.kind ∈ [Kind.invalid, .inclusion]
  literals_eq : metrics.literals = tokens.countP fun token => token.value.kind ∈ [Kind.integer, .float, .string]
  longest_eq : metrics.longest = (tokens.map fun token => token.value.length).max?.getD 0
  tally_eq : metrics.tally = .ofKinds ((tokens.map fun token => token.value.kind).filter (tallies settings))

variable {settings : AnalysisSettings} {characters : Nat} {tokens : List (Located Token)} {metrics : Metrics}

theorem bump_countP (p : Located Token → Bool) (tokens : List (Located Token)) (token : Located Token) :
    bump (tokens.countP p) (p token) = (tokens ++ [token]).countP p := by
  rw [List.countP_append, List.countP_singleton, bump]
  split <;> rfl

/-- The largest of some lengths, and zero if there are none, is found from the front. -/
theorem max?_getD_eq_foldl (lengths : List Nat) : lengths.max?.getD 0 = lengths.foldl max 0 := by
  cases lengths with
  | nil => rfl
  | cons length rest => rw [List.max?_cons', Option.getD_some, List.foldl_cons, Nat.zero_max]

theorem countsOf_start (settings : AnalysisSettings) (characters : Nat) : CountsOf settings characters [] (start characters) :=
  ⟨rfl, rfl, rfl, rfl, rfl, rfl, rfl⟩

/-- One token more. -/
theorem CountsOf.record (h : CountsOf settings characters tokens metrics) (token : Located Token) :
    CountsOf settings characters (tokens ++ [token]) (metrics.record settings token.value) := by
  refine ⟨h.characters_eq, ?_, ?_, ?_, ?_, ?_, ?_⟩
  · rw [Metrics.record, h.total_eq, List.length_append, List.length_singleton]
  · rw [Metrics.record, h.blanks_eq, Kind.isBlank_eq, ← bump_countP]
  · rw [Metrics.record, h.signals_eq, Kind.isSignal_eq, ← bump_countP]
  · rw [Metrics.record, h.literals_eq, Kind.isLiteral_eq, ← bump_countP]
  · rw [Metrics.record, h.longest_eq, max?_getD_eq_foldl, max?_getD_eq_foldl, List.map_append, List.map_singleton,
      List.foldl_concat]
  · have hstep : (metrics.record settings token.value).tally =
        if tallies settings token.value.kind then metrics.tally.record token.value.kind else metrics.tally := rfl
    rw [hstep, h.tally_eq, List.map_append, List.map_singleton, List.filter_append, Tally.ofKinds, Tally.ofKinds,
      List.foldl_append]
    by_cases ht : tallies settings token.value.kind <;> simp [ht]

/-- The counts of some tokens tell of these. -/
theorem countsOf_ofTokens (settings : AnalysisSettings) (characters : Nat) (tokens : List (Located Token)) :
    CountsOf settings characters tokens (ofTokens settings characters tokens) := by
  induction tokens using List.reverseRecOn with
  | nil => exact countsOf_start settings characters
  | append_singleton tokens token ih =>
    rw [ofTokens, List.foldl_concat]
    exact ih.record token

/-! ## The counts together -/

/-- The longest token is no longer than each of them may be. -/
theorem CountsOf.longest_le (h : CountsOf settings characters tokens metrics) {most : Nat}
    (hm : ∀ token ∈ tokens, token.value.length ≤ most) : metrics.longest ≤ most := by
  rw [h.longest_eq]
  cases hmax : (tokens.map fun token => token.value.length).max? with
  | none => exact Nat.zero_le most
  | some length =>
    obtain ⟨token, ht, rfl⟩ := List.mem_map.1 (List.max?_mem hmax)
    exact hm token ht

/-- The tokens that are significant are those that are not blank runs. -/
theorem CountsOf.significant_eq (h : CountsOf settings characters tokens metrics) :
    metrics.significant = .ok (tokens.countP fun token => token.value.kind ≠ .blank) := by
  have hsplit := tokens.length_eq_countP_add_countP fun token => token.value.kind = .blank
  rw [significant, checkedSub, h.total_eq, h.blanks_eq, hsplit, if_pos (Nat.le_add_right _ _), Nat.add_sub_cancel_left]
  simp

/-- What the tally of an analysis tells when details are wanted. -/
structure Detailed (settings : AnalysisSettings) (tokens : List (Located Token)) (metrics : Metrics) : Prop where
  get_eq : ∀ kind, metrics.tally.get kind =
    if kind = .blank ∧ ¬settings.countBlanks then 0 else tokens.countP fun token => token.value.kind = kind
  sum_eq : metrics.tally.total = (metrics.tally.entries.map Prod.snd).sum
  total_eq : ∃ significant, metrics.significant = .ok significant ∧
    metrics.tally.total = significant + if settings.countBlanks then metrics.blanks else 0
  signals_eq : metrics.tally.signals = metrics.signals

/-- A kind is tallied, when details are wanted, unless it is the blank one and blank runs are not wanted. -/
theorem tallies_eq (hd : settings.detailed) (kind : Kind) :
    tallies settings kind = decide (kind ≠ .blank ∨ settings.countBlanks) := by
  rw [tallies, hd, Kind.isBlank_eq]
  by_cases hb : kind = .blank <;> cases settings.countBlanks <;> simp [hb]

/-- The number of tokens of a kind that are tallied. -/
theorem count_tallied (hd : settings.detailed) (tokens : List (Located Token)) (kind : Kind) :
    ((tokens.map fun token => token.value.kind).filter (tallies settings)).count kind =
      if kind = .blank ∧ ¬settings.countBlanks then 0 else tokens.countP fun token => token.value.kind = kind := by
  by_cases hk : kind = .blank ∧ ¬settings.countBlanks
  · have hnot : ¬tallies settings kind := by simp [tallies_eq hd, hk]
    rw [if_pos hk, List.count_eq_zero]
    exact fun hm => hnot (List.mem_filter.1 hm).2
  · have htallied : tallies settings kind := by
      rw [tallies_eq hd, decide_eq_true_iff]
      exact (em _).symm.imp_right fun hb => by_contra fun hc => hk ⟨hb, hc⟩
    rw [if_neg hk, List.count_filter htallied, List.count_eq_countP, List.countP_map]
    rfl

/-- The number of tokens that are tallied. -/
theorem length_tallied (hd : settings.detailed) (tokens : List (Located Token)) :
    ((tokens.map fun token => token.value.kind).filter (tallies settings)).length =
      (tokens.countP fun token => token.value.kind ≠ .blank) +
        if settings.countBlanks then tokens.countP fun token => token.value.kind = .blank else 0 := by
  have hsplit := tokens.length_eq_countP_add_countP fun token => token.value.kind ≠ .blank
  rw [← List.countP_eq_length_filter, List.countP_map]
  cases hb : settings.countBlanks with
  | false => simp [Function.comp_def, tallies_eq hd, hb]
  | true =>
    simp only [Function.comp_def, tallies_eq hd, hb, or_true, decide_true, List.countP_true, if_true]
    rw [hsplit]
    simp

/-- The tally agrees with the tokens and with the counts beside it, when details are wanted. -/
theorem CountsOf.detailed (h : CountsOf settings characters tokens metrics) (hd : settings.detailed) :
    Detailed settings tokens metrics := by
  have hcounts := Tally.counts_ofKinds ((tokens.map fun token => token.value.kind).filter (tallies settings))
  rw [← h.tally_eq] at hcounts
  refine ⟨?_, hcounts.sum_eq.symm, ⟨_, h.significant_eq, ?_⟩, ?_⟩
  · intro kind
    rw [hcounts.get_eq, count_tallied hd]
  · rw [hcounts.total_eq, length_tallied hd, h.blanks_eq]
  · -- Every signal is tallied.
    have hsignal : ∀ kind : Kind, (kind.isSignal && tallies settings kind) = decide (kind ∈ [Kind.invalid, .inclusion]) := by
      intro kind
      rw [Kind.isSignal_eq, tallies_eq hd]
      cases kind <;> simp
    rw [hcounts.signals_eq, h.signals_eq, List.countP_filter, List.countP_map]
    simp only [Function.comp_def, hsignal]

/-- Nothing is tallied when details are not wanted. -/
theorem CountsOf.tally_eq_empty (h : CountsOf settings characters tokens metrics) (hd : settings.detailed = false) :
    metrics.tally = .empty := by
  have hnone : tallies settings = fun _ => false := by
    funext kind
    simp [tallies, hd]
  rw [h.tally_eq, hnone, List.filter_false]
  rfl

end Metrics

namespace Segmentation

/-- The lengths of the tokens of pieces add up to the number of characters. -/
theorem sum_length_tokensFrom (p : Position) (split : List (List Char)) :
    ((tokensFrom p split).map fun token => token.value.length).sum = split.flatten.length := by
  induction split generalizing p with
  | nil => rfl
  | cons piece rest ih =>
    rw [tokensFrom, List.map_cons, List.sum_cons, ih, List.flatten_cons, List.length_append, located, Token.length,
      String.length_ofList]

end Segmentation

namespace ListingWriter

/-- A listing writer counts the tokens that it takes and shows, and keeps its settings. -/
theorem accumulates_accept (ω : Type) [Medium ω] (limits : Limits) :
    Sink.Accumulates (accept limits) (fun state : ListingWriter ω × Session => (state.1.settings, state.1.written))
      fun counted token => (counted.1, if Listing.shows counted.1 token then counted.2 + 1 else counted.2) := by
  rintro ⟨⟨outlet, settings, written⟩, session⟩ token
  by_cases hs : Listing.shows settings token
  · rcases hw : Medium.write outlet (Listing.line settings token).toUTF8 with ⟨next, _ | reason⟩
    · rw [accept_of_written limits hs hw]
      simp only [if_pos hs]
    · rw [accept_of_unwritten limits hs hw]
  · rw [accept_of_hidden limits hs]
    simp only [if_neg hs]

/-- The lines of some tokens, counted one after the other. -/
theorem foldl_shown (settings : ListingSettings) (written : Nat) (tokens : List (Located Token)) :
    tokens.foldl (fun counted token => (counted.1, if Listing.shows counted.1 token then counted.2 + 1 else counted.2))
      (settings, written) = (settings, written + tokens.countP (Listing.shows settings)) := by
  induction tokens generalizing written with
  | nil => rfl
  | cons token rest ih =>
    rw [List.foldl_cons, ih, List.countP_cons]
    split <;> simp only [Nat.add_zero, Nat.add_assoc, Nat.add_comm 1]

end ListingWriter

namespace Metrics

/-- The tokens that have a line are all of them when blank runs are listed, and otherwise those that are not blank runs. -/
theorem CountsOf.countP_shows {settings : AnalysisSettings} {characters : Nat} {tokens : List (Located Token)} {metrics : Metrics}
    (h : CountsOf settings characters tokens metrics) (listing : ListingSettings) : ∃ significant,
      metrics.significant = .ok significant ∧
        tokens.countP (Listing.shows listing) = if listing.blanks then metrics.total else significant := by
  refine ⟨_, h.significant_eq, ?_⟩
  have hshows : Listing.shows listing = fun token => !decide (token.value.kind = .blank) || listing.blanks := by
    funext token
    rw [Listing.shows, Kind.isBlank_eq]
  cases hb : listing.blanks <;> simp [hshows, hb, h.total_eq]

end Metrics

end Lexing
