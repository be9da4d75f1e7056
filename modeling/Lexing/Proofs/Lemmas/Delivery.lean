import Lexing.Proofs.Lemmas.Scan
import Lexing.Proofs.Lemmas.Sequences

/-!
# Deliveries in closed form

What a delivery holds, said by counting: `ending` tells from the lengths of the pieces alone how many of them are handed out
and how the scan ends, and `deliver_eq` shows that the delivery is the tokens of that many pieces. The tokens of pieces lie end
to end: each starts behind the pieces of the ones before it (`exists_of_tokensFrom_eq_append`), and none starts before an
earlier one stops (`pairwise_tokensFrom`).
-/

namespace Lexing

namespace Segmentation

/-- The tokens of pieces, the first of which starts at a place. -/
def tokensFrom (p : Position) : List (List Char) → List (Located Token)
  | [] => []
  | piece :: rest => located p piece :: tokensFrom (p.behind piece) rest

theorem length_tokensFrom (p : Position) (split : List (List Char)) : (tokensFrom p split).length = split.length := by
  induction split generalizing p with
  | nil => rfl
  | cons piece rest ih => rw [tokensFrom, List.length_cons, List.length_cons, ih]

/-- How a scan over a split ends: the number of pieces that are handed out, and the result. The first piece that is too long
ends the scan at its own start, unless the tokens in front of it are too many already. -/
def ending (limits : Limits) (split : List (List Char)) : Nat × Except ScanError Nat :=
  match split.findIdx? (fun piece => limits.maxTokenLength < piece.length) with
  | some j =>
    if j ≤ limits.maxTokenCount then
      (j, .error (.tokenTooLong (limits.maxTokenLength + 1) (Position.start.behind (split.take j).flatten)))
    else (limits.maxTokenCount, .error (.tooManyTokens (limits.maxTokenCount + 1)))
  | none =>
    if split.length ≤ limits.maxTokenCount then (split.length, .ok split.length)
    else (limits.maxTokenCount, .error (.tooManyTokens (limits.maxTokenCount + 1)))

variable {limits : Limits}

/-- Pieces within the limits are delivered, and then what follows them. -/
theorem deliver_append {front : List (List Char)} (hs : ∀ piece ∈ front, piece.length ≤ limits.maxTokenLength) {n : Nat}
    (hn : n + front.length ≤ limits.maxTokenCount) (p : Position) (rest : List (List Char)) :
    deliver limits p n (front ++ rest) =
      ⟨tokensFrom p front ++ (deliver limits (p.behind front.flatten) (n + front.length) rest).tokens,
        (deliver limits (p.behind front.flatten) (n + front.length) rest).result⟩ := by
  induction front generalizing p n with
  | nil => rfl
  | cons piece front ih =>
    have hl : ¬limits.maxTokenLength < piece.length := Nat.not_lt.2 (hs piece List.mem_cons_self)
    have hc : ¬limits.maxTokenCount ≤ n := by
      rw [List.length_cons] at hn
      omega
    have hn' : n + 1 + front.length ≤ limits.maxTokenCount := by
      rw [List.length_cons] at hn
      omega
    have hcount : n + (piece :: front).length = n + 1 + front.length := by
      rw [List.length_cons]
      omega
    rw [List.cons_append, deliver, if_neg hl, if_neg hc, ih (fun q hq => hs q (List.mem_cons_of_mem piece hq)) hn',
      List.flatten_cons, Position.behind_append, hcount]
    rfl

/-- Pieces within the limits and nothing behind them. -/
theorem deliver_all {split : List (List Char)} (hs : ∀ piece ∈ split, piece.length ≤ limits.maxTokenLength)
    (hn : split.length ≤ limits.maxTokenCount) (p : Position) :
    deliver limits p 0 split = ⟨tokensFrom p split, .ok split.length⟩ := by
  have h := deliver_append hs (by omega) p ([] : List (List Char)) (n := 0)
  simpa [deliver] using h

/-- Pieces within the limits and then one that is too long. -/
theorem deliver_tooLong {front : List (List Char)} (hs : ∀ piece ∈ front, piece.length ≤ limits.maxTokenLength)
    (hn : front.length ≤ limits.maxTokenCount) {piece : List Char} (hl : limits.maxTokenLength < piece.length)
    (p : Position) (rest : List (List Char)) :
    deliver limits p 0 (front ++ piece :: rest) =
      ⟨tokensFrom p front, .error (.tokenTooLong (limits.maxTokenLength + 1) (p.behind front.flatten))⟩ := by
  rw [deliver_append hs (by omega), deliver, if_pos hl, List.append_nil]

/-- As many pieces within the limits as may be handed out, and then one more. -/
theorem deliver_tooMany {front : List (List Char)} (hs : ∀ piece ∈ front, piece.length ≤ limits.maxTokenLength)
    (hn : front.length = limits.maxTokenCount) {piece : List Char} (hl : piece.length ≤ limits.maxTokenLength)
    (p : Position) (rest : List (List Char)) :
    deliver limits p 0 (front ++ piece :: rest) =
      ⟨tokensFrom p front, .error (.tooManyTokens (limits.maxTokenCount + 1))⟩ := by
  rw [deliver_append hs (by omega), deliver, if_neg (Nat.not_lt.2 hl), if_pos (by omega), List.append_nil, Nat.zero_add,
    hn]

/-- The delivery of a split is the tokens of as many pieces as the ending says. -/
theorem deliver_eq (limits : Limits) (split : List (List Char)) :
    deliver limits .start 0 split =
      ⟨tokensFrom .start (split.take (ending limits split).1), (ending limits split).2⟩ := by
  -- The pieces in front of the first that is too long are short, and so are all of them if there is none.
  have htooMany : ∀ bound, (∀ piece ∈ split.take bound, piece.length ≤ limits.maxTokenLength) →
      limits.maxTokenCount < bound → bound ≤ split.length →
      deliver limits .start 0 split =
        ⟨tokensFrom .start (split.take limits.maxTokenCount), .error (.tooManyTokens (limits.maxTokenCount + 1))⟩ := by
    intro bound hs hb hle
    have hlt : limits.maxTokenCount < split.length := by omega
    have hfront : ∀ piece ∈ split.take limits.maxTokenCount, piece.length ≤ limits.maxTokenLength :=
      fun piece hp => hs piece (List.take_subset_take_left split (by omega) hp)
    have hnext : split[limits.maxTokenCount].length ≤ limits.maxTokenLength :=
      hs _ (List.mem_take_iff_getElem.2 ⟨limits.maxTokenCount, by omega, rfl⟩)
    have hsplit : split = split.take limits.maxTokenCount ++
        split[limits.maxTokenCount] :: split.drop (limits.maxTokenCount + 1) := by
      rw [← List.drop_eq_getElem_cons hlt, List.take_append_drop]
    conv_lhs => rw [hsplit]
    exact deliver_tooMany hfront (by rw [List.length_take]; omega) hnext _ _
  cases hj : split.findIdx? (fun piece => limits.maxTokenLength < piece.length) with
  | none =>
    have hs : ∀ piece ∈ split, piece.length ≤ limits.maxTokenLength := by
      intro piece hp
      simpa using List.findIdx?_eq_none_iff.1 hj piece hp
    by_cases hn : split.length ≤ limits.maxTokenCount
    · simp only [ending, hj, hn, if_true, List.take_length]
      exact deliver_all hs hn .start
    · simp only [ending, hj, hn, if_false]
      exact htooMany split.length (by rwa [List.take_length]) (by omega) (Nat.le_refl _)
  | some j =>
    obtain ⟨hlt, hlong, hbefore⟩ := List.findIdx?_eq_some_iff_getElem.1 hj
    have hs : ∀ piece ∈ split.take j, piece.length ≤ limits.maxTokenLength := by
      intro piece hp
      obtain ⟨i, hi, rfl⟩ := List.mem_take_iff_getElem.1 hp
      simpa using hbefore i (by omega)
    by_cases hn : j ≤ limits.maxTokenCount
    · simp only [ending, hj, hn, if_true]
      have hsplit : split = split.take j ++ split[j] :: split.drop (j + 1) := by
        rw [← List.drop_eq_getElem_cons hlt, List.take_append_drop]
      conv_lhs => rw [hsplit]
      exact deliver_tooLong hs (by rw [List.length_take]; omega) (by simpa using hlong) _ _
    · simp only [ending, hj, hn, if_false]
      exact htooMany j hs (by omega) (by omega)

/-- No piece that is handed out is too long. -/
theorem length_le_of_mem_ending {split : List (List Char)} {piece : List Char}
    (h : piece ∈ split.take (ending limits split).1) : piece.length ≤ limits.maxTokenLength := by
  obtain ⟨i, hi, rfl⟩ := List.mem_take_iff_getElem.1 h
  rw [Nat.lt_min] at hi
  cases hj : split.findIdx? (fun piece => limits.maxTokenLength < piece.length) with
  | none => simpa using List.findIdx?_eq_none_iff.1 hj _ (List.getElem_mem hi.2)
  | some j =>
    have hij : i < j := by
      have := hi.1
      simp only [ending, hj] at this
      split at this
      · exact this
      · simp only at this
        omega
    obtain ⟨_, _, hbefore⟩ := List.findIdx?_eq_some_iff_getElem.1 hj
    simpa using hbefore i hij

/-! ## The tokens of pieces -/

/-- The tokens of pieces are made of the pieces in order. -/
theorem forall₂_tokensFrom {r : List Char → Located Token → Prop} {split : List (List Char)}
    (h : ∀ piece ∈ split, ∀ p, r piece (located p piece)) (p : Position) :
    List.Forall₂ r split (tokensFrom p split) := by
  induction split generalizing p with
  | nil => exact List.Forall₂.nil
  | cons piece rest ih =>
    exact List.Forall₂.cons (h piece List.mem_cons_self p)
      (ih (fun q hq => h q (List.mem_cons_of_mem piece hq)) (p.behind piece))

/-- The texts of the tokens of pieces, one behind another, are the pieces one behind another. -/
theorem flatMap_tokensFrom (p : Position) (split : List (List Char)) :
    (tokensFrom p split).flatMap (fun token => token.value.text.toList) = split.flatten := by
  induction split generalizing p with
  | nil => rfl
  | cons piece rest ih =>
    rw [tokensFrom, List.flatMap_cons, ih, List.flatten_cons, located, String.toList_ofList]

/-- The tokens of pieces and more pieces: the tokens of the latter start behind the former. -/
theorem tokensFrom_append (p : Position) (front back : List (List Char)) :
    tokensFrom p (front ++ back) = tokensFrom p front ++ tokensFrom (p.behind front.flatten) back := by
  induction front generalizing p with
  | nil => rfl
  | cons piece rest ih =>
    rw [List.cons_append, tokensFrom, tokensFrom, ih, List.flatten_cons, Position.behind_append, List.cons_append]

/-- The first tokens of pieces are the tokens of the first pieces. -/
theorem exists_of_prefix_tokensFrom {tokens : List (Located Token)} {split : List (List Char)} {p : Position}
    (h : tokens <+: tokensFrom p split) : ∃ front, front <+: split ∧ tokens = tokensFrom p front := by
  induction tokens generalizing split p with
  | nil => exact ⟨[], List.nil_prefix, rfl⟩
  | cons token rest ih =>
    cases split with
    | nil => exact absurd (List.prefix_nil.1 h) (List.cons_ne_nil token rest)
    | cons piece pieces =>
      obtain ⟨htoken, hrest⟩ := List.cons_prefix_cons.1 h
      obtain ⟨front, hf, rfl⟩ := ih hrest
      exact ⟨piece :: front, List.cons_prefix_cons.2 ⟨rfl, hf⟩, by rw [tokensFrom, htoken]⟩

/-- A token of pieces belongs to one of them, and starts behind the pieces in front of that one, which the tokens in front of it
belong to. -/
theorem exists_of_tokensFrom_eq_append {before after : List (Located Token)} {token : Located Token}
    {split : List (List Char)} {p : Position} (h : tokensFrom p split = before ++ token :: after) :
    ∃ front piece back, split = front ++ piece :: back ∧ before = tokensFrom p front ∧
      token = located (p.behind front.flatten) piece := by
  induction before generalizing split p with
  | nil =>
    cases split with
    | nil => cases h
    | cons piece rest => exact ⟨[], piece, rest, rfl, rfl, ((List.cons.inj h).1).symm⟩
  | cons first before ih =>
    cases split with
    | nil => cases h
    | cons piece rest =>
      obtain ⟨hfirst, hrest⟩ := List.cons.inj h
      obtain ⟨front, piece', back, rfl, rfl, ht⟩ := ih hrest
      refine ⟨piece :: front, piece', back, rfl, ?_, ?_⟩
      · rw [tokensFrom, hfirst]
      · rw [ht, List.flatten_cons, Position.behind_append]

/-- Each token of pieces is the token of one of them, at some place. -/
theorem exists_of_mem_tokensFrom {token : Located Token} {split : List (List Char)} {p : Position}
    (h : token ∈ tokensFrom p split) : ∃ piece ∈ split, ∃ q, token = located q piece := by
  obtain ⟨before, after, he⟩ := List.append_of_mem h
  obtain ⟨front, piece, back, rfl, -, rfl⟩ := exists_of_tokensFrom_eq_append he
  exact ⟨piece, List.mem_append_right front List.mem_cons_self, _, rfl⟩

/-- No token of pieces starts in front of them. -/
theorem offset_le_of_mem_tokensFrom {token : Located Token} {split : List (List Char)} {p : Position}
    (h : token ∈ tokensFrom p split) : p.offset ≤ token.span.start.offset := by
  obtain ⟨before, after, he⟩ := List.append_of_mem h
  obtain ⟨front, piece, back, -, -, rfl⟩ := exists_of_tokensFrom_eq_append he
  exact p.offset_le_behind front.flatten

/-- No token of pieces starts before an earlier one stops. -/
theorem pairwise_tokensFrom (p : Position) (split : List (List Char)) :
    (tokensFrom p split).Pairwise fun a b => a.span.stop.offset ≤ b.span.start.offset := by
  induction split generalizing p with
  | nil => exact List.Pairwise.nil
  | cons piece rest ih =>
    exact List.pairwise_cons.2 ⟨fun _ ht => offset_le_of_mem_tokensFrom ht, ih (p.behind piece)⟩

/-- Each token of pieces meets the next one. -/
theorem isChain_tokensFrom (p : Position) (split : List (List Char)) : (tokensFrom p split).IsChain TokenSequence.Meets := by
  induction split generalizing p with
  | nil => exact .nil
  | cons piece rest ih =>
    cases rest with
    | nil => exact .singleton _
    | cons next rest => exact List.isChain_cons_cons.2 ⟨rfl, ih (p.behind piece)⟩

/-- The spans of the tokens of pieces lie end to end from the start of the text. -/
theorem checkSpans_tokensFrom (split : List (List Char)) :
    TokenSequence.checkSpans ⟨tokensFrom .start split⟩ = none := by
  rw [TokenSequence.checkSpans_eq, TokenSequence.findGap_eq_none_iff.2 (isChain_tokensFrom .start split), Option.none_or,
    TokenSequence.lateStart?_eq_none_iff]
  intro first hfirst
  cases split with
  | nil => cases hfirst
  | cons piece rest =>
    cases hfirst
    rfl

/-- The texts of tokens, one behind another. -/
theorem toList_reconstruct (tokens : List (Located Token)) :
    (TokenSequence.reconstruct ⟨tokens⟩).toList = tokens.flatMap fun token => token.value.text.toList := by
  have hfold : ∀ text : String, (tokens.foldl (fun text token => text ++ token.value.text) text).toList =
      text.toList ++ tokens.flatMap fun token => token.value.text.toList := by
    induction tokens with
    | nil => intro text; exact (List.append_nil _).symm
    | cons token rest ih =>
      intro text
      rw [List.foldl_cons, ih, String.toList_append, List.append_assoc, List.flatMap_cons]
  exact hfold ""

/-- The texts of the tokens of pieces are the pieces. -/
theorem reconstruct_tokensFrom (p : Position) (split : List (List Char)) :
    TokenSequence.reconstruct ⟨tokensFrom p split⟩ = String.ofList split.flatten := by
  rw [← String.toList_inj, toList_reconstruct, flatMap_tokensFrom, String.toList_ofList]

/-- No token of a delivery is too long. -/
theorem length_le_of_mem_delivery {source : String} {token : Located Token} (h : token ∈ (delivery limits source).tokens) :
    token.value.length ≤ limits.maxTokenLength := by
  rw [delivery, deliver_eq] at h
  obtain ⟨piece, hp, q, rfl⟩ := exists_of_mem_tokensFrom h
  rw [located, Token.length, String.length_ofList]
  exact length_le_of_mem_ending hp

end Segmentation

/-! ## Sinks that take everything -/

/-- A sink that takes everything and keeps it ends up with everything. -/
theorem Sink.offer_collect (tokens : Array (Located Token)) (more : List (Located Token)) :
    Sink.collect.offer tokens more = (tokens ++ more.toArray, none) := by
  induction more generalizing tokens with
  | nil => simp [Sink.offer]
  | cons token rest ih =>
    rw [Sink.offer]
    simp [Sink.collect, ih]

/-- A scan into a sink that takes everything is the delivery. -/
theorem Scanner.scan_collect {limits : Limits} {source : String} (h : source.utf8ByteSize < sizeBound) :
    Scanner.scan limits Sink.collect #[] source =
      .ok ⟨(Segmentation.delivery limits source).tokens.toArray, (Segmentation.delivery limits source).result⟩ := by
  rw [Scanner.scan_eq h, Delivery.into, Sink.offer_collect]
  simp

end Lexing
