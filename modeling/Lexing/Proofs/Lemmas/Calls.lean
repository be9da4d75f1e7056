import Lexing.Proofs.Lemmas.Scan

/-!
# What a sink is offered

When tokens are offered to a sink, its calls are the tokens up to the first one that it refuses, each with its answer.
`Offered` says so without a sink, for calls that came about in any way; the calls of every sink are of this form
(`offered_calls`).

The calls of a run are seen by a sink that writes them down. Such a sink has to do two things: answer as the sink inside it
(`Simulates`), and write down each call (`Records`). Both are facts about a single call, and carry over to a whole offering. So
does what a sink counts of the tokens that it takes (`Accumulates`).
-/

namespace Lexing

/-- The calls that a sink got, in order: each token, and the sink's answer to it. -/
abbrev Calls := List (Located Token × Option ScanError)

/-- Tokens are offered in order. The first refusal is the last call, and the offering ends with that very error; without one
every token is offered, and the offering ends with a result that was given beforehand. -/
inductive Offered (result : Except ScanError Nat) :
    List (Located Token) → Calls → Except ScanError Nat → Prop
  | done : Offered result [] [] result
  | taken {token : Located Token} {rest : List (Located Token)} {calls : Calls} {outcome : Except ScanError Nat} :
      Offered result rest calls outcome → Offered result (token :: rest) ((token, none) :: calls) outcome
  | refused (token : Located Token) (rest : List (Located Token)) (error : ScanError) :
      Offered result (token :: rest) [(token, some error)] (.error error)

/-- The tokens offered are the first of the tokens there are. -/
theorem Offered.map_fst_prefix {result outcome : Except ScanError Nat} {tokens : List (Located Token)} {calls : Calls}
    (h : Offered result tokens calls outcome) : calls.map Prod.fst <+: tokens := by
  induction h with
  | done => exact List.prefix_refl []
  | taken _ ih => exact List.cons_prefix_cons.2 ⟨rfl, ih⟩
  | refused token rest error => exact List.cons_prefix_cons.2 ⟨rfl, List.nil_prefix⟩

/-- The offering ends with the refusal of a call, or as given. -/
theorem Offered.outcome_eq {result outcome : Except ScanError Nat} {tokens : List (Located Token)} {calls : Calls}
    (h : Offered result tokens calls outcome) :
    outcome = result ∨ ∃ token error, (token, some error) ∈ calls ∧ outcome = .error error := by
  induction h with
  | done => exact Or.inl rfl
  | taken _ ih =>
    rcases ih with ih | ⟨token, error, hm, he⟩
    · exact Or.inl ih
    · exact Or.inr ⟨token, error, List.mem_cons_of_mem _ hm, he⟩
  | refused token rest error => exact Or.inr ⟨token, error, List.mem_singleton.2 rfl, rfl⟩

/-- A refusal among the calls is how the offering ends. -/
theorem Offered.outcome_eq_of_mem {result outcome : Except ScanError Nat} {tokens : List (Located Token)} {calls : Calls}
    (h : Offered result tokens calls outcome) {token : Located Token} {error : ScanError}
    (hm : (token, some error) ∈ calls) : outcome = .error error := by
  induction h with
  | done => exact absurd hm List.not_mem_nil
  | taken _ ih =>
    rcases List.mem_cons.1 hm with he | hm
    · cases he
    · exact ih hm
  | refused token' rest error' =>
    cases List.mem_singleton.1 hm
    rfl

/-! ## The tokens that were taken -/

/-- The tokens that the sink took, in order. -/
def Calls.taken (calls : Calls) : List (Located Token) := (calls.filter fun call => call.2.isNone).map Prod.fst

theorem Calls.taken_cons_none (token : Located Token) (calls : Calls) :
    Calls.taken ((token, none) :: calls) = token :: calls.taken := rfl

/-- The tokens that were taken are the first of the tokens there are. -/
theorem Offered.taken_prefix {result outcome : Except ScanError Nat} {tokens : List (Located Token)} {calls : Calls}
    (h : Offered result tokens calls outcome) : calls.taken <+: tokens := by
  induction h with
  | done => exact List.prefix_refl []
  | taken _ ih => exact List.cons_prefix_cons.2 ⟨rfl, ih⟩
  | refused token rest error => exact List.nil_prefix

/-- An offering that ends well ends as given, and every token was taken. -/
theorem Offered.of_ok {result : Except ScanError Nat} {tokens : List (Located Token)} {calls : Calls} {count : Nat}
    (h : Offered result tokens calls (.ok count)) : calls.taken = tokens ∧ result = .ok count := by
  generalize houtcome : Except.ok count = outcome at h
  induction h with
  | done => exact ⟨rfl, rfl⟩
  | @taken token rest calls outcome _ ih =>
    obtain ⟨hrest, hresult⟩ := ih houtcome
    exact ⟨by rw [Calls.taken_cons_none, hrest], hresult⟩
  | refused token rest error => cases houtcome

namespace Sink

variable {σ τ : Type}

/-! ## The calls of a sink -/

/-- The calls that a sink gets when tokens are offered to it. -/
def calls (accept : Sink σ) (state : σ) : List (Located Token) → Calls
  | [] => []
  | token :: rest =>
    match accept state token with
    | (state, none) => (token, none) :: calls accept state rest
    | (_, some error) => [(token, some error)]

section Steps

variable {accept : Sink σ} {state after : σ} {token : Located Token} {error : ScanError}

/-- After a token that was taken the offering goes on. -/
theorem offer_of_taken (h : accept state token = (after, none)) (rest : List (Located Token)) :
    accept.offer state (token :: rest) = accept.offer after rest := by
  simp only [offer, h]

/-- After a token that was refused the offering ends. -/
theorem offer_of_refused (h : accept state token = (after, some error)) (rest : List (Located Token)) :
    accept.offer state (token :: rest) = (after, some error) := by
  simp only [offer, h]

theorem calls_of_taken (h : accept state token = (after, none)) (rest : List (Located Token)) :
    accept.calls state (token :: rest) = (token, none) :: accept.calls after rest := by
  simp only [calls, h]

theorem calls_of_refused (h : accept state token = (after, some error)) (rest : List (Located Token)) :
    accept.calls state (token :: rest) = [(token, some error)] := by
  simp only [calls, h]

end Steps

/-- The calls of a sink are an offering, which ends as the delivery into the sink ends. -/
theorem offered_calls (accept : Sink σ) (state : σ) (delivery : Delivery) :
    Offered delivery.result delivery.tokens (accept.calls state delivery.tokens) (delivery.into accept state).result := by
  obtain ⟨tokens, result⟩ := delivery
  induction tokens generalizing state with
  | nil => exact Offered.done
  | cons token rest ih =>
    rcases ha : accept state token with ⟨after, _ | error⟩
    · have hinto : Delivery.into ⟨token :: rest, result⟩ accept state = Delivery.into ⟨rest, result⟩ accept after := by
        rw [Delivery.into, Delivery.into, offer_of_taken ha]
      rw [calls_of_taken ha, hinto]
      exact Offered.taken (ih after)
    · have hinto : Delivery.into ⟨token :: rest, result⟩ accept state = ⟨after, .error error⟩ := by
        rw [Delivery.into, offer_of_refused ha]
      rw [calls_of_refused ha, hinto]
      exact Offered.refused token rest error

/-- Each answer among the calls is one that the sink gave. -/
theorem exists_of_mem_calls {accept : Sink σ} {state : σ} {tokens : List (Located Token)}
    {call : Located Token × Option ScanError} (h : call ∈ accept.calls state tokens) :
    ∃ before, (accept before call.1).2 = call.2 := by
  induction tokens generalizing state with
  | nil => exact absurd h List.not_mem_nil
  | cons token rest ih =>
    rcases ha : accept state token with ⟨after, _ | error⟩
    · rw [calls_of_taken ha] at h
      rcases List.mem_cons.1 h with rfl | h
      · exact ⟨state, by rw [ha]⟩
      · exact ih h
    · rw [calls_of_refused ha, List.mem_singleton] at h
      exact ⟨state, by rw [h, ha]⟩

/-! ## Sinks around sinks -/

/-- The outer sink answers as the inner one, which works on a part of its state. -/
def Simulates (inner : Sink σ) (outer : Sink τ) (view : τ → σ) : Prop :=
  ∀ state token, inner (view state) token = (view (outer state token).1, (outer state token).2)

variable {inner : Sink σ} {outer : Sink τ} {view : τ → σ}

/-- An offering to the outer sink is one to the inner sink. -/
theorem Simulates.offer_eq (h : Simulates inner outer view) (state : τ) (tokens : List (Located Token)) :
    inner.offer (view state) tokens = (view (outer.offer state tokens).1, (outer.offer state tokens).2) := by
  induction tokens generalizing state with
  | nil => rfl
  | cons token rest ih =>
    have hstep := h state token
    rcases ha : outer state token with ⟨after, _ | error⟩
    · rw [ha] at hstep
      rw [offer_of_taken hstep, offer_of_taken ha]
      exact ih after
    · rw [ha] at hstep
      rw [offer_of_refused hstep, offer_of_refused ha]

/-- Both sinks get the same calls. -/
theorem Simulates.calls_eq (h : Simulates inner outer view) (state : τ) (tokens : List (Located Token)) :
    inner.calls (view state) tokens = outer.calls state tokens := by
  induction tokens generalizing state with
  | nil => rfl
  | cons token rest ih =>
    have hstep := h state token
    rcases ha : outer state token with ⟨after, _ | error⟩
    · rw [ha] at hstep
      rw [calls_of_taken hstep, calls_of_taken ha, ih after]
    · rw [ha] at hstep
      rw [calls_of_refused hstep, calls_of_refused ha]

/-- A delivery into the outer sink is one into the inner sink. -/
theorem Simulates.into_eq (h : Simulates inner outer view) (state : τ) (delivery : Delivery) :
    delivery.into inner (view state) =
      ⟨view (delivery.into outer state).sink, (delivery.into outer state).result⟩ := by
  have ho := h.offer_eq state delivery.tokens
  rw [Delivery.into, Delivery.into, ho]
  rcases outer.offer state delivery.tokens with ⟨last, _ | error⟩ <;> rfl

/-- Handing a token to the outer sink is handing it to the inner one. -/
theorem Simulates.emit_eq (h : Simulates inner outer view) (limits : Limits) (scanner : Scanner) (state : τ)
    (token : Located Token) :
    Scanner.emit limits inner scanner (view state) token = (Scanner.emit limits outer scanner state token).map view := by
  unfold Scanner.emit
  split
  · rfl
  · rw [h state token]
    rcases outer state token with ⟨after, _ | error⟩ <;> rfl

/-- A scan into the outer sink is one into the inner sink, whether it returns or faults. -/
theorem Simulates.scan_eq (h : Simulates inner outer view) (limits : Limits) (state : τ) (source : String) :
    Scanner.scan limits inner (view state) source =
      (Scanner.scan limits outer state source).map fun outcome => ⟨view outcome.sink, outcome.result⟩ := by
  rw [Scanner.scan_eq_complete, Scanner.scan_eq_complete]
  generalize Scanner.fresh = scanner
  induction source.toList generalizing scanner state with
  | nil =>
    rw [Scanner.complete, Scanner.complete, Scanner.finish_eq, Scanner.finish_eq, Scanner.flush_eq_flushWith,
      Scanner.flush_eq_flushWith, Scanner.flushWith_map (h.emit_eq limits)]
    rcases Scanner.flushWith (Scanner.emit limits outer) scanner state with fault | ⟨after, last, _ | error⟩ <;> rfl
  | cons c cs ih =>
    rw [Scanner.complete, Scanner.complete, Scanner.feed_eq_feedWith, Scanner.feed_eq_feedWith,
      Scanner.feedWith_map (h.emit_eq limits)]
    rcases Scanner.feedWith limits (Scanner.emit limits outer) scanner state c with fault | ⟨after, last, _ | error⟩
    · rfl
    · exact ih last after
    · rfl

/-- Each token that the sink takes is added to a measure of its state, and a refusal leaves the measure as it is. -/
def Accumulates {α : Type} (accept : Sink τ) (measure : τ → α) (add : α → Located Token → α) : Prop :=
  ∀ state token, measure (accept state token).1 =
    match (accept state token).2 with
    | none => add (measure state) token
    | some _ => measure state

/-- All tokens that a sink takes are added to the measure, one after the other. -/
theorem Accumulates.offer_eq {α : Type} {measure : τ → α} {add : α → Located Token → α} (h : Accumulates outer measure add)
    (state : τ) (tokens : List (Located Token)) :
    measure (outer.offer state tokens).1 = (outer.calls state tokens).taken.foldl add (measure state) := by
  induction tokens generalizing state with
  | nil => rfl
  | cons token rest ih =>
    have hstep := h state token
    rcases ha : outer state token with ⟨after, _ | error⟩
    · rw [ha] at hstep
      rw [offer_of_taken ha, calls_of_taken ha, ih after, hstep, Calls.taken_cons_none, List.foldl_cons]
    · rw [ha] at hstep
      rw [offer_of_refused ha, calls_of_refused ha]
      exact hstep

/-- The sink adds each call to the calls that its state holds. -/
def Records (accept : Sink τ) (written : τ → Calls) : Prop :=
  ∀ state token, written (accept state token).1 = written state ++ [(token, (accept state token).2)]

/-- A sink that writes down each call writes down all of them. -/
theorem Records.offer_eq {written : τ → Calls} (h : Records outer written) (state : τ) (tokens : List (Located Token)) :
    written (outer.offer state tokens).1 = written state ++ outer.calls state tokens := by
  induction tokens generalizing state with
  | nil => exact (List.append_nil _).symm
  | cons token rest ih =>
    have hstep := h state token
    rcases ha : outer state token with ⟨after, _ | error⟩
    · rw [ha] at hstep
      rw [offer_of_taken ha, calls_of_taken ha, ih after, hstep, List.append_assoc]
      rfl
    · rw [ha] at hstep
      rw [offer_of_refused ha, calls_of_refused ha]
      exact hstep

/-- The sink that answers as another one and writes down the calls. -/
def observed (accept : Sink σ) : Sink (σ × Calls) := fun (state, calls) token =>
  let (state, answer) := accept state token
  ((state, calls ++ [(token, answer)]), answer)

theorem simulates_observed (accept : Sink σ) : Simulates accept accept.observed Prod.fst := fun _ _ => rfl

theorem records_observed (accept : Sink σ) : Records accept.observed Prod.snd := fun _ _ => rfl

end Sink

/-- A scan into an observed sink is the scan into the sink, and writes down its calls. -/
theorem Scanner.scan_observed {σ : Type} {limits : Limits} {source : String} (h : source.utf8ByteSize < sizeBound)
    (accept : Sink σ) (state : σ) :
    Scanner.scan limits accept.observed (state, []) source =
      .ok ⟨(((Segmentation.delivery limits source).into accept state).sink,
          accept.calls state (Segmentation.delivery limits source).tokens),
        ((Segmentation.delivery limits source).into accept state).result⟩ := by
  have hsim := (Sink.simulates_observed accept).into_eq (state, []) (Segmentation.delivery limits source)
  have hcalls := (Sink.records_observed accept).offer_eq (state, []) (Segmentation.delivery limits source).tokens
  have hsame := (Sink.simulates_observed accept).calls_eq (state, []) (Segmentation.delivery limits source).tokens
  rw [List.nil_append, ← Delivery.sink_into, ← hsame] at hcalls
  rw [Scanner.scan_eq h, hsim, ← hcalls]

end Lexing
