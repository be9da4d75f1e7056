import Lexing.Proofs.Lemmas.Excerpts

/-!
# Excerpts beside errors

An excerpt at a boundary quotes the characters behind it up to the end of the line. Beside a token that is too long the analysis
quotes the place where the run starts that would be the token: `excerpts_quote` says what of this run is shown.
-/

namespace Lexing

/-- What forty characters of text quoted at a run show of it. Of a run that is not blank they show the first characters, and of
a long one nothing else. Of a blank run with a line feed they show no more than what is in front of that. -/
structure QuotesRun (blank : Bool) (run : List Char) (quoted : String) : Prop where
  begins : blank = false → run.take 40 <+: quoted.toList
  exact_of_long : blank = false → 40 ≤ run.length → quoted = String.ofList (run.take 40)
  within_line : blank = true → '\n' ∈ run → quoted.toList <+: run.takeWhile (· ≠ '\n')

open Segmentation in
theorem quotesRun_quotation {blank : Bool} {run : List Char} (h : IsRun blank run) (rest : List Char) :
    QuotesRun blank run (String.ofList (quotation 40 (run ++ rest))) := by
  refine ⟨?_, ?_, ?_⟩
  · rintro rfl
    obtain ⟨more, hmore⟩ := h.exists_quotation_eq 40 rest
    rw [String.toList_ofList, hmore]
    exact List.prefix_append _ _
  · rintro rfl hlength
    rw [h.quotation_eq hlength]
  · intro _ hfeed
    rw [String.toList_ofList]
    exact quotation_prefix_of_mem hfeed 40 rest

/-- At every boundary of a source, and past its end, an excerpt is what is quoted of the characters from there on. When an
analysis ends because a token would be too long, with an error that its sink did not make up, a run of the source is longer than
a token may be, the error points at its start, and the text quoted beside the error is quoted at this run. -/
theorem excerpts_quote (limits : Limits) {source : String} (h : source.utf8ByteSize < sizeBound) :
    (∀ offset count, source.utf8ByteSize ≤ offset ∨ (⟨offset⟩ : String.Pos.Raw).IsValid source →
      ∃ front rest, source.toList = front ++ rest ∧ String.utf8Len front = min offset source.utf8ByteSize ∧
        (LineIndex.ofText source).excerpt offset count = .ok (String.ofList (quotation count rest))) ∧
    ∀ (σ : Type) (accept : Sink (σ × Session)) (analyzer : Analyzer) (state : σ) (session : Session) (analyzed : Analyzed σ)
      (length : Nat) (place : Position), analyzer.analyze limits accept source state session = .ok analyzed →
        analyzed.result = .error (.tokenTooLong length place) →
        (∀ before token, (accept before token).2 ≠ some (.tokenTooLong length place)) →
        ∃ front run back blank quoted, Segmentation.IsSplit (front ++ run :: back) source.toList ∧
          Segmentation.IsRun blank run ∧ limits.maxTokenLength < run.length ∧ place = Position.start.behind front.flatten ∧
          Analyzer.errorExcerpt source (.tokenTooLong length place) = .ok quoted ∧ QuotesRun blank run quoted := by
  refine ⟨?_, ?_⟩
  · intro offset count hoffset
    have hboundary : (⟨min offset source.utf8ByteSize⟩ : String.Pos.Raw).IsValid source := by
      rw [Text.isValid_min_iff]
      rintro ⟨hlt, hinside⟩
      rcases hoffset with hge | hvalid
      · omega
      · exact hinside hvalid
    obtain ⟨front, rest, ht, hmin⟩ := Text.isValid_iff.1 hboundary
    refine ⟨front, rest, ht, hmin.symm, ?_⟩
    rw [LineIndex.excerpt_min, hmin]
    exact LineIndex.excerpt_of_front ht h count
  · intro σ accept analyzer state session analyzed length place hanalyze herror hsink
    have hresult := Analyzer.delivery_result_of_analyze h hanalyze herror hsink
    obtain ⟨front, run, back, hpieces, hlong, hplace⟩ := Segmentation.exists_of_delivery_tooLong hresult
    have hsplit : Segmentation.IsSplit (front ++ run :: back) source.toList := by
      rw [← hpieces]
      exact Segmentation.isSplit_pieces _
    have hmany : 1 < run.length := Nat.lt_of_le_of_lt limits.tokenLength_pos hlong
    obtain ⟨blank, hrun⟩ := Segmentation.exists_isRun hsplit (List.mem_append_right front List.mem_cons_self) hmany
    have hsource : source.toList = front.flatten ++ (run ++ back.flatten) := by
      rw [← hsplit.flatten_eq, List.flatten_append, List.flatten_cons]
    refine ⟨front, run, back, blank, _, hsplit, hrun, hlong, hplace, ?_, quotesRun_quotation hrun back.flatten⟩
    have hoffset : place.offset = String.utf8Len front.flatten := by rw [hplace, Position.offset_start_behind]
    simp only [Analyzer.errorExcerpt, ScanError.offset?, hoffset]
    exact LineIndex.excerpt_of_front hsource h 40

/-- A word of forty-two letters behind a letter of two bytes, where tokens may have forty: its first forty are quoted. -/
theorem excerpts_quote_long_word :
    let limits := { Limits.development with maxTokenLength := 40, tokenLength_pos := by decide }
    let source := "é " ++ String.ofList (List.replicate 42 'a') ++ " b"
    source.utf8ByteSize < sizeBound ∧
      (∃ analyzed,
        (Analyzer.withSettings .builtIn).analyze limits Analyzer.keeping source #[] (.fresh .builtIn "") = .ok analyzed ∧
        analyzed.result = .error (.tokenTooLong 41 ⟨3, 1, 3⟩)) ∧
      Analyzer.errorExcerpt source (.tokenTooLong 41 ⟨3, 1, 3⟩) = .ok (String.ofList (List.replicate 40 'a')) := by
  have hdelivery : (Segmentation.delivery { Limits.development with maxTokenLength := 40, tokenLength_pos := by decide }
      ("é " ++ String.ofList (List.replicate 42 'a') ++ " b")).result = .error (.tokenTooLong 41 ⟨3, 1, 3⟩) := rfl
  have hpieces : Segmentation.pieces ("é " ++ String.ofList (List.replicate 42 'a') ++ " b").toList =
      [['é'], [' '], List.replicate 42 'a', [' '], ['b']] := rfl
  intro limits source
  have h : source.utf8ByteSize < sizeBound := by decide
  have htakes : ∀ before token, (Analyzer.keeping before token).2 = none := fun _ _ => rfl
  obtain ⟨analyzed, hanalyze, hresult⟩ :=
    Analyzer.exists_analyze_of_taking limits h htakes (.withSettings .builtIn) #[] (.fresh .builtIn "")
  have hfails : analyzed.result = .error (.tokenTooLong 41 ⟨3, 1, 3⟩) := hresult.trans hdelivery
  refine ⟨h, ⟨analyzed, hanalyze, hfails⟩, ?_⟩
  obtain ⟨front, run, back, blank, quoted, hsplit, hrun, hlong, -, hquoted, hshows⟩ :=
    (excerpts_quote limits h).2 _ _ _ _ _ analyzed _ _ hanalyze hfails fun _ _ hrefused => by cases hrefused
  -- Only one of the pieces is longer than forty characters.
  have hmem : run ∈ [['é'], [' '], List.replicate 42 'a', [' '], ['b']] := by
    rw [← hpieces, ← Segmentation.isSplit_iff.1 hsplit]
    exact List.mem_append_right front List.mem_cons_self
  obtain rfl : run = List.replicate 42 'a' := by
    simp only [List.mem_cons, List.not_mem_nil, or_false] at hmem
    rcases hmem with rfl | rfl | rfl | rfl | rfl <;> first | rfl | exact absurd hlong (by decide)
  have hword : blank = false := (CharClass.isBlank_of_joins (hrun.all_join 'a' (by decide))).symm
  rw [hquoted, hshows.exact_of_long hword (by decide)]
  rfl

end Lexing
