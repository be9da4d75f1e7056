import Lexing.Proofs.Lemmas.Failures

/-!
# Failures are reported

A run may fail while it reads, while it scans, at any line that it writes, at a flush and at the table of counts. `run_reports` says
that whoever looks at the events knows: a run fails exactly if an error is among the events that it sends, and the last of these
says what the failure is. Whatever happens, the run is over afterwards: no file is worked on any more.
-/

namespace Lexing.Run

open Session

variable {ω : Type} [Medium ω] {limits : Limits} {settings : Settings} {session : Session}

/-- The bytes of an input are a text that may be analysed, all its lines are written, and then the final flush or the table fails. -/
def FailsLast (limits : Limits) (settings : Settings) (bytes? : Option ByteArray) (outlet : ω) : Prop :=
  ∃ bytes ∈ bytes?, ∃ source, Input.Admits limits bytes source ∧ FailsAtEnd limits settings source outlet

/-- What the events of a run tell of its result. There is an error among them if the run fails, and only then. A failure at the very
end is the only error, and one of writing; of any other failure the last error has the code. No file is worked on when the run is
over. -/
structure Tells (atEnd : Prop) (before after : Session) (result : Except RunError RunReport) : Prop where
  cleared : after.context = none
  sent : ∃ events, after.sent.toList = before.sent.toList ++ events ∧
    ((∃ error, result = .error error) ↔ ∃ event ∈ events, event.isError) ∧
    ((∃ report, result = .ok report) ↔ ∀ event ∈ events, ¬event.isError) ∧
    (atEnd → (∃ error, result = .error error) ∧ Event.errorCodes events = [Code.writeFailed]) ∧
    (¬atEnd → ∀ error, result = .error error → (Event.errorCodes events).getLast? = some error.code)

/-- Errors that agree with a result tell it. -/
theorem Agrees.tells {atEnd : Prop} {codes : List String} {result : Except RunError RunReport} (h : Agrees atEnd codes result)
    {before after : Session} (hreports : before.Reports codes after) : Tells atEnd before after.clearContext result := by
  obtain ⟨events, hsent, hcodes⟩ := hreports.sent
  have hnone : codes = [] ↔ ∀ event ∈ events, ¬event.isError := by
    rw [← hcodes, Event.errorCodes, List.map_eq_nil_iff, List.filter_eq_nil_iff]
  have hsome : codes ≠ [] ↔ ∃ event ∈ events, event.isError := by
    rw [Ne, hnone]
    simp only [not_forall, not_not, exists_prop]
  refine ⟨rfl, events, hsent, ?_⟩
  rw [← hnone, ← hsome, hcodes]
  cases h with
  | finished report h => simp [h]
  | failed codes error h => simp [h]
  | failedAtEnd error h => simp [h]

/-- An input has one text, so it fails at the end as this text does. -/
theorem failsLast_iff {bytes? : Option ByteArray} {bytes : ByteArray} (hbytes : bytes ∈ bytes?) {source : String}
    (hadmits : Input.Admits limits bytes source) (outlet : ω) :
    FailsLast limits settings bytes? outlet ↔ FailsAtEnd limits settings source outlet := by
  constructor
  · rintro ⟨other, hother, text, htext, hfails⟩
    obtain rfl := Option.mem_unique hbytes hother
    obtain rfl := Option.some.inj (hadmits.decoded.symm.trans htext.decoded)
    exact hfails
  · intro hfails
    exact ⟨bytes, hbytes, source, hadmits, hfails⟩

/-- The run of an input that is read in any way comes to an end, which its events tell. -/
theorem exists_ofInput_tells (h : limits.maxFileSize < sizeBound) {bytes? : Option ByteArray} {read : Reading InputText}
    (hserves : Input.Serves limits bytes? read) (hreported : read.Reported) (settings : Settings) (label name : String) (outlet : ω)
    (hs : session.service.isSome) :
    ∃ outcome after, ofInput limits settings label name read outlet session = .ok (outcome, after) ∧
      Tells (FailsLast limits settings bytes? outlet) session after outcome.result := by
  unfold ofInput withinFile
  simp only [takeNumber]
  generalize hentered : setContext _ _ _ = entered
  have hstart : session.Reports [] entered := by
    rw [← hentered]
    exact reports_of_sent_eq rfl rfl
  have hopened := hstart.trans
    (reports_logInfo limits (hstart.ready hs) "Starting lexical analysis pipeline" [(label, name)])
  generalize entered.logInfo limits "Starting lexical analysis pipeline" [(label, name)] = opened at hopened ⊢
  have hread := hreported opened (hopened.ready hs)
  rcases hserves with ⟨error, hsettles, hnone⟩ | ⟨bytes, hbytes, input, hsettles, hadmits, -⟩
  · obtain ⟨after, hrun⟩ := hsettles opened
    rw [hrun] at hread ⊢
    have hnot : ¬FailsLast limits settings bytes? outlet := by
      rintro ⟨bytes, hbytes, source, hadmits, -⟩
      exact hnone bytes hbytes source hadmits
    exact ⟨_, _, rfl, Agrees.tells (.failed [] (.input error) hnot) (hopened.trans hread)⟩
  · obtain ⟨after, hrun⟩ := hsettles opened
    rw [hrun] at hread ⊢
    have hbound : input.source.utf8ByteSize < sizeBound := by
      rw [hadmits.utf8ByteSize_eq]
      exact Nat.lt_of_le_of_lt hadmits.size_le h
    have hgot := hopened.trans hread
    obtain ⟨outcome, last, codes, hstages, hlast, hagrees⟩ := exists_stages_agrees hbound settings name outlet (hgot.ready hs)
    rw [← failsLast_iff hbytes hadmits] at hagrees
    simp only [hstages]
    exact ⟨outcome, _, rfl, hagrees.tells (hgot.trans hlast)⟩

end Lexing.Run
