import Lexing.Listing.Writer
import Lexing.Proofs.Lemmas.Bytes
import Lexing.Proofs.Lemmas.Success

/-!
# What a listing writer writes

Over an outlet that takes everything, a listing writer refuses no token and writes the lines of the tokens, one behind the other
(`offer_accept`). So the listing of a text is a function of its tokens.
-/

namespace Lexing

namespace Listing

/-- The lines of the tokens that have one. -/
def lines (settings : ListingSettings) (tokens : List (Located Token)) : String :=
  String.join ((tokens.filter (shows settings)).map (line settings))

variable {settings : ListingSettings} {token : Located Token} {rest : List (Located Token)}

theorem lines_cons_of_shows (h : shows settings token) :
    lines settings (token :: rest) = line settings token ++ lines settings rest := by
  simp [lines, h]

theorem lines_cons_of_hidden (h : ¬shows settings token) : lines settings (token :: rest) = lines settings rest := by
  simp [lines, h]

/-- The bytes of a listing are those of its first line, if it has one, and of the others. -/
theorem toUTF8_lines_cons (settings : ListingSettings) (token : Located Token) (rest : List (Located Token)) :
    (lines settings (token :: rest)).toUTF8 = (lines settings [token]).toUTF8 ++ (lines settings rest).toUTF8 := by
  rw [← Text.toUTF8_append]
  by_cases hs : shows settings token <;> simp [lines, hs]

end Listing

namespace ListingWriter

section Media

variable {ω : Type} [Medium ω] {settings : ListingSettings} {token : Located Token} {outlet next : ω} {reason : String}

/-- A token without a line changes nothing. -/
theorem accept_of_hidden (limits : Limits) (hs : ¬Listing.shows settings token) (outlet : ω) (written : Nat) (session : Session) :
    accept limits (⟨outlet, settings, written⟩, session) token = ((⟨outlet, settings, written⟩, session), none) := by
  simp only [accept, if_neg hs]

/-- A line that is written is counted. -/
theorem accept_of_written (limits : Limits) (hs : Listing.shows settings token)
    (hw : Medium.write outlet (Listing.line settings token).toUTF8 = (next, none)) (written : Nat) (session : Session) :
    accept limits (⟨outlet, settings, written⟩, session) token = ((⟨next, settings, written + 1⟩, session), none) := by
  simp only [accept, if_pos hs, hw]

/-- A line that cannot be written is reported, and the token is refused. -/
theorem accept_of_unwritten (limits : Limits) (hs : Listing.shows settings token)
    (hw : Medium.write outlet (Listing.line settings token).toUTF8 = (next, some reason)) (written : Nat) (session : Session) :
    accept limits (⟨outlet, settings, written⟩, session) token =
      ((⟨next, settings, written⟩,
        session.logError limits Code.writeFailed "Failed to write token" (some token.span) [("error", reason)]),
        some (.sinkFailed reason)) := by
  simp only [accept, if_pos hs, hw]

end Media

variable {limits : Limits}

/-- A writer over an outlet without a bound takes a token, and adds its line if it has one. -/
theorem accept_unbounded (delivered : ByteArray) (silent flushFails : Bool) (settings : ListingSettings) (written : Nat)
    (session : Session) (token : Located Token) :
    accept limits (⟨⟨delivered, none, silent, flushFails⟩, settings, written⟩, session) token =
      ((⟨⟨delivered ++ (Listing.lines settings [token]).toUTF8, none, silent, flushFails⟩, settings,
        written + ([token].filter (Listing.shows settings)).length⟩, session), none) := by
  by_cases hs : Listing.shows settings token
  · simp [accept, Outlet.write, Listing.lines, hs]
  · simp [accept, Listing.lines, hs]

/-- A writer over an outlet without a bound takes all tokens and writes their lines. -/
theorem offer_accept (delivered : ByteArray) (silent flushFails : Bool) (settings : ListingSettings) (written : Nat)
    (session : Session) (tokens : List (Located Token)) :
    (accept limits).offer (⟨⟨delivered, none, silent, flushFails⟩, settings, written⟩, session) tokens =
      ((⟨⟨delivered ++ (Listing.lines settings tokens).toUTF8, none, silent, flushFails⟩, settings,
        written + (tokens.filter (Listing.shows settings)).length⟩, session), none) := by
  induction tokens generalizing delivered written with
  | nil => simp [Sink.offer, Listing.lines]
  | cons token rest ih =>
    rw [Sink.offer, accept_unbounded]
    simp only
    rw [ih]
    have hcount : ((token :: rest).filter (Listing.shows settings)).length =
        ([token].filter (Listing.shows settings)).length + (rest.filter (Listing.shows settings)).length := by
      rw [← List.length_append, ← List.filter_append, List.singleton_append]
    rw [Listing.toUTF8_lines_cons settings token rest, hcount, ByteArray.append_assoc, Nat.add_assoc]

/-- The listing of a text within the limits is the lines of its tokens. -/
theorem scan_accept {source : String} (h : Segmentation.Within limits source.toList) (settings : ListingSettings)
    (session : Session) :
    Scanner.scan limits (accept limits) (ofOutlet .unlimited settings, session) source =
      .ok ⟨(⟨⟨(Listing.lines settings (Segmentation.delivery limits source).tokens).toUTF8, none, false, false⟩, settings,
          ((Segmentation.delivery limits source).tokens.filter (Listing.shows settings)).length⟩, session),
        (Segmentation.delivery limits source).result⟩ := by
  have hoffer : (accept limits).offer _ (Segmentation.delivery limits source).tokens = _ :=
    offer_accept ByteArray.empty false false settings 0 session (Segmentation.delivery limits source).tokens
  rw [ByteArray.empty_append, Nat.zero_add] at hoffer
  rw [Scanner.scan_eq_of_fits h.fits, Delivery.into, ofOutlet, Outlet.unlimited, hoffer]

end ListingWriter

/-- The listing of a text, written to an outlet that takes everything, is these bytes. -/
def IsListing (limits : Limits) (settings : ListingSettings) (source : String) (bytes : ByteArray) : Prop :=
  ∀ session, ∃ writer count, Scanner.scan limits (ListingWriter.accept limits)
      (ListingWriter.ofOutlet .unlimited settings, session) source = .ok ⟨(writer, session), .ok count⟩ ∧
    writer.outlet.delivered = bytes

open Segmentation in
/-- A text has a listing when it is within the limits: the lines of its tokens. -/
theorem isListing_iff {limits : Limits} {source : String} {settings : ListingSettings} {bytes : ByteArray} :
    IsListing limits settings source bytes ↔
      Within limits source.toList ∧ bytes = (Listing.lines settings (tokensFrom .start (pieces source.toList))).toUTF8 := by
  have hscan : ∀ session, Within limits source.toList → Scanner.scan limits (ListingWriter.accept limits)
      (ListingWriter.ofOutlet .unlimited settings, session) source = _ := fun session h =>
    ListingWriter.scan_accept h settings session
  constructor
  · intro h
    obtain ⟨writer, count, hlisted, hbytes⟩ := h default
    have hwithin := within_of_scan hlisted
    rw [hscan default hwithin, hwithin.delivery_eq] at hlisted
    cases hlisted
    exact ⟨hwithin, hbytes.symm⟩
  · rintro ⟨hwithin, rfl⟩ session
    have hlisted := hscan session hwithin
    rw [hwithin.delivery_eq] at hlisted
    exact ⟨_, _, hlisted, rfl⟩

end Lexing
