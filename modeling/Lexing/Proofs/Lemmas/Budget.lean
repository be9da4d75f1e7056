import Lexing.Proofs.Lemmas.Calls
import Lexing.Proofs.Lemmas.ListingReading

/-!
# Listings that are cut off

What a listing writer leaves over an outlet with a bound. It delivers the bytes that fit, whatever line they break off in, it has
counted the complete lines among them, and it refuses a token exactly when bytes are left over (`offer_bounded`). What was delivered
of a line that was cut off has no line feed (`exists_torn`).
-/

namespace Lexing

open Text

namespace Listing

variable {settings : ListingSettings} {token : Located Token}

/-- The bytes of a line are those of its text and a line feed. -/
theorem toUTF8_line (settings : ListingSettings) (token : Located Token) :
    (line settings token).toUTF8 = (lineText settings token).toUTF8 ++ "\n".toUTF8 := by
  rw [line_eq, toUTF8_append]

theorem lineFeeds_lineText (h : token.value.TrueToKind) : lineFeeds (lineText settings token).toUTF8 = 0 := by
  rw [lineFeeds_toUTF8]
  exact List.count_eq_zero.2 (lineFeed_not_mem_lineText h)

/-- A line has one line feed. -/
theorem lineFeeds_line (h : token.value.TrueToKind) : lineFeeds (line settings token).toUTF8 = 1 := by
  rw [toUTF8_line, lineFeeds_append, lineFeeds_lineText h, Nat.zero_add, lineFeeds_toUTF8]
  rfl

/-- A line that is cut off has none. -/
theorem lineFeeds_extract_line (h : token.value.TrueToKind) {room : Nat} (hr : room < (line settings token).toUTF8.size) :
    lineFeeds ((line settings token).toUTF8.extract 0 room) = 0 := by
  have hsize : room ≤ (lineText settings token).toUTF8.size := by
    have hend : "\n".toUTF8.size = 1 := by decide
    rw [toUTF8_line, ByteArray.size_append, hend] at hr
    omega
  have hle := lineFeeds_extract_le hsize
  rw [lineFeeds_lineText h] at hle
  rw [toUTF8_line, extract_append_of_le hsize]
  exact Nat.le_zero.1 hle

/-- The front of a listing, however long, is complete lines and a part without a line feed. -/
theorem exists_torn (settings : ListingSettings) {tokens : List (Located Token)} (h : ∀ token ∈ tokens, token.value.TrueToKind)
    (room : Nat) :
    ∃ torn, (lines settings tokens).toUTF8.extract 0 room =
        (lines settings ((tokens.filter (shows settings)).take
          (lineFeeds ((lines settings tokens).toUTF8.extract 0 room)))).toUTF8 ++ torn ∧
      lineFeeds torn = 0 := by
  induction tokens generalizing room with
  | nil => exact ⟨ByteArray.empty, by simp [lines], rfl⟩
  | cons token rest ih =>
    have hrest := ih fun other ho => h other (List.mem_cons_of_mem token ho)
    have htoken := h token List.mem_cons_self
    by_cases hs : shows settings token
    · rw [lines_cons_of_shows hs, List.filter_cons_of_pos hs, toUTF8_append]
      by_cases hr : room < (line settings token).toUTF8.size
      · rw [extract_append_of_le (Nat.le_of_lt hr), lineFeeds_extract_line htoken hr]
        exact ⟨_, (ByteArray.empty_append).symm, lineFeeds_extract_line htoken hr⟩
      · obtain ⟨torn, heq, hnone⟩ := hrest (room - (line settings token).toUTF8.size)
        refine ⟨torn, ?_, hnone⟩
        rw [extract_append_of_ge (Nat.not_lt.1 hr), lineFeeds_append, lineFeeds_line htoken, Nat.add_comm 1, List.take_succ_cons,
          lines_cons_of_shows hs, toUTF8_append, ByteArray.append_assoc, ← heq]
    · rw [lines_cons_of_hidden hs, List.filter_cons_of_neg hs]
      exact hrest room

end Listing

namespace ListingWriter

variable {settings : ListingSettings} {token : Located Token} {room : Nat}

/-- A line that fits is written and counted. -/
theorem accept_of_fits (limits : Limits) (hs : Listing.shows settings token) (hr : (Listing.line settings token).toUTF8.size ≤ room)
    (delivered : ByteArray) (silent flushFails : Bool) (written : Nat) (session : Session) :
    accept limits (⟨⟨delivered, some room, silent, flushFails⟩, settings, written⟩, session) token =
      ((⟨⟨delivered ++ (Listing.line settings token).toUTF8, some (room - (Listing.line settings token).toUTF8.size), silent,
        flushFails⟩, settings, written + 1⟩, session), none) := by
  simp only [accept, if_pos hs, Medium.write_outlet, Outlet.write, if_pos hr]

/-- Of a line that does not fit the front is written, and it is not counted. -/
theorem accept_of_cut (limits : Limits) (hs : Listing.shows settings token) (hr : room < (Listing.line settings token).toUTF8.size)
    (delivered : ByteArray) (silent flushFails : Bool) (written : Nat) (session : Session) :
    ∃ after, accept limits (⟨⟨delivered, some room, silent, flushFails⟩, settings, written⟩, session) token =
      ((⟨⟨delivered ++ (Listing.line settings token).toUTF8.extract 0 room, some 0, silent, flushFails⟩, settings, written⟩, after),
        some (.sinkFailed (Outlet.refusal silent))) := by
  simp only [accept, if_pos hs, Medium.write_outlet, Outlet.write, if_neg (Nat.not_le.2 hr)]
  exact ⟨_, rfl⟩

/-- A writer over an outlet with a bound writes the lines of the tokens as far as they fit, and counts those that fit in full. It
refuses a token exactly when something does not fit. -/
theorem offer_bounded (limits : Limits) {tokens : List (Located Token)} (h : ∀ token ∈ tokens, token.value.TrueToKind)
    (delivered : ByteArray) (room : Nat) (silent flushFails : Bool) (settings : ListingSettings) (written : Nat)
    (session : Session) :
    ∃ left after, (accept limits).offer (⟨⟨delivered, some room, silent, flushFails⟩, settings, written⟩, session) tokens =
      ((⟨⟨delivered ++ (Listing.lines settings tokens).toUTF8.extract 0 room, some left, silent, flushFails⟩, settings,
        written + lineFeeds ((Listing.lines settings tokens).toUTF8.extract 0 room)⟩, after),
      if room < (Listing.lines settings tokens).toUTF8.size then some (.sinkFailed (Outlet.refusal silent)) else none) := by
  induction tokens generalizing delivered room written session with
  | nil =>
    have hempty : (Listing.lines settings []).toUTF8.extract 0 room = ByteArray.empty :=
      ByteArray.extract_eq_empty_iff.2 (Nat.min_le_right _ _)
    rw [hempty, ByteArray.append_empty]
    exact ⟨room, session, by simp [Sink.offer, Listing.lines, lineFeeds]⟩
  | cons token rest ih =>
    have hrest := ih fun other ho => h other (List.mem_cons_of_mem token ho)
    have htoken := h token List.mem_cons_self
    by_cases hs : Listing.shows settings token
    · rw [Listing.lines_cons_of_shows hs, toUTF8_append, ByteArray.size_append]
      by_cases hr : room < (Listing.line settings token).toUTF8.size
      -- The bytes end inside the line, in front of its line feed, and no other token is offered.
      · obtain ⟨after, hcut⟩ := accept_of_cut limits hs hr delivered silent flushFails written session
        refine ⟨0, after, (Sink.offer_of_refused hcut rest).trans ?_⟩
        rw [extract_append_of_le (Nat.le_of_lt hr), Listing.lineFeeds_extract_line htoken hr, if_pos (by omega), Nat.add_zero]
      -- The line is complete, and the other lines have the room that it leaves.
      · have hle := Nat.not_lt.1 hr
        obtain ⟨left, after, hoffer⟩ := hrest (delivered ++ (Listing.line settings token).toUTF8)
          (room - (Listing.line settings token).toUTF8.size) (written + 1) session
        have htaken := accept_of_fits limits hs hle delivered silent flushFails written session
        refine ⟨left, after, (Sink.offer_of_taken htaken rest).trans (hoffer.trans ?_)⟩
        have hfits : room - (Listing.line settings token).toUTF8.size < (Listing.lines settings rest).toUTF8.size ↔
            room < (Listing.line settings token).toUTF8.size + (Listing.lines settings rest).toUTF8.size := by omega
        simp only [hfits]
        rw [extract_append_of_ge hle, lineFeeds_append, Listing.lineFeeds_line htoken, ByteArray.append_assoc, Nat.add_assoc]
    · rw [Listing.lines_cons_of_hidden hs, Sink.offer_of_taken (accept_of_hidden limits hs _ written session)]
      exact hrest delivered room written session

end ListingWriter

end Lexing
