import Lexing.Analysis.Analyzer
import Lexing.Listing.Line
import Lexing.Outlet

/-!
# Listing writer

The sink that writes a line for each token as it arrives. A line that cannot be written in full is an error, and is not
counted.
-/

namespace Lexing

/-- A writer of listings: where to, how, and the number of lines written. -/
structure ListingWriter (ω : Type := Outlet) where
  outlet : ω
  settings : ListingSettings
  written : Nat
deriving Inhabited

namespace ListingWriter

variable {ω : Type}

/-- A writer that has written nothing. -/
def ofOutlet (outlet : ω) (settings : ListingSettings) : ListingWriter ω := ⟨outlet, settings, 0⟩

variable [Medium ω]

/-- Writes the line of a token, if it has one. -/
def accept (limits : Limits) : Sink (ListingWriter ω × Session) := fun (writer, session) token =>
  match writer with
  | ⟨outlet, settings, written⟩ =>
    if Listing.shows settings token then
      match Medium.write outlet (Listing.line settings token).toUTF8 with
      | (outlet, none) => ((⟨outlet, settings, written + 1⟩, session), none)
      | (outlet, some reason) =>
        let session := session.logError limits Code.writeFailed "Failed to write token" (some token.span)
          [("error", reason)]
        ((⟨outlet, settings, written⟩, session), some (.sinkFailed reason))
    else ((⟨outlet, settings, written⟩, session), none)

/-- Flushes the outlet and tells that the listing is complete. -/
def finish (limits : Limits) (writer : ListingWriter ω) (session : Session) : Session × Except ScanError ω :=
  match Medium.flush writer.outlet with
  | (_, some reason) =>
    (session.logError limits Code.writeFailed "Failed to flush token output" none [("error", reason)],
      .error (.sinkFailed reason))
  | (outlet, none) =>
    (session.logSuccess limits Code.outputComplete "Token output written"
      [("format", writer.settings.format.name), ("tokens_written", toString writer.written)], .ok outlet)

end ListingWriter

end Lexing
