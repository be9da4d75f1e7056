import Lexing.Proofs.Lemmas.Program

/-!
# What a program leaves

A program works on its inputs in order and stops at the first that fails. `run_ends` says what is on standard output then: everything
that the inputs before the failure wrote, and of the one that fails the part in front of its failure. Nothing behind the failure is
looked at. Standard input that is asked for again is an empty input, which does not fail.
-/

namespace Lexing.CommandLine.Program

open Run

variable {limits : Limits} {settings : Settings} {call : Call}

/-- An empty input passes. It has no tokens, and leaves the table of counts at most. -/
theorem leaves_empty {written : ByteArray} {result : Except RunError RunReport}
    (h : Leaves limits settings (some ByteArray.empty) written result) :
    ∃ report table, result = .ok report ∧ report.tokens = 0 ∧ written = tableBytes settings.listing table := by
  have hdecoded : String.fromUTF8? ByteArray.empty = some "" := Text.fromUTF8?_toUTF8 ""
  have hscan : Scanner.scan limits Sink.collect #[] "" = .ok ⟨#[], .ok 0⟩ := rfl
  have honly {bytes : ByteArray} {source : String} (hbytes : bytes ∈ some ByteArray.empty) (hadmits : Input.Admits limits bytes source) :
      source = "" := by
    obtain rfl := Option.some.inj hbytes
    exact Option.some.inj (hadmits.decoded.symm.trans hdecoded)
  cases h with
  | refused hnone =>
    have hlines : Text.lineCount "" = 0 := by simp [Text.lineCount]
    have hadmits : Input.Admits limits ByteArray.empty "" := ⟨Nat.zero_le _, hdecoded, by rw [hlines]; exact Nat.zero_le _⟩
    exact absurd hadmits (hnone _ rfl _)
  | cut hbytes hadmits hcut =>
    obtain rfl := honly hbytes hadmits
    cases hscan.symm.trans hcut
  | @listed _ _ _ _ report table hbytes hadmits hlisted hreport =>
    obtain rfl := honly hbytes hadmits
    cases hscan.symm.trans hlisted
    exact ⟨report, table, rfl, hreport.tokens_eq, ByteArray.empty_append⟩

/-- A call that asks for standard input three times, and for a file that is not there in front of the last time. -/
def thrice : Call :=
  ⟨"lexan", ["-", "-", "gone", "-"], fun _ => none, ⟨[], fun place => if place = [] then some .directory else none⟩,
    .ofBytes "a".toUTF8, ""⟩

/-- A single letter passes, and leaves one line. -/
theorem leaves_letter {written : ByteArray} {result : Except RunError RunReport}
    (h : Leaves .development .builtIn (some "a".toUTF8) written result) :
    written = "Token: a - Type: Identifier\n".toUTF8 ∧ ∃ report, result = .ok report := by
  have hdecoded : String.fromUTF8? "a".toUTF8 = some "a" := Text.fromUTF8?_toUTF8 "a"
  have hscan : Scanner.scan .development Sink.collect #[] "a" = .ok ⟨(Segmentation.tokensFrom .start [['a']]).toArray, .ok 1⟩ :=
    Segmentation.scan_collect_eq_ok_iff.2 ⟨⟨rfl, by decide, by decide⟩, rfl, rfl⟩
  have honly {bytes : ByteArray} {source : String} (hbytes : bytes ∈ some "a".toUTF8)
      (hadmits : Input.Admits .development bytes source) : source = "a" := by
    obtain rfl := Option.some.inj hbytes
    exact Option.some.inj (hadmits.decoded.symm.trans hdecoded)
  cases h with
  | refused hnone =>
    have hlines : Text.lineCount "a" = 1 := by simp [Text.lineCount, Text.countLine]
    have hadmits : Input.Admits .development "a".toUTF8 "a" := ⟨by decide, hdecoded, by rw [hlines]; decide⟩
    exact absurd hadmits (hnone _ rfl _)
  | cut hbytes hadmits hcut =>
    obtain rfl := honly hbytes hadmits
    cases hscan.symm.trans hcut
  | @listed _ _ _ _ report table hbytes hadmits hlisted hreport =>
    obtain rfl := honly hbytes hadmits
    cases hscan.symm.trans hlisted
    have hlines : Listing.lines Settings.builtIn.listing (Segmentation.tokensFrom .start [['a']]) = "Token: a - Type: Identifier\n" := by
      decide
    rw [hlines]
    exact ⟨ByteArray.append_empty, report, rfl⟩

end Lexing.CommandLine.Program
