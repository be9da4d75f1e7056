import Lexing.Proofs.Lemmas.Admission

/-!
# Readers and files of the same bytes

A reader is read no further than one byte past the limit, and of a file the size is known before it is read. `reading_decides` says
that both ways decide alike: by the number of bytes first, then by the encoding, then by the lines. They differ in what they
say of where the bytes came from, and in how many bytes they say are too many.
-/

namespace Lexing.Input

/-- The number of lines of a text: its line feeds, and one more when it has characters and does not end in a line feed. -/
def linesOf (source : String) : Nat :=
  source.toList.count '\n' + if source = "" ∨ source.toList.getLast? = some '\n' then 0 else 1

/-- What reading some bytes comes to, in every session: the first thing that is wrong with them, or else their text. -/
structure Decides (limits : Limits) (bytes : ByteArray) (name : String) (reported : Nat) (metadata : Metadata)
    (reading : Reading InputText) : Prop where
  tooLarge : limits.maxFileSize < bytes.size → reading.Settles (.error (.tooLarge reported limits.maxFileSize))
  notText : bytes.size ≤ limits.maxFileSize → (∀ source : String, source.toUTF8 ≠ bytes) →
    reading.Settles (.error (.invalidEncoding name))
  tooManyLines : bytes.size ≤ limits.maxFileSize → ∀ source : String, source.toUTF8 = bytes →
    limits.maxLineCount < linesOf source → reading.Settles (.error (.tooManyLines (linesOf source) limits.maxLineCount))
  admitted : bytes.size ≤ limits.maxFileSize → ∀ source : String, source.toUTF8 = bytes →
    linesOf source ≤ limits.maxLineCount → reading.Settles (.ok ⟨source, { metadata with lines := linesOf source }⟩)

/-- Two answers of one kind, that differ in what they say of where the bytes came from, and of bytes that are too many. -/
inductive Alike : Except InputError InputText → Except InputError InputText → Prop
  | tooLarge (size other limit : Nat) : Alike (.error (.tooLarge size limit)) (.error (.tooLarge other limit))
  | notText (name other : String) : Alike (.error (.invalidEncoding name)) (.error (.invalidEncoding other))
  | tooManyLines (lines limit : Nat) : Alike (.error (.tooManyLines lines limit)) (.error (.tooManyLines lines limit))
  | admitted (source : String) {metadata other : Metadata} (size_eq : metadata.size = other.size)
    (lines_eq : metadata.lines = other.lines) : Alike (.ok ⟨source, metadata⟩) (.ok ⟨source, other⟩)

variable {limits : Limits} {bytes : ByteArray} {name other : String} {reported size : Nat} {metadata second : Metadata}
  {reading again : Reading InputText}

theorem verdict_of_lt (h : limits.maxFileSize < bytes.size) (name : String) (reported : Nat) :
    verdict limits name reported bytes = .error (.tooLarge reported limits.maxFileSize) := by
  rw [verdict, if_pos h]

theorem verdict_of_not_text (h : bytes.size ≤ limits.maxFileSize) (hnone : ∀ source : String, source.toUTF8 ≠ bytes)
    (name : String) (reported : Nat) : verdict limits name reported bytes = .error (.invalidEncoding name) := by
  have hdecoded : String.fromUTF8? bytes = none :=
    Option.eq_none_iff_forall_ne_some.2 fun source hs => hnone source (Text.fromUTF8?_eq_some_iff.1 hs)
  rw [verdict, if_neg (Nat.not_lt.2 h), hdecoded]

theorem verdict_of_text {source : String} (h : bytes.size ≤ limits.maxFileSize) (hsource : source.toUTF8 = bytes)
    (name : String) (reported : Nat) : verdict limits name reported bytes = textVerdict limits source := by
  rw [verdict, if_neg (Nat.not_lt.2 h), Text.fromUTF8?_eq_some_iff.2 hsource]

/-- What comes to the verdict on some bytes decides so. -/
theorem decides_of_settles (h : reading.Settles ((verdict limits name reported bytes).map fun source =>
    ⟨source, { metadata with lines := Text.lineCount source }⟩)) : Decides limits bytes name reported metadata reading := by
  refine ⟨?_, ?_, ?_, ?_⟩
  · intro hsize
    rwa [verdict_of_lt hsize] at h
  · intro hsize hnone
    rwa [verdict_of_not_text hsize hnone] at h
  · intro hsize source hsource hlines
    have hcount : Text.lineCount source = linesOf source := Text.lineCount_eq source
    rwa [verdict_of_text hsize hsource, textVerdict, hcount, if_pos hlines] at h
  · intro hsize source hsource hlines
    have hcount : Text.lineCount source = linesOf source := Text.lineCount_eq source
    rwa [verdict_of_text hsize hsource, textVerdict, hcount, if_neg (Nat.not_lt.2 hlines), Except.map, hcount] at h

/-- Ways that decide on the same bytes have answers of one kind. -/
theorem Decides.alike (h : Decides limits bytes name reported metadata reading)
    (hagain : Decides limits bytes other size second again) (hsize : metadata.size = second.size) (session later : Session) :
    Alike (reading.run session).1 (again.run later).1 := by
  -- Whatever both settle to is what they answer in these sessions.
  have hanswers : ∀ {answer reply}, reading.Settles answer → again.Settles reply → Alike answer reply →
      Alike (reading.run session).1 (again.run later).1 := by
    intro answer reply hreading hagain halike
    obtain ⟨after, hfirst⟩ := hreading session
    obtain ⟨last, hsecond⟩ := hagain later
    rwa [hfirst, hsecond]
  rcases Nat.lt_or_ge limits.maxFileSize bytes.size with hlt | hle
  · exact hanswers (h.tooLarge hlt) (hagain.tooLarge hlt) (.tooLarge _ _ _)
  · by_cases hnone : ∀ source : String, source.toUTF8 ≠ bytes
    · exact hanswers (h.notText hle hnone) (hagain.notText hle hnone) (.notText _ _)
    · obtain ⟨source, hs⟩ := not_forall.1 hnone
      have hsource : source.toUTF8 = bytes := not_not.1 hs
      rcases Nat.lt_or_ge limits.maxLineCount (linesOf source) with hmany | hfew
      · exact hanswers (h.tooManyLines hle source hsource hmany) (hagain.tooManyLines hle source hsource hmany) (.tooManyLines _ _)
      · exact hanswers (h.admitted hle source hsource hfew) (hagain.admitted hle source hsource hfew) (.admitted source hsize rfl)

theorem decides_ofReader (limits : Limits) (settings : ReadingSettings) (name : String) {reader : Reader}
    (h : reader.bytes? = some bytes) :
    Decides limits bytes name (limits.maxFileSize + 1) (.named name bytes.size) (ofReader limits settings name reader) :=
  decides_of_settles (settles_ofReader limits settings name h)

theorem decides_ofFile (limits : Limits) (settings : ReadingSettings) {files : FileSystem} {path : String} {place : List String}
    (h : files.find path = .ok (place, .file bytes)) :
    Decides limits bytes path bytes.size ⟨FileSystem.absolute place, bytes.size, extension? (place.getLast?.getD ""), 0, true⟩
      (ofFile limits settings files path) :=
  decides_of_settles (settles_ofFile limits settings h)

/-- A reader that yields some bytes and a file that holds them decide on these bytes. For bytes that are too many the one tells the
limit and one more, the other the size of the file. Their answers are of one kind. -/
theorem reading_decides (limits : Limits) (settings : ReadingSettings) (bytes : ByteArray) :
    (∀ (name : String) (reader : Reader), reader.bytes? = some bytes →
      Decides limits bytes name (limits.maxFileSize + 1) (.named name bytes.size) (ofReader limits settings name reader)) ∧
    (∀ (files : FileSystem) (path : String) (place : List String), files.find path = .ok (place, .file bytes) →
      Decides limits bytes path bytes.size ⟨FileSystem.absolute place, bytes.size, extension? (place.getLast?.getD ""), 0, true⟩
        (ofFile limits settings files path)) ∧
    ∀ (name : String) (reader : Reader) (files : FileSystem) (path : String) (place : List String) (session later : Session),
      reader.bytes? = some bytes → files.find path = .ok (place, .file bytes) →
        Alike ((ofReader limits settings name reader).run session).1 ((ofFile limits settings files path).run later).1 := by
  refine ⟨fun name _ h => decides_ofReader limits settings name h, fun _ _ _ h => decides_ofFile limits settings h, ?_⟩
  intro name reader files path place session later hreader hfile
  exact (decides_ofReader limits settings name hreader).alike (decides_ofFile limits settings hfile) rfl session later

/-- Five bytes that are no text are too many when three are allowed: a reader gives up at the fourth. -/
theorem reading_decides_size_first :
    let limits := { Limits.development with maxFileSize := 3 }
    let bytes : ByteArray := ⟨#[255, 255, 255, 255, 255]⟩
    let files : FileSystem := ⟨[], fun place =>
      if place = [] then some .directory else if place = ["in"] then some (.file bytes) else none⟩
    (ofReader limits .builtIn "-" (.ofBytes bytes)).Settles (.error (.tooLarge 4 3)) ∧
      (ofFile limits .builtIn files "in").Settles (.error (.tooLarge 5 3)) := by
  intro limits bytes files
  have hfind : files.find "in" = .ok (["in"], .file bytes) := by rfl
  obtain ⟨hreader, hfile, -⟩ := reading_decides limits .builtIn bytes
  have hsize : limits.maxFileSize < bytes.size := by decide
  exact ⟨(hreader "-" _ (Reader.bytes?_ofBytes bytes)).tooLarge hsize, (hfile files "in" _ hfind).tooLarge hsize⟩

end Lexing.Input
