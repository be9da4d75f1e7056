import Lexing.Input.Processing
import Lexing.Proofs.Lemmas.Bytes

/-!
# Inputs and their texts

Reading an input logs at every step, but what comes of it does not depend on the session (`Settles`). For an input whose bytes can
be read it is told from the bytes alone: `verdict` looks at their number first, then at the encoding, and then at the lines of the text.
A reader and a file of the same bytes are treated alike, but for how many bytes they say are too many (`settles_ofReader`,
`settles_ofFile`). `Serves` puts the two and the inputs that cannot be read under one roof.
-/

namespace Lexing

namespace Reading

variable {α β : Type}

/-- The work comes to the same answer in every session. -/
def Settles (reading : Reading α) (answer : Except InputError α) : Prop :=
  ∀ session, ∃ after, reading.run session = (answer, after)

/-- Work that goes on starts in the session that the work before it leaves. -/
theorem run_bind (reading : Reading α) (next : α → Reading β) (session : Session) :
    (reading >>= next).run session = ExceptT.bindCont next (reading.run session).1 (reading.run session).2 := rfl

theorem settles_pure (value : α) : Settles (pure value) (.ok value) := fun session => ⟨session, rfl⟩

theorem settles_modify (change : Session → Session) : Settles (modify change) (.ok ()) := fun session => ⟨change session, rfl⟩

/-- Work that goes on settles as what follows it. -/
theorem Settles.bind {reading : Reading α} {value : α} (h : reading.Settles (.ok value)) {next : α → Reading β}
    {answer : Except InputError β} (hn : (next value).Settles answer) : Settles (reading >>= next) answer := by
  intro session
  obtain ⟨after, hreading⟩ := h session
  obtain ⟨last, hnext⟩ := hn after
  refine ⟨last, ?_⟩
  rw [run_bind, hreading]
  exact hnext

/-- Work that has failed does not go on. -/
theorem Settles.bind_error {reading : Reading α} {error : InputError} (h : reading.Settles (.error error))
    (next : α → Reading β) : Settles (reading >>= next) (.error error) := by
  intro session
  obtain ⟨after, hreading⟩ := h session
  refine ⟨after, ?_⟩
  rw [run_bind, hreading]
  rfl

end Reading

namespace Input

open Reading

/-- A text, unless it has too many lines. -/
def textVerdict (limits : Limits) (source : String) : Except InputError String :=
  if limits.maxLineCount < Text.lineCount source then .error (.tooManyLines (Text.lineCount source) limits.maxLineCount)
  else .ok source

/-- The text that some bytes are, or what is wrong with them: they may be too many, no text, or a text of too many lines. -/
def verdict (limits : Limits) (name : String) (reported : Nat) (bytes : ByteArray) : Except InputError String :=
  if limits.maxFileSize < bytes.size then .error (.tooLarge reported limits.maxFileSize)
  else
    match String.fromUTF8? bytes with
    | none => .error (.invalidEncoding name)
    | some source => textVerdict limits source

variable {limits : Limits} {settings : ReadingSettings} {name : String}

/-! ## The steps -/

theorem settles_remark (limits : Limits) (message : String) (facts : List (String × String)) :
    (remark limits message facts).Settles (.ok ()) := settles_modify _

theorem settles_fail {α : Type} (limits : Limits) (error : InputError) (message : String) (facts : List (String × String)) :
    (fail (α := α) limits error message facts).Settles (.error error) := fun _ => ⟨_, rfl⟩

theorem settles_checkSize_of_lt {size : Nat} (h : limits.maxFileSize < size) (name : String) :
    (checkSize limits size name).Settles (.error (.tooLarge size limits.maxFileSize)) := by
  unfold checkSize
  rw [if_pos h]
  exact settles_fail limits _ _ _

theorem settles_checkSize_of_le {size : Nat} (h : ¬limits.maxFileSize < size) (name : String) :
    (checkSize limits size name).Settles (.ok ()) := by
  unfold checkSize
  rw [if_neg h]
  exact settles_pure ()

theorem settles_logSuccess (limits : Limits) (settings : ReadingSettings) (name : String) (input : InputText) :
    (logSuccess limits settings name input).Settles (.ok ()) := settles_modify _

/-- A text of too many lines is refused, and else the input is the text with its lines counted. -/
theorem settles_finish (limits : Limits) (settings : ReadingSettings) (name source : String) (metadata : Metadata) :
    (finish limits settings name source metadata).Settles ((textVerdict limits source).map fun source =>
      ⟨source, { metadata with lines := Text.lineCount source }⟩) := by
  unfold finish textVerdict
  by_cases hl : limits.maxLineCount < Text.lineCount source
  · simp only [if_pos hl]
    exact settles_fail limits _ _ _
  · simp only [if_neg hl]
    split
    · exact (settles_modify _).bind ((settles_logSuccess limits settings name _).bind (settles_pure _))
    · exact (settles_logSuccess limits settings name _).bind (settles_pure _)

end Input

/-! ## Readers -/

namespace Reader

/-- The bytes of a reader, if no failure stands in their way. -/
def bytes? (reader : Reader) : Option ByteArray :=
  if reader.obstacle?.isNone then some (reader.content ++ reader.tail) else none

theorem bytes?_ofBytes (bytes : ByteArray) : (ofBytes bytes).bytes? = some bytes := by
  simp [bytes?, ofBytes, obstacle?]

/-- Of a reader whose bytes come the front is read, as far as it is wanted. -/
theorem read_of_bytes {reader : Reader} {bytes : ByteArray} (h : reader.bytes? = some bytes) (limit : Nat) :
    reader.read limit = .ok (bytes.extract 0 (min limit bytes.size)) := by
  unfold bytes? at h
  split at h
  · rename_i hnone
    obtain rfl := Option.some.inj h
    unfold Reader.read
    split
    · rename_i hle
      have hsize : limit ≤ (reader.content ++ reader.tail).size := by
        rw [ByteArray.size_append]
        omega
      rw [Nat.min_eq_left hsize, Text.extract_append_of_le hle]
    · rw [Option.isNone_iff_eq_none.1 hnone]
  · cases h

/-- When a failure stands in the way, reading ends with it or has more than enough before. -/
theorem read_of_obstacle {reader : Reader} (h : reader.bytes? = none) (limit : Nat) :
    (∃ failure, reader.read limit = .error failure) ∨ ∃ bytes, reader.read limit = .ok bytes ∧ bytes.size = limit := by
  unfold bytes? at h
  split at h
  · cases h
  · rename_i hsome
    obtain ⟨failure, hf⟩ := Option.isSome_iff_exists.1 (Option.isSome_iff_ne_none.2 (mt Option.isNone_iff_eq_none.2 hsome))
    unfold Reader.read
    split
    · rename_i hle
      refine Or.inr ⟨_, rfl, ?_⟩
      rw [ByteArray.size_extract]
      omega
    · simp only [hf]
      exact Or.inl ⟨failure, rfl⟩

end Reader

namespace Input

open Reading

variable {limits : Limits}

/-- The input that a reader of some bytes holds. One byte more than the limit is all that is known of a reader that is too large. -/
theorem settles_ofReader (limits : Limits) (settings : ReadingSettings) (name : String) {reader : Reader} {bytes : ByteArray}
    (h : reader.bytes? = some bytes) :
    (ofReader limits settings name reader).Settles ((verdict limits name (limits.maxFileSize + 1) bytes).map fun source =>
      ⟨source, { Metadata.named name bytes.size with lines := Text.lineCount source }⟩) := by
  unfold ofReader
  refine (settles_remark limits _ _).bind ?_
  simp only [Reader.read_of_bytes h]
  by_cases hs : limits.maxFileSize < bytes.size
  · have hsize : (bytes.extract 0 (min (limits.maxFileSize + 1) bytes.size)).size = limits.maxFileSize + 1 := by
      rw [ByteArray.size_extract]
      omega
    simp only [hsize, verdict, if_pos hs]
    exact (settles_checkSize_of_lt (by omega) name).bind_error _
  · have hall : bytes.extract 0 (min (limits.maxFileSize + 1) bytes.size) = bytes := by
      rw [Nat.min_eq_right (by omega), ByteArray.extract_zero_size]
    simp only [hall, verdict, if_neg hs]
    refine (settles_checkSize_of_le hs name).bind ?_
    cases String.fromUTF8? bytes with
    | none => exact settles_fail limits _ _ _
    | some source => exact settles_finish limits settings name source (.named name bytes.size)

/-- A reader with a failure in the way is refused. -/
theorem settles_ofReader_of_obstacle (limits : Limits) (settings : ReadingSettings) (name : String) {reader : Reader}
    (h : reader.bytes? = none) : ∃ error, (ofReader limits settings name reader).Settles (.error error) := by
  unfold ofReader
  rcases Reader.read_of_obstacle h (limits.maxFileSize + 1) with ⟨failure, hread⟩ | ⟨bytes, hread, hsize⟩
  · refine ⟨.ofFailure name failure, (settles_remark limits _ _).bind ?_⟩
    simp only [hread]
    exact settles_fail limits _ _ _
  · refine ⟨.tooLarge bytes.size limits.maxFileSize, (settles_remark limits _ _).bind ?_⟩
    simp only [hread]
    exact (settles_checkSize_of_lt (by omega) name).bind_error _

/-! ## Files -/

variable {files : FileSystem} {path : String} {place : List String}

/-- No file lies at the end of an empty path. -/
theorem ne_empty_of_find {entry : Entry} (h : files.find path = .ok (place, entry)) : path ≠ "" := by
  rintro rfl
  have hresolve : files.resolve "" = .error .missing := by
    unfold FileSystem.resolve
    rw [if_neg (by decide), if_pos rfl]
  rw [FileSystem.find, hresolve] at h
  cases h

/-- The bytes at the end of a path are those of a file. -/
theorem exists_find_of_read {content : ByteArray} (h : files.read path = .ok content) :
    ∃ place, files.find path = .ok (place, .file content) := by
  unfold FileSystem.read at h
  split at h
  · cases h
  · cases h
  · rename_i place found hfind
    cases h
    exact ⟨place, hfind⟩
  · cases h

/-- Where a path leads, when it is not empty: to a file with its size, or nowhere that could be read. -/
theorem settles_locate (limits : Limits) (files : FileSystem) (hpath : path ≠ "") :
    (locate limits files path).Settles (match files.find path with
      | .error _ => .error (.notFound path)
      | .ok (_, .directory) => .error (.invalidPath path)
      | .ok (place, .file content) => .ok (place, content.size, .ok content)
      | .ok (place, .locked size failure) => .ok (place, size, .error failure)) := by
  unfold locate
  rw [if_neg hpath]
  rcases files.find path with missing | ⟨place, _ | content | ⟨size, failure⟩⟩
  · exact settles_fail limits _ _ _
  · exact settles_fail limits _ _ _
  · exact settles_pure _
  · exact settles_pure _

/-- The input that a file holds. -/
theorem settles_ofFile (limits : Limits) (settings : ReadingSettings) {content : ByteArray}
    (h : files.find path = .ok (place, .file content)) :
    (ofFile limits settings files path).Settles ((verdict limits path content.size content).map fun source =>
      ⟨source, ⟨FileSystem.absolute place, content.size, extension? (place.getLast?.getD ""), Text.lineCount source, true⟩⟩) := by
  have hlocate := settles_locate limits files (ne_empty_of_find h)
  rw [h] at hlocate
  unfold ofFile
  refine (settles_remark limits _ _).bind (hlocate.bind ?_)
  refine (settles_remark limits _ _).bind ((settles_remark limits _ _).bind ?_)
  by_cases hs : limits.maxFileSize < content.size
  · simp only [verdict, if_pos hs]
    exact (settles_checkSize_of_lt hs path).bind_error _
  · simp only [verdict, if_neg hs]
    refine (settles_checkSize_of_le hs path).bind ?_
    cases String.fromUTF8? content with
    | none => exact settles_fail limits _ _ _
    | some source => exact (settles_remark limits _ _).bind (settles_finish limits settings path source _)

/-- A path whose bytes cannot be read is refused. -/
theorem settles_ofFile_of_unreadable (limits : Limits) (settings : ReadingSettings) {failure : IoFailure}
    (h : files.read path = .error failure) : ∃ error, (ofFile limits settings files path).Settles (.error error) := by
  by_cases hpath : path = ""
  · refine ⟨.invalidPath path, (settles_remark limits _ _).bind (Settles.bind_error ?_ _)⟩
    unfold locate
    rw [if_pos hpath]
    exact settles_fail limits _ _ _
  · have hlocate := settles_locate limits files hpath
    cases hfind : files.find path with
    | error missing =>
      rw [hfind] at hlocate
      exact ⟨_, (settles_remark limits _ _).bind (hlocate.bind_error _)⟩
    | ok found =>
      obtain ⟨place, entry⟩ := found
      rw [hfind] at hlocate
      cases entry with
      | directory => exact ⟨_, (settles_remark limits _ _).bind (hlocate.bind_error _)⟩
      | file content => simp [FileSystem.read, hfind] at h
      | locked size refused =>
        -- A file that cannot be read has a size all the same, and that may already be too large.
        unfold ofFile
        by_cases hs : limits.maxFileSize < size
        · refine ⟨.tooLarge size limits.maxFileSize, (settles_remark limits _ _).bind (hlocate.bind ?_)⟩
          refine (settles_remark limits _ _).bind ((settles_remark limits _ _).bind ?_)
          exact (settles_checkSize_of_lt hs path).bind_error _
        · refine ⟨.ofFailure path refused, (settles_remark limits _ _).bind (hlocate.bind ?_)⟩
          refine (settles_remark limits _ _).bind ((settles_remark limits _ _).bind ?_)
          exact (settles_checkSize_of_le hs path).bind (settles_fail limits _ _ _)

/-! ## Texts that may be analysed -/

/-- Some bytes are a text that may be analysed. -/
structure Admits (limits : Limits) (bytes : ByteArray) (source : String) : Prop where
  size_le : bytes.size ≤ limits.maxFileSize
  decoded : String.fromUTF8? bytes = some source
  lines_le : Text.lineCount source ≤ limits.maxLineCount

variable {bytes : ByteArray} {source : String}

/-- A text has the size of its bytes. -/
theorem Admits.utf8ByteSize_eq (h : Admits limits bytes source) : source.utf8ByteSize = bytes.size := by
  have hdecoded := h.decoded
  unfold String.fromUTF8? at hdecoded
  split at hdecoded
  · obtain rfl := Option.some.inj hdecoded
    rfl
  · cases hdecoded

/-- Nothing is wrong with bytes that may be analysed, and only with these. -/
theorem verdict_eq_ok_iff {reported : Nat} : verdict limits name reported bytes = .ok source ↔ Admits limits bytes source := by
  unfold verdict textVerdict
  constructor
  · intro h
    split at h
    · cases h
    · rename_i hsize
      split at h
      · cases h
      · rename_i decoded hdecoded
        split at h
        · cases h
        · rename_i hlines
          cases h
          exact ⟨Nat.not_lt.1 hsize, hdecoded, Nat.not_lt.1 hlines⟩
  · intro h
    simp only [if_neg (Nat.not_lt.2 h.size_le), h.decoded, if_neg (Nat.not_lt.2 h.lines_le)]

/-- The work gives the text of some bytes, if there are any and they may be analysed, and else it fails. -/
def Serves (limits : Limits) (bytes? : Option ByteArray) (reading : Reading InputText) : Prop :=
  (∃ error, reading.Settles (.error error) ∧ ∀ bytes ∈ bytes?, ∀ source, ¬Admits limits bytes source) ∨
    ∃ bytes ∈ bytes?, ∃ input, reading.Settles (.ok input) ∧ Admits limits bytes input.source ∧ input.metadata.size = bytes.size

/-- Work that comes to what is said of some bytes gives their text. -/
theorem serves_of_settles {reading : Reading InputText} {reported : Nat} {metadata : String → Metadata}
    (h : reading.Settles ((verdict limits name reported bytes).map fun source => ⟨source, metadata source⟩))
    (hsize : ∀ source, (metadata source).size = bytes.size) : Serves limits (some bytes) reading := by
  cases hv : verdict limits name reported bytes with
  | error error =>
    rw [hv] at h
    refine Or.inl ⟨error, h, ?_⟩
    intro _ hm source hadmits
    obtain rfl := Option.some.inj hm
    rw [verdict_eq_ok_iff.2 hadmits] at hv
    cases hv
  | ok source =>
    rw [hv] at h
    exact Or.inr ⟨bytes, rfl, _, h, verdict_eq_ok_iff.1 hv, hsize source⟩

/-- Work that fails for want of bytes. -/
theorem serves_none {reading : Reading InputText} (h : ∃ error, reading.Settles (.error error)) : Serves limits none reading := by
  obtain ⟨error, h⟩ := h
  exact Or.inl ⟨error, h, fun _ hm => absurd hm (by simp)⟩

theorem serves_ofReader (limits : Limits) (settings : ReadingSettings) (name : String) (reader : Reader) :
    Serves limits reader.bytes? (ofReader limits settings name reader) := by
  cases hb : reader.bytes? with
  | none => exact serves_none (settles_ofReader_of_obstacle limits settings name hb)
  | some bytes => exact serves_of_settles (settles_ofReader limits settings name hb) fun _ => rfl

theorem serves_ofFile (limits : Limits) (settings : ReadingSettings) (files : FileSystem) (path : String) :
    Serves limits (files.read path).toOption (ofFile limits settings files path) := by
  cases hr : files.read path with
  | error failure => exact serves_none (settles_ofFile_of_unreadable limits settings hr)
  | ok content =>
    obtain ⟨place, hfind⟩ := exists_find_of_read hr
    exact serves_of_settles (settles_ofFile limits settings hfind) fun _ => rfl

end Input

end Lexing
