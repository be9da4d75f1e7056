import Lexing.Settings.Document
import Lexing.Proofs.Lemmas.Options
import Mathlib.Logic.Function.Basic

/-!
# Settings one by one

A setting has a key in a section of the settings document, a variable of the environment, and perhaps a flag. What each of these
layers says of a setting is said here for the setting alone (`given?`, `spelled?`, `forced?`), and then found again in the functions
that make all settings at once: in those of the environment (`get_environment`), in those of a document over others
(`settings_eq_some_iff`), and in those that flags touch (`get_apply`).
-/

namespace Lexing

/-- What a setting is chosen from. -/
inductive Domain where
  | truth
  | format
  | level
deriving DecidableEq, Repr

namespace Domain

/-- The values of a domain. -/
abbrev Value : Domain → Type
  | truth => Bool
  | format => Format
  | level => Level

/-- The texts of the environment that say something, and what they say. -/
def spellings : (d : Domain) → List (String × d.Value)
  | truth => [("true", true), ("false", false)]
  | format => [("plain", .plain), ("text", .plain), ("json", .json), ("jsonl", .json)]
  | level =>
    [ ("error", .error), ("0", .error), ("warning", .warning), ("warn", .warning), ("1", .warning), ("info", .info), ("2", .info),
      ("debug", .debug), ("3", .debug) ]

/-- What is done with a text of the environment before it is looked up: truth values stand as they are, blank space around a format
is no part of it, and formats and levels may be in any case. -/
def normalize (text : String) : Domain → String
  | truth => text
  | format => Text.lowercase (Text.trim text)
  | level => Text.lowercase text

/-- What a text of the environment says. -/
def ofText? (d : Domain) (text : String) : Option d.Value := d.spellings.lookup (d.normalize text)

/-- What a value of a document says. -/
def ofValue? : (d : Domain) → Toml.Value → Option d.Value
  | truth => Settings.Document.flag?
  | format => Settings.Document.format?
  | level => Settings.Document.level?

theorem flag?_eq (text : String) : Environment.flag? text = truth.ofText? text := by
  unfold Environment.flag?
  split
  case h_3 => simp_all [ofText?, spellings, normalize, List.lookup_cons, List.lookup_nil, beq_false_of_ne]
  all_goals rfl

theorem parse?_eq (text : String) : Format.parse? text = format.ofText? text := by
  simp only [Format.parse?, ofText?, normalize, Format.normalize]
  split
  case h_5 => simp_all [spellings, List.lookup_cons, List.lookup_nil, beq_false_of_ne]
  all_goals simp only [*]; rfl

theorem level?_eq (text : String) : Environment.level? text = level.ofText? text := by
  simp only [Environment.level?, ofText?, normalize]
  split
  case h_10 => simp_all [spellings, List.lookup_cons, List.lookup_nil, beq_false_of_ne]
  all_goals simp only [*]; rfl

end Domain

/-- A setting by itself. -/
inductive Setting where
  | readingPerformance
  | warnEmpty
  | detailed
  | countBlanks
  | reportSignals
  | format
  | blanks
  | positions
  | summary
  | structured
  | console
  | minLevel
  | performance
  | report
  | fileContext
deriving DecidableEq, Repr

namespace Setting

/-- What a setting goes by. -/
structure Names where
  /-- The section of the document that has it. -/
  heading : String
  /-- Its place in the section. -/
  place : Nat
  /-- Its key in the section. -/
  key : String
  /-- Its variable in the environment. -/
  variableName : String
deriving DecidableEq, Repr

/-- The names of each setting. -/
def names : Setting → Names
  | readingPerformance => ⟨"file_processor", 0, "enable_performance_logging", "LEXAN_ENABLE_PERFORMANCE_LOGGING"⟩
  | warnEmpty => ⟨"file_processor", 1, "warn_on_empty_input", "LEXAN_WARN_ON_EMPTY_INPUT"⟩
  | detailed => ⟨"lexical", 0, "collect_detailed_metrics", "LEXAN_LEXICAL_DETAILED_METRICS"⟩
  | countBlanks => ⟨"lexical", 1, "include_whitespace_in_counts", "LEXAN_LEXICAL_COUNT_WHITESPACE"⟩
  | reportSignals => ⟨"lexical", 2, "report_error_signal_tokens", "LEXAN_LEXICAL_REPORT_ERROR_TOKENS"⟩
  | format => ⟨"output", 0, "format", "LEXAN_OUTPUT_FORMAT"⟩
  | blanks => ⟨"output", 1, "include_whitespace", "LEXAN_OUTPUT_INCLUDE_WHITESPACE"⟩
  | positions => ⟨"output", 2, "include_positions", "LEXAN_OUTPUT_INCLUDE_POSITIONS"⟩
  | summary => ⟨"output", 3, "print_summary", "LEXAN_OUTPUT_PRINT_SUMMARY"⟩
  | structured => ⟨"logging", 0, "use_structured_logging", "LEXAN_LOGGING_USE_STRUCTURED"⟩
  | console => ⟨"logging", 1, "enable_console_logging", "LEXAN_LOGGING_ENABLE_CONSOLE"⟩
  | minLevel => ⟨"logging", 2, "min_log_level", "LEXAN_LOGGING_MIN_LEVEL"⟩
  | performance => ⟨"logging", 3, "log_performance_events", "LEXAN_LOGGING_LOG_PERFORMANCE"⟩
  | report => ⟨"logging", 4, "enable_cargo_style_output", "LEXAN_LOGGING_CARGO_STYLE"⟩
  | fileContext => ⟨"logging", 5, "include_file_context", "LEXAN_LOGGING_INCLUDE_FILE_CONTEXT"⟩

/-- No two settings share a variable. -/
theorem eq_of_variableName_eq {s t : Setting} (h : s.names.variableName = t.names.variableName) : s = t := by
  revert h
  cases s <;> cases t <;> decide

/-- What each setting is chosen from. -/
abbrev domain : Setting → Domain
  | format => .format
  | minLevel => .level
  | _ => .truth

/-- A setting among all settings. -/
def get : (s : Setting) → Settings → s.domain.Value
  | readingPerformance, settings => settings.reading.performance
  | warnEmpty, settings => settings.reading.warnEmpty
  | detailed, settings => settings.analysis.detailed
  | countBlanks, settings => settings.analysis.countBlanks
  | reportSignals, settings => settings.analysis.reportSignals
  | format, settings => settings.listing.format
  | blanks, settings => settings.listing.blanks
  | positions, settings => settings.listing.positions
  | summary, settings => settings.listing.summary
  | structured, settings => settings.logging.structured
  | console, settings => settings.logging.console
  | minLevel, settings => settings.logging.minLevel
  | performance, settings => settings.logging.performance
  | report, settings => settings.logging.report
  | fileContext, settings => settings.logging.fileContext

/-- The value of a setting that nothing else decides. -/
def builtIn : (s : Setting) → s.domain.Value
  | readingPerformance | warnEmpty | detailed | console | report | fileContext => true
  | countBlanks | reportSignals | blanks | positions | summary | structured | performance => false
  | format => .plain
  | minLevel => .warning

/-- The flag that touches a setting, and the value it forces. -/
def flag? : (s : Setting) → Option (String × s.domain.Value)
  | format => some ("--json", .json)
  | blanks => some ("--whitespace", true)
  | positions => some ("--positions", true)
  | summary | detailed => some ("--summary", true)
  | readingPerformance | warnEmpty | countBlanks | reportSignals | structured | console | minLevel | performance | report
  | fileContext => none

open CommandLine Settings.Document

/-- The value that the arguments force, if the flag of the setting is among them. -/
def forced? (arguments : List String) (s : Setting) : Option s.domain.Value :=
  s.flag?.bind fun flag => if flag.1 ∈ Options.words arguments then some flag.2 else none

/-- What a document has under the key of a setting, in its section. -/
def entry? (document : Toml.Entries) (s : Setting) : Option Toml.Value :=
  ((document.get? s.names.heading).bind section?).bind fun found => found s.names.place s.names.key

/-- The value that a document gives. -/
def given? (document : Toml.Entries) (s : Setting) : Option s.domain.Value := (s.entry? document).bind s.domain.ofValue?

/-- The value that the environment gives, if the text of the variable of the setting says something. -/
def spelled? (environment : Environment) (s : Setting) : Option s.domain.Value :=
  (environment s.names.variableName).bind s.domain.ofText?

/-- All settings, from each by itself. -/
def collect (value : (s : Setting) → s.domain.Value) : Settings where
  reading := ⟨value readingPerformance, value warnEmpty⟩
  analysis := ⟨value detailed, value countBlanks, value reportSignals⟩
  listing := ⟨value format, value blanks, value positions, value summary⟩
  logging := ⟨value structured, value console, value minLevel, value performance, value report, value fileContext⟩

theorem get_collect (value : (s : Setting) → s.domain.Value) (s : Setting) : s.get (collect value) = value s := by
  cases s <;> rfl

theorem collect_get (settings : Settings) : (collect fun s => s.get settings) = settings := rfl

/-- Each setting of an environment is what its variable says, or else the built-in value. -/
theorem get_environment (environment : Environment) (s : Setting) :
    s.get environment.settings = (s.spelled? environment).getD s.builtIn := by
  have hflag : Environment.flag? = Domain.truth.ofText? := funext Domain.flag?_eq
  have hformat : Format.parse? = Domain.format.ofText? := funext Domain.parse?_eq
  have hlevel : Environment.level? = Domain.level.ofText? := funext Domain.level?_eq
  cases s <;>
    simp only [get, Environment.settings, Environment.reading, Environment.analysis, Environment.listing, Environment.logging,
      Environment.valueOf, hflag, hformat, hlevel] <;> rfl

/-- A flag forces the settings that it touches and leaves the others as they are. -/
theorem get_apply (arguments : List String) (settings : Settings) (s : Setting) :
    s.get ((Options.ofArguments arguments).apply settings) = (s.forced? arguments).getD (s.get settings) := by
  rw [Options.ofArguments_eq]
  cases s
  all_goals simp only [Options.apply, get, forced?, flag?, Option.bind_some, Option.bind_none, List.any_beq']
  case format | blanks | positions | summary | detailed =>
    split <;> simp_all
  all_goals rfl

/-! ## Documents -/

/-- A document whose sections are sections and whose settings have values of their domains. -/
structure WellTyped (document : Toml.Entries) : Prop where
  sections : ∀ s : Setting, ∀ value, document.get? s.names.heading = some value → ∃ found, section? value = some found
  values : ∀ s : Setting, ∀ value, s.entry? document = some value → ∃ read, s.domain.ofValue? value = some read

/-- A section without settings. -/
def nothing : Section := fun _ _ => none

/-- What is found in a section; one that is not there has nothing. -/
def sectionOf (entry : Option Toml.Value) : Section := (entry.bind section?).getD nothing

theorem entry?_eq (document : Toml.Entries) (s : Setting) :
    s.entry? document = sectionOf (document.get? s.names.heading) s.names.place s.names.key := by
  unfold entry? sectionOf
  cases (document.get? s.names.heading).bind section? <;> rfl

/-- A section has nothing for a setting, or one of its values. -/
def Fits (found : Section) (s : Setting) : Prop :=
  ∀ value, found s.names.place s.names.key = some value → ∃ read, s.domain.ofValue? value = some read

/-- The value that a section gives a setting, or else the one it had. -/
def value (found : Section) (s : Setting) (missing : s.domain.Value) : s.domain.Value :=
  ((found s.names.place s.names.key).bind s.domain.ofValue?).getD missing

/-- A setting is read if what the section has for it is one of its values, and then it is that, or else what it was before. -/
theorem field_eq_some_iff {α : Type} {found : Section} {read : Toml.Value → Option α} {place : Nat} {key : String} {missing x : α} :
    field found read place key missing = some x ↔
      (∀ value, found place key = some value → ∃ y, read value = some y) ∧ x = ((found place key).bind read).getD missing := by
  unfold field
  cases found place key with
  | none => simp [eq_comm]
  | some value => cases hread : read value <;> simp [hread, eq_comm]

/-- A part is read if what there is for it is a section and that section is read. -/
theorem part_eq_some_iff {α : Type} {document : Section} {read : Section → α → Option α} {place : Nat} {heading : String}
    {missing x : α} (hread : read nothing missing = some missing) :
    part document read place heading missing = some x ↔
      (∀ value, document place heading = some value → ∃ found, section? value = some found) ∧
        read (sectionOf (document place heading)) missing = some x := by
  unfold part sectionOf
  cases document place heading with
  | none => simp [hread]
  | some value => cases hsection : section? value <;> simp [hsection]

/-- The reading settings of a section. -/
theorem reading_eq_some_iff {found : Section} {missing settings : ReadingSettings} :
    Settings.Document.reading found missing = some settings ↔
      (readingPerformance.Fits found ∧ warnEmpty.Fits found) ∧
        settings = ⟨readingPerformance.value found missing.performance, warnEmpty.value found missing.warnEmpty⟩ := by
  simp only [Settings.Document.reading, Option.bind_eq_bind, Option.bind_eq_some_iff, field_eq_some_iff]
  constructor
  · rintro ⟨_, ⟨h₁, rfl⟩, _, ⟨h₂, rfl⟩, h⟩
    exact ⟨⟨h₁, h₂⟩, (Option.some.inj h).symm⟩
  · rintro ⟨⟨h₁, h₂⟩, rfl⟩
    exact ⟨_, ⟨h₁, rfl⟩, _, ⟨h₂, rfl⟩, rfl⟩

/-- The analysis settings of a section. -/
theorem analysis_eq_some_iff {found : Section} {missing settings : AnalysisSettings} :
    Settings.Document.analysis found missing = some settings ↔
      (detailed.Fits found ∧ countBlanks.Fits found ∧ reportSignals.Fits found) ∧
        settings =
          ⟨detailed.value found missing.detailed, countBlanks.value found missing.countBlanks,
            reportSignals.value found missing.reportSignals⟩ := by
  simp only [Settings.Document.analysis, Option.bind_eq_bind, Option.bind_eq_some_iff, field_eq_some_iff]
  constructor
  · rintro ⟨_, ⟨h₁, rfl⟩, _, ⟨h₂, rfl⟩, _, ⟨h₃, rfl⟩, h⟩
    exact ⟨⟨h₁, h₂, h₃⟩, (Option.some.inj h).symm⟩
  · rintro ⟨⟨h₁, h₂, h₃⟩, rfl⟩
    exact ⟨_, ⟨h₁, rfl⟩, _, ⟨h₂, rfl⟩, _, ⟨h₃, rfl⟩, rfl⟩

/-- The listing settings of a section. -/
theorem listing_eq_some_iff {found : Section} {missing settings : ListingSettings} :
    Settings.Document.listing found missing = some settings ↔
      (format.Fits found ∧ blanks.Fits found ∧ positions.Fits found ∧ summary.Fits found) ∧
        settings =
          ⟨format.value found missing.format, blanks.value found missing.blanks, positions.value found missing.positions,
            summary.value found missing.summary⟩ := by
  simp only [Settings.Document.listing, Option.bind_eq_bind, Option.bind_eq_some_iff, field_eq_some_iff]
  constructor
  · rintro ⟨_, ⟨h₁, rfl⟩, _, ⟨h₂, rfl⟩, _, ⟨h₃, rfl⟩, _, ⟨h₄, rfl⟩, h⟩
    exact ⟨⟨h₁, h₂, h₃, h₄⟩, (Option.some.inj h).symm⟩
  · rintro ⟨⟨h₁, h₂, h₃, h₄⟩, rfl⟩
    exact ⟨_, ⟨h₁, rfl⟩, _, ⟨h₂, rfl⟩, _, ⟨h₃, rfl⟩, _, ⟨h₄, rfl⟩, rfl⟩

/-- The logging settings of a section. -/
theorem logging_eq_some_iff {found : Section} {missing settings : LoggingSettings} :
    Settings.Document.logging found missing = some settings ↔
      (structured.Fits found ∧ console.Fits found ∧ minLevel.Fits found ∧ performance.Fits found ∧ report.Fits found ∧
          fileContext.Fits found) ∧
        settings =
          ⟨structured.value found missing.structured, console.value found missing.console, minLevel.value found missing.minLevel,
            performance.value found missing.performance, report.value found missing.report,
            fileContext.value found missing.fileContext⟩ := by
  simp only [Settings.Document.logging, Option.bind_eq_bind, Option.bind_eq_some_iff, field_eq_some_iff]
  constructor
  · rintro ⟨_, ⟨h₁, rfl⟩, _, ⟨h₂, rfl⟩, _, ⟨h₃, rfl⟩, _, ⟨h₄, rfl⟩, _, ⟨h₅, rfl⟩, _, ⟨h₆, rfl⟩, h⟩
    exact ⟨⟨h₁, h₂, h₃, h₄, h₅, h₆⟩, (Option.some.inj h).symm⟩
  · rintro ⟨⟨h₁, h₂, h₃, h₄, h₅, h₆⟩, rfl⟩
    exact ⟨_, ⟨h₁, rfl⟩, _, ⟨h₂, rfl⟩, _, ⟨h₃, rfl⟩, _, ⟨h₄, rfl⟩, _, ⟨h₅, rfl⟩, _, ⟨h₆, rfl⟩, rfl⟩

theorem reading_nothing (missing : ReadingSettings) : Settings.Document.reading nothing missing = some missing := rfl

theorem analysis_nothing (missing : AnalysisSettings) : Settings.Document.analysis nothing missing = some missing := rfl

theorem listing_nothing (missing : ListingSettings) : Settings.Document.listing nothing missing = some missing := rfl

theorem logging_nothing (missing : LoggingSettings) : Settings.Document.logging nothing missing = some missing := rfl

/-- A document is read if it is well typed, and then each setting is what the document gives, or else what it was before. -/
theorem settings_eq_some_iff {document : Toml.Entries} {missing settings : Settings} :
    Settings.Document.settings document missing = some settings ↔
      WellTyped document ∧ settings = collect fun s => (s.given? document).getD (s.get missing) := by
  simp only [Settings.Document.settings, Option.bind_eq_bind, Option.bind_eq_some_iff, part_eq_some_iff (reading_nothing _),
    part_eq_some_iff (analysis_nothing _), part_eq_some_iff (listing_nothing _), part_eq_some_iff (logging_nothing _),
    reading_eq_some_iff, analysis_eq_some_iff, listing_eq_some_iff, logging_eq_some_iff]
  have hgiven (s : Setting) (missing : s.domain.Value) :
      (s.given? document).getD missing = s.value (sectionOf (document.get? s.names.heading)) missing := by
    rw [value, given?, entry?_eq]
  simp only [hgiven]
  constructor
  · rintro ⟨_, ⟨hs₁, hf₁, rfl⟩, _, ⟨hs₂, hf₂, rfl⟩, _, ⟨hs₃, hf₃, rfl⟩, _, ⟨hs₄, hf₄, rfl⟩, h⟩
    refine ⟨⟨fun s => ?_, fun s value hvalue => ?_⟩, (Option.some.inj h).symm⟩
    · cases s
      exacts [hs₁, hs₁, hs₂, hs₂, hs₂, hs₃, hs₃, hs₃, hs₃, hs₄, hs₄, hs₄, hs₄, hs₄, hs₄]
    · have hfits : s.Fits (sectionOf (document.get? s.names.heading)) := by
        cases s
        exacts [hf₁.1, hf₁.2, hf₂.1, hf₂.2.1, hf₂.2.2, hf₃.1, hf₃.2.1, hf₃.2.2.1, hf₃.2.2.2, hf₄.1, hf₄.2.1, hf₄.2.2.1,
          hf₄.2.2.2.1, hf₄.2.2.2.2.1, hf₄.2.2.2.2.2]
      rw [entry?_eq] at hvalue
      exact hfits value hvalue
  · rintro ⟨h, rfl⟩
    have hfits (s : Setting) : s.Fits (sectionOf (document.get? s.names.heading)) := by
      intro value hvalue
      rw [← entry?_eq] at hvalue
      exact h.values s value hvalue
    exact ⟨_, ⟨h.sections readingPerformance, ⟨hfits readingPerformance, hfits warnEmpty⟩, rfl⟩, _,
      ⟨h.sections detailed, ⟨hfits detailed, hfits countBlanks, hfits reportSignals⟩, rfl⟩, _,
      ⟨h.sections format, ⟨hfits format, hfits blanks, hfits positions, hfits summary⟩, rfl⟩, _,
      ⟨h.sections structured,
        ⟨hfits structured, hfits console, hfits minLevel, hfits performance, hfits report, hfits fileContext⟩, rfl⟩, rfl⟩

/-! ## All layers -/

/-- The document that the arguments name has these entries. Without a name there is no document, which is one without entries. -/
def IsNamed (files : FileSystem) (arguments : List String) (document : Toml.Entries) : Prop :=
  match (Options.paths arguments).getLast? with
  | none => document = []
  | some path => ∃ text, files.readText path = .ok text ∧ Toml.parse? text = some document

/-- Arguments name one document at most. -/
theorem IsNamed.unique {files : FileSystem} {arguments : List String} {document other : Toml.Entries}
    (h : IsNamed files arguments document) (hother : IsNamed files arguments other) : document = other := by
  unfold IsNamed at h hother
  cases hpath : (Options.paths arguments).getLast? with
  | none =>
    rw [hpath] at h hother
    exact h.trans hother.symm
  | some path =>
    rw [hpath] at h hother
    obtain ⟨text, htext, hparse⟩ := h
    obtain ⟨_, htext', hparse'⟩ := hother
    obtain rfl := Except.ok.inj (htext.symm.trans htext')
    exact Option.some.inj (hparse.symm.trans hparse')

/-- The value of a setting in the first layer that has one: the flags, the document, the environment, and what is built in. -/
def resolve (environment : Environment) (arguments : List String) (document : Toml.Entries) (s : Setting) : s.domain.Value :=
  (s.forced? arguments <|> s.given? document <|> s.spelled? environment).getD s.builtIn

theorem wellTyped_nil : WellTyped [] := ⟨fun _ _ h => (nomatch h), fun _ _ h => (nomatch h)⟩

/-- The layers laid over each other are the settings made one by one. -/
theorem apply_collect (environment : Environment) (arguments : List String) (document : Toml.Entries) :
    (Options.ofArguments arguments).apply (collect fun s => (s.given? document).getD (s.get environment.settings)) =
      collect (resolve environment arguments document) := by
  rw [← collect_get ((Options.ofArguments arguments).apply _)]
  refine congrArg collect (funext fun s => ?_)
  rw [get_apply, get_collect, get_environment, resolve]
  cases s.forced? arguments <;> cases s.given? document <;> rfl

/-- A file is loaded if it can be read, is a document, and is well typed. -/
theorem load_eq_ok_iff {environment : Environment} {files : FileSystem} {path : String} {settings : Settings} :
    Settings.load environment files path = .ok settings ↔
      ∃ text, files.readText path = .ok text ∧ ∃ document, Toml.parse? text = some document ∧
        Settings.Document.settings document environment.settings = some settings := by
  unfold Settings.load Settings.ofText
  cases files.readText path with
  | error failure => simp
  | ok text =>
    cases hparse : Toml.parse? text with
    | none => simp [hparse]
    | some document => cases hread : Settings.Document.settings document environment.settings <;> simp [hparse, hread]

/-- Settings are loaded if the document that is named is well typed, and then they are what the layers say. -/
theorem settings_eq_ok_iff {environment : Environment} {files : FileSystem} {arguments : List String} {settings : Settings} :
    (Options.ofArguments arguments).settings environment files = .ok settings ↔
      ∃ document, IsNamed files arguments document ∧ WellTyped document ∧
        settings = collect (resolve environment arguments document) := by
  have hpath : (Options.ofArguments arguments).settingsPath = (Options.paths arguments).getLast? := by
    rw [Options.ofArguments_eq]
  unfold Options.settings IsNamed
  rw [hpath]
  cases (Options.paths arguments).getLast? with
  | none =>
    constructor
    · intro h
      exact ⟨[], rfl, wellTyped_nil, (Except.ok.inj h).symm.trans (apply_collect environment arguments [])⟩
    · rintro ⟨document, rfl, -, rfl⟩
      exact congrArg Except.ok (apply_collect environment arguments [])
  | some path =>
    dsimp only
    constructor
    · intro h
      cases hload : Settings.load environment files path with
      | error failure => rw [hload] at h; nomatch h
      | ok loaded =>
        obtain ⟨text, htext, document, hparse, hread⟩ := load_eq_ok_iff.1 hload
        obtain ⟨htyped, rfl⟩ := settings_eq_some_iff.1 hread
        rw [hload] at h
        exact ⟨document, ⟨text, htext, hparse⟩, htyped,
          (Except.ok.inj h).symm.trans (apply_collect environment arguments document)⟩
    · rintro ⟨document, ⟨text, htext, hparse⟩, htyped, rfl⟩
      have hread : Settings.Document.settings document environment.settings = some _ := settings_eq_some_iff.2 ⟨htyped, rfl⟩
      rw [load_eq_ok_iff.2 ⟨text, htext, document, hparse, hread⟩]
      exact congrArg Except.ok (apply_collect environment arguments document)

end Setting

end Lexing
