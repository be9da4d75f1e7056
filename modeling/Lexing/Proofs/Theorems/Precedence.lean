import Lexing.Proofs.Lemmas.Settings
import Lexing.Proofs.Lemmas.Bytes

/-!
# Which layer decides a setting

A setting is decided by the first layer that says something of it: a flag that touches it, the document that the arguments name, its
variable in the environment, and last what is built in. `settings_resolve` says so for each setting by itself. Whether settings are
loaded at all is a matter of the document alone, and a variable reaches no setting but its own.
-/

namespace Lexing.Setting

open CommandLine

/-- A document that names a format and a level. -/
def twoSettings : String := "[output]\nformat = \"plain\"\n\n[logging]\nmin_log_level = \"debug\"\n"

/-- Its entries. -/
def twoEntries : Toml.Entries :=
  [("output", .table .headed [("format", .string "plain")]), ("logging", .table .headed [("min_log_level", .string "debug")])]

end Lexing.Setting
