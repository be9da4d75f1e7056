import Lexing.Capabilities
import Lexing.CommandLine.Options

/-!
# Help

The texts that the program gives about itself.
-/

namespace Lexing.CommandLine

/-- The name of the program. -/
def programName : String := "lexan"

/-- The version of the program. -/
def programVersion : String := "0.1.0"

/-- The line that tells the version. -/
def versionText : String := s!"{programName} {programVersion}\n"

/-- The lines of the help text, for a program called by some name. -/
def helpLines (called : String) (capabilities : Capabilities) : List String :=
  [ s!"{programName} v{programVersion}",
    "Single-pass lexical analyzer",
    "",
    "USAGE:",
    s!"    {called} [OPTIONS] [FILE]...",
    "",
    "ARGUMENTS:",
    s!"    [FILE]...    Files to tokenize (default: {Options.defaultInput}); '-' reads stdin",
    "",
    "OPTIONS:",
    "    -h, --help          Show this help message",
    "    -V, --version       Show version",
    "    --json              Write one JSON object per token",
    "    --whitespace        Include whitespace tokens in the output",
    "    --positions         Append line:column to each token",
    "    --summary           Print a per-type token count after the listing",
    "    --config <PATH>     Load runtime preferences from a TOML file",
    "",
    "OUTPUT:",
    "    Tokens go to stdout as 'Token: <text> - Type: <type>'",
    "    Diagnostics go to stderr",
    "",
    "EXAMPLES:",
    s!"    {called}                         # Tokenize {Options.defaultInput}",
    s!"    {called} main.c --positions      # With line:column",
    s!"    cat main.c | {called} - --json   # JSON Lines from stdin",
    "",
    "PIPELINE CAPABILITIES:" ] ++ capabilities.lines.map fun line => "    " ++ line

/-- The help text. -/
def helpText (called : String) (capabilities : Capabilities) : String :=
  String.join ((helpLines called capabilities).map fun line => line ++ "\n")

end Lexing.CommandLine
