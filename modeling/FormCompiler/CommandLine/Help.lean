/-!
# FormCompiler.CommandLine.Help

The help texts of the command line and its version.
-/

namespace FormCompiler.CommandLine.Help

/-- Lines, each with its end. -/
def lines (texts : List String) : String := String.join (texts.map (· ++ "\n"))

def version : String := lines ["formc 0.1.0"]

def program : String := lines
  [ "Compile schema bundles and a presentation into a renderable form",
    "",
    "Usage: formc [OPTIONS] <COMMAND>",
    "",
    "Commands:",
    "  compile   Compile a bundle and its presentation to form JSON",
    "  validate  Validate a presentation JSON against the formal JSON Schema",
    "  help      Print this message or the help of the given subcommand(s)",
    "",
    "Options:",
    "      --output <OUTPUT>  Output format (text or json) [default: text] " ++
      "[possible values: text, json]",
    "      --quiet            Suppress non-essential output",
    "  -h, --help             Print help",
    "  -V, --version          Print version" ]

def compile : String := lines
  [ "Compile a bundle and its presentation to form JSON",
    "",
    "Usage: formc compile [OPTIONS] --presentation <PRESENTATION> <BUNDLE>",
    "",
    "Arguments:",
    "  <BUNDLE>  Path to the base schema bundle JSON",
    "",
    "Options:",
    "      --dep <DEPS>",
    "          Dependency bundle JSON (repeatable)",
    "      --output <OUTPUT>",
    "          Output format (text or json) [default: text] [possible values: text, json]",
    "      --presentation <PRESENTATION>",
    "          Path to the presentation JSON",
    "      --quiet",
    "          Suppress non-essential output",
    "      --conditionals <CONDITIONALS>",
    "          Path to a JSON object of conditional rules keyed by attribute path",
    "      --readonly <READONLY>",
    "          Attribute path rendered read-only, with its descendants (repeatable)",
    "      --reference-time <REFERENCE_TIME>",
    "          RFC 3339 instant relative date ranges resolve against (default: now)",
    "      --out <OUT>",
    "          Write the compiled form here instead of stdout",
    "  -h, --help",
    "          Print help" ]

def validate : String := lines
  [ "Validate a presentation JSON against the formal JSON Schema",
    "",
    "Usage: formc validate [OPTIONS] <PRESENTATION>",
    "",
    "Arguments:",
    "  <PRESENTATION>  Path to the presentation JSON file",
    "",
    "Options:",
    "      --output <OUTPUT>  Output format (text or json) [default: text] " ++
      "[possible values: text, json]",
    "      --quiet            Suppress non-essential output",
    "  -h, --help             Print help" ]

def help : String := lines
  [ "Print this message or the help of the given subcommand(s)",
    "",
    "Usage: formc help [COMMAND]...",
    "",
    "Arguments:",
    "  [COMMAND]...  Print help for the subcommand(s)" ]

end FormCompiler.CommandLine.Help
