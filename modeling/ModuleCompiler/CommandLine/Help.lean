import ModuleCompiler.CommandLine.Request

/-!
Explanations of the program and its commands.
-/

namespace ModuleCompiler

namespace Topic

def summary : Topic → String
  | program => "Modfile compiler - turns module descriptors into canonical module IR"
  | compile => "Compile a modfile and print the module (reads stdin when FILE is omitted)"
  | check => "Compile a modfile and only report whether it is valid"
  | versions => "List the registered schema versions"
  | help => "Print this message or the help of the given subcommand(s)"

def usage : Topic → String
  | program => "modfile [OPTIONS] [COMMAND]"
  | compile => "modfile compile [FILE]"
  | check => "modfile check [FILE]"
  | versions => "modfile versions"
  | help => "modfile help [COMMAND]"

/-- What follows the usage. -/
def details : Topic → List String
  | program =>
    ["Commands:",
      "  compile   " ++ compile.summary,
      "  check     " ++ check.summary,
      "  versions  " ++ versions.summary,
      "  help      " ++ help.summary,
      "",
      "Options:",
      "  -c, --config <CONFIG>  Path to configuration file",
      "  -f, --format <FORMAT>  Output format override (json or yaml)",
      "      --print-config     Print effective configuration (YAML) and exit",
      "  -v, --verbose...       Log verbosity level (-v debug, -vv trace)",
      "  -h, --help             Print help",
      "  -V, --version          Print version"]
  | compile => ["Arguments:", "  [FILE]  ", "", "Options:", "  -h, --help  Print help"]
  | check => ["Arguments:", "  [FILE]  ", "", "Options:", "  -h, --help  Print help"]
  | versions => ["Options:", "  -h, --help  Print help"]
  | help => ["Arguments:", "  [COMMAND]...  Print help for the subcommand(s)"]

def text (t : Topic) : String :=
  String.join (([t.summary, "", "Usage: " ++ t.usage, ""] ++ t.details).map (· ++ "\n"))

end Topic

end ModuleCompiler
