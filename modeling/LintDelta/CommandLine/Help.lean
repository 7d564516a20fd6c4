import LintDelta.Routing

/-!
# Help

What the program says about itself.
-/

namespace LintDelta.CommandLine

def programName : String := "git-contrast"

def versionText : String := programName ++ " 0.1.0\n"

def linterHelp : String :=
  "Route an extension to a linter (can be specified multiple times). Linters: " ++ Tool.listing ++
    ". Routed by default: " ++ String.intercalate " " Routing.standard.extensions

def usageText : String :=
  "Usage: " ++ programName ++ " [OPTIONS] <COMMIT_RANGE>...\n"

def optionLines : List (String × String) :=
  [("-o, --output-format <FORMAT>", "Output format: text or json [default: text]"),
    ("-l, --language <LANGUAGE>",
      "Only lint files of this language (python, java, kotlin, c, c++, haskell)"),
    ("    --on-failure <POLICY>",
      "What to do when a file cannot be linted: degrade or abort [default: degrade]"),
    ("    --linter <EXT=NAME>", linterHelp),
    ("-C, --repo <PATH>", "Path to the repository [default: .]"),
    ("-v, --verbose", "Log progress to stderr"),
    ("-h, --help", "Print help"),
    ("-V, --version", "Print version")]

def helpText : String :=
  "Reveal the change in code quality between two commits\n\n" ++
    "The repository and the runs of the tools are read from standard input, as a recording.\n\n" ++
    usageText ++
    "\nArguments:\n  <COMMIT_RANGE>...\n          Commit range: 'from..to', 'from to', or 'from' " ++
    "(compared to HEAD)\n\nOptions:\n" ++
    String.join (optionLines.map fun (option, text) => "  " ++ option ++ "\n          " ++ text ++ "\n")

end LintDelta.CommandLine
