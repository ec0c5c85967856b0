import LineTint.Language

/-!
# Texts of the tool

What the tool prints about itself: its help, its version and the languages it
knows.
-/

namespace LineTint.Tool
set_option autoImplicit false

/-- The answer to a request for help. -/
def helpText : String :=
  "Line-based syntax highlighter for a lightweight code editor\n" ++
  "\n" ++
  "Usage: codepad [OPTIONS] [FILE]\n" ++
  "\n" ++
  "Arguments:\n" ++
  "  [FILE]  File to highlight (reads stdin when omitted)\n" ++
  "\n" ++
  "Options:\n" ++
  "  -l, --language <NAME>  Language to highlight as (detected from the file extension otherwise)\n" ++
  "  -n, --line-numbers     Prefix each line with its number\n" ++
  "      --no-color         Disable colors\n" ++
  "      --list-languages   List supported languages and exit\n" ++
  "  -v, --verbose...       Verbose logging\n" ++
  "  -h, --help             Print help\n" ++
  "  -V, --version          Print version\n"

/-- The answer to a request for the version. -/
def versionText : String := "codepad 0.1.0\n"

/-- The line about a language: its name in a column, its name for readers, and
its extensions. -/
def languageLine (l : Language) : String :=
  let column := l.name.toList ++ List.replicate (12 - l.name.length) ' '
  .ofList column ++ l.displayName ++ "  (." ++ ", .".intercalate l.extensions ++ ")\n"

/-- The list of the languages. -/
def languagesText : String :=
  .join (Language.all.map languageLine)

end LineTint.Tool
