import SecureReview.CommandLine.Options
/-!
# Help

The commands, their options, and the texts that describe them.
-/

namespace SecureReview.CommandLine

/-- The commands of the program. -/
inductive CommandName where
  | scan
  | fix
  | version
  deriving DecidableEq

/-- The name of the program. -/
def program : String := "secure-code-bot"

/-- The version of the program. -/
def programVersion : String := "1.0.0"

/-- The option that every command has. -/
def helpOption : OptionSpec := { long := "--help" }

/-- The options in front of the command. -/
def programOptions : List OptionSpec := [{ long := "--version" }, helpOption]

namespace CommandName

/-- The command of a name. -/
def ofString? : String → Option CommandName
  | "scan" => some .scan
  | "fix" => some .fix
  | "version" => some .version
  | _ => none

/-- The name of a command. -/
def text : CommandName → String
  | .scan => "scan"
  | .fix => "fix"
  | .version => "version"

/-- The options of a command. -/
def options : CommandName → List OptionSpec
  | .scan => [
      { long := "--path", short := some 'p', takes := .text },
      { long := "--language", short := some 'l', takes := .text },
      { long := "--format", short := some 'f', takes := .oneOf ["json", "sarif", "text"] },
      { long := "--output", short := some 'o', takes := .text },
      { long := "--fail-on", takes := .oneOf ["critical", "high", "medium", "low", "none"] },
      { long := "--max-findings", takes := .whole },
      { long := "--suggest-fixes" },
      { long := "--auto-fix" },
      helpOption]
  | .fix => [
      { long := "--finding-id", takes := .whole, required := true },
      { long := "--dry-run" },
      helpOption]
  | .version => [helpOption]

end CommandName

/-- The line that shows how the program or one of its commands is used. -/
def usageLine : Option CommandName → String
  | none => s!"Usage: {program} [OPTIONS] COMMAND [ARGS]..."
  | some c => s!"Usage: {program} {c.text} [OPTIONS]"

/-- The words that name the program or one of its commands. -/
def calledAs : Option CommandName → String
  | none => program
  | some c => s!"{program} {c.text}"

/-- The report of a fault in the arguments. -/
def UsageFault.report (f : UsageFault) (c : Option CommandName) : String :=
  s!"{usageLine c}\nTry '{calledAs c} --help' for help.\n\nError: {f.message}\n"

/-- The description of the program or of one of its commands. -/
def description : Option CommandName → List String
  | none => [
      "  Secure Code Review Bot - CLI for CI/CD Integration"]
  | some .scan => [
      "  Scan code for security vulnerabilities.",
      "",
      "  Examples:     secure-code-bot scan --path ./src --language python",
      "  secure-code-bot scan --format sarif --output results.sarif     secure-code-",
      "  bot scan --fail-on high     secure-code-bot scan --suggest-fixes     secure-",
      "  code-bot scan --auto-fix --path ./src"]
  | some .fix => [
      "  Apply a fix suggestion for a specific finding.",
      "",
      "  Example:     secure-code-bot fix --finding-id 123     secure-code-bot fix",
      "  --finding-id 123 --dry-run"]
  | some .version => [
      "  Show version information"]

/-- The table of the options of the program or of one of its commands. -/
def optionTable : Option CommandName → List String
  | none => [
      "  --version  Show the version and exit.",
      "  --help     Show this message and exit.",
      "",
      "Commands:",
      "  fix      Apply a fix suggestion for a specific finding.",
      "  scan     Scan code for security vulnerabilities.",
      "  version  Show version information"]
  | some .scan => [
      "  -p, --path TEXT                 Path to scan (default: current directory)",
      "  -l, --language TEXT             Languages to scan (default: all)",
      "  -f, --format [json|sarif|text]  Output format",
      "  -o, --output PATH               Output file (default: stdout)",
      "  --fail-on [critical|high|medium|low|none]",
      "                                  Fail build on severity",
      "  --max-findings INTEGER          Maximum findings to report",
      "  --suggest-fixes                 Generate fix suggestions for findings",
      "  --auto-fix                      Automatically apply fixes (use with",
      "                                  caution!)",
      "  --help                          Show this message and exit."]
  | some .fix => [
      "  --finding-id INTEGER  Finding ID to fix  [required]",
      "  --dry-run             Preview fix without applying",
      "  --help                Show this message and exit."]
  | some .version => [
      "  --help  Show this message and exit."]

/-- The help text of the program or of one of its commands. -/
def helpText (c : Option CommandName) : String :=
  String.join (([usageLine c, ""] ++ description c ++ ["", "Options:"] ++ optionTable c).map (· ++ "\n"))

end SecureReview.CommandLine
