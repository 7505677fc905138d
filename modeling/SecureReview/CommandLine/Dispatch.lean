import SecureReview.CommandLine.Help
import SecureReview.CommandLine.Scan
import SecureReview.Text.Alphanumeric
/-!
# The command line

The arguments of the program choose a command and its options; what the command prints and its exit
code are the answer. Requests for help or the version come before any check of values.
-/

namespace SecureReview.CommandLine

/-- The reply to a fault in the arguments. -/
def faulty (c : Option CommandName) (f : UsageFault) : Reply :=
  ⟨f.report c, 2⟩

/-- The reply to a request for help. -/
def help (c : Option CommandName) : Reply :=
  ⟨helpText c, 0⟩

/-- The reply to a request for the version. -/
def versionReply : Reply :=
  ⟨s!"{program}, version {programVersion}\n", 0⟩

/-- The scan that the options ask for. -/
def scanRequest (given : List Given) : ScanRequest where
  path := (valueOf? given "--path").getD "."
  languages := valuesOf given "--language"
  format := ListingFormat.ofName ((valueOf? given "--format").getD "text")
  output := (valueOf? given "--output").getD ""
  failOn := (valueOf? given "--fail-on").getD "critical"
  maxFindings := (valueOf? given "--max-findings").bind (fun t => (Text.readInt t).toOption)
  suggestFixes := isGiven given "--suggest-fixes"
  autoFix := isGiven given "--auto-fix"

/-- What the fix command prints. -/
def fixReply (given : List Given) : Reply :=
  let id := ((valueOf? given "--finding-id").bind (fun t => (Text.readInt t).toOption)).getD 0
  let dryRun := (Json.bool (isGiven given "--dry-run")).display
  ⟨s!"Fix command for finding #{Json.intText id}\nDry run: {dryRun}\n\n" ++
    "Note: This feature requires database integration to load findings.\n" ++
    "Use 'scan --suggest-fixes' or 'scan --auto-fix' instead.\n", 0⟩

/-- What the version command prints. -/
def aboutReply : Reply :=
  ⟨s!"Secure Code Review Bot v{programVersion}\n" ++
    "Supported languages: Python, JavaScript, TypeScript, Go, Rust\n" ++
    "Features: Auto-fix, Context-aware scanning, LLM verification\n", 0⟩

/-- Run a command whose options are in order. -/
def perform (c : CommandName) (given : List Given) : Run Reply :=
  match c with
  | .scan => (scanRequest given).run
  | .fix => return fixReply given
  | .version => return aboutReply

/-- Run a command with its arguments. -/
def runCommand (c : CommandName) (args : List String) : Run Reply :=
  match split c.options true args with
  | .error f => return faulty (some c) f
  | .ok (given, words) =>
    if isGiven given "--help" then return help (some c)
    else
      match checkAll c.options given words with
      | .error f => return faulty (some c) f
      | .ok () => perform c given

/-- Read what stands in front of the command: a reply, or the words from the command on. -/
def readProgram (args : List String) : Except Reply (List String) :=
  if args.isEmpty then .error (help none)
  else
    match split programOptions false args with
    | .error f => .error (faulty none f)
    | .ok (given, words) =>
      match given with
      | g :: _ => .error (if g.long == "--help" then help none else versionReply)
      | [] => .ok words

/-- A word that starts like an option. -/
def looksLikeOption (word : String) : Bool :=
  match word.toList with
  | c :: _ => !Text.isAlphanumeric c
  | [] => false

/-- Run the program with its arguments. After a word that looks like an option the rest is read once
more before the word is refused as a command. -/
def run (args : List String) : Run Reply :=
  match readProgram args with
  | .error reply => return reply
  | .ok [] => return faulty none .missingCommand
  | .ok (name :: rest) =>
    match CommandName.ofString? name with
    | some c => runCommand c rest
    | none =>
      match if looksLikeOption name then readProgram rest else .ok [] with
      | .error reply => return reply
      | .ok _ => return faulty none (.noCommand name)

end SecureReview.CommandLine
