import SecureReview.Json.Loose
import SecureReview.World.Basic
/-!
# Checking the form of code

Code is given to the parser or the compiler of its language. A tool that is not installed is no reason
to refuse code. The code is put in a file for the time of the check; if the tool could not be run, the
file stays.
-/

namespace SecureReview.Fix

/-- What a parser has against a piece of code. -/
inductive ParseTrouble where
  | malformed (line : Json) (text : String)
  | other (text : String)

/-- Whether code is well formed, with what was said about it. -/
abbrev FormCheck := Bool × String

/-- The outcome of parsing. -/
def parsedCheck : Option ParseTrouble → FormCheck
  | none => (true, "")
  | some (.malformed line text) => (false, s!"Syntax error at line {line.display}: {text}")
  | some (.other text) => (false, s!"Validation error: {text}")

/-- A tool that checks a file: its title, the ending of its files, the words before the name of the
file, and the seconds that it may take. -/
structure Checker where
  title : String
  ending : String
  words : List String
  seconds : Nat

/-- The checkers by language. -/
def checkers : List (String × Checker) :=
  [("javascript", ⟨"Node.js", ".js", ["node", "--check"], 5⟩),
   ("typescript", ⟨"TypeScript", ".ts", ["npx", "-y", "typescript", "--noEmit"], 10⟩),
   ("go", ⟨"Go", ".go", ["go", "fmt"], 5⟩),
   ("rust", ⟨"Rust", ".rs", ["rustfmt", "--check"], 5⟩)]

/-- The file that the code is put in. -/
def Checker.file (c : Checker) : String :=
  "<tmp>" ++ c.ending

/-- Check code with a tool. -/
def Checker.check (c : Checker) (code : String) : Run FormCheck :=
  try
    Run.setFiles ((← Run.files).put c.file (Text.encodeUtf8 code))
    let out ← Run.process { words := c.words ++ [c.file], timeout := some c.seconds }
    Run.setFiles (← Run.ofExcept ((← Run.files).unlink c.file))
    return if out.code == 0 then (true, "") else (false, out.stderr)
  catch e =>
    match e with
    | .timedOut .. => return (false, "Validation timeout")
    | .noFile _ => return (true, s!"Validation skipped ({c.title} not available)")
    | e => return (false, s!"Validation error: {e.message}")

/-- Check code in a language, whose name may be in any letter case. `parse` is the parser of Python. -/
def checkForm (parse : String → Option ParseTrouble) (code language : String) : Run FormCheck :=
  let name := Text.lower language
  if name == "python" then return parsedCheck (parse code)
  else
    match checkers.lookup name with
    | some c => c.check code
    | none => return (true, s!"Validation skipped (unsupported language: {language})")

end SecureReview.Fix
