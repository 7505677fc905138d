import SecureReview.Fix.Patch
import SecureReview.Listing.Format
import SecureReview.Scan.Enriched
import SecureReview.Text.Search
/-!
# The scan command

A path is scanned for some languages, fixes are suggested or made if asked for, the findings are listed
and the build gate decides on the exit code.
-/

namespace SecureReview.CommandLine

/-- What a command printed and the code with which it ended. -/
structure Reply where
  output : String
  code : Nat

/-- What to scan, and what to do with the findings. -/
structure ScanRequest where
  path : String := "."
  languages : List String := []
  format : ListingFormat := .text
  output : String := ""
  failOn : String := "critical"
  maxFindings : Option Int := none
  suggestFixes : Bool := false
  autoFix : Bool := false

namespace ScanRequest

/-- The languages to scan: all of them if none is named. -/
def scanned (r : ScanRequest) : List String :=
  if r.languages.isEmpty then Scan.repositoryLanguages else r.languages

/-- The findings of the languages in turn. A language whose scan fails has none. -/
def collect (path : String) : List String → Run (List Json)
  | [] => return []
  | language :: rest => do
    let found ← (try Scan.Toolbox.scanLanguage {} path language catch _ => pure [])
    return found ++ (← collect path rest)

/-- Keep at most so many findings. Zero is no limit, and a negative number drops findings at the end. -/
def limit (most : Option Int) (findings : List Json) : List Json :=
  match most with
  | none => findings
  | some n =>
    if n != 0 && n < findings.length then Text.slice findings 0 n else findings

/-- What a listing shows of a suggestion. -/
def suggestionOf (f : FixSuggestion) : Json :=
  .obj [("fixed_code", .str f.fixedCode), ("explanation", .str f.explanation),
    ("confidence", .float f.confidence), ("diff", .str f.diff)]

/-- Make the fix of a suggestion and note in the finding whether it was made. -/
def applyTo (fields : Fields) (f : FixSuggestion) : Run Json :=
  try
    let made ← f.patch.apply false
    return .obj (Fields.put fields "fix_applied" (.bool made))
  catch _ => return .obj fields

/-- Add a suggestion to a finding, and make the fix if asked to. Without a suggestion the finding stays
as it is. -/
def withFix (engine : FixEngine) (autoFix : Bool) (finding : Json) : Run Json := do
  let fix? ← (try engine.generate finding true catch _ => pure none)
  match finding, fix? with
  | .obj fields, some f =>
    let fields := Fields.put fields "fix_suggestion" (suggestionOf f)
    if autoFix then applyTo fields f else return .obj fields
  | _, _ => return finding

/-- The findings that are listed. -/
def findings (r : ScanRequest) : Run (List Json) := do
  let all ← collect r.path r.scanned
  let kept := limit r.maxFindings all
  if r.suggestFixes || r.autoFix then
    let engine ← Run.ofExcept (FixEngine.create none (← Run.settings))
    kept.mapM (withFix engine r.autoFix)
  else return kept

/-- Print the listing, or write it to the output file. The answer is what was printed. -/
def deliver (r : ScanRequest) (listing : String) : Run String := do
  if r.output == "" then return listing ++ "\n"
  else
    Run.setFiles (← Run.ofExcept ((← Run.files).writeText (Path.normal r.output) listing))
    return ""

/-- The exit code for some findings; findings that cannot be ranked fail the build. -/
def gate (r : ScanRequest) (findings : List Json) : Nat :=
  match Gate.exitCode findings r.failOn with
  | .ok code => code
  | .error _ => 1

/-- Scan, list and decide. -/
def run (r : ScanRequest) : Run Reply :=
  try
    let findings ← r.findings
    let listing ← Run.ofExcept (r.format.render findings)
    let printed ← r.deliver listing
    return ⟨printed, r.gate findings⟩
  catch _ => return ⟨"", 1⟩

end ScanRequest

end SecureReview.CommandLine
