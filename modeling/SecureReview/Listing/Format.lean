import SecureReview.Json.Loose
import SecureReview.Json.Printer
/-!
# Listings of findings

The result of a scan as JSON, in the interchange format for static analysis, or as plain text.
-/

namespace SecureReview

/-- The forms of a listing. -/
inductive ListingFormat where
  | json
  | sarif
  | text
  deriving DecidableEq

namespace ListingFormat

/-- The forms by name; anything else is plain text. -/
def ofName : String → ListingFormat
  | "json" => .json
  | "sarif" => .sarif
  | _ => .text

/-- What stops a listing that holds a whole number of too many digits. -/
def tooLong : Failure :=
  .badValue (s!"Exceeds the limit ({Text.maxDigits} digits) for integer string conversion; " ++
    "use sys.set_int_max_str_digits() to increase the limit")

/-- Text that shows some values, if they can be written. -/
def showing {α : Type} (values : List Json) (text : α) : Except Failure α :=
  if values.all Json.isWritable then .ok text else .error tooLong

/-- The findings with their count. -/
def jsonListing (findings : List Json) : Json :=
  .obj [("total_findings", Json.nat findings.length), ("findings", .arr findings)]

/-- The level of a severity in the interchange format. -/
def sarifLevel (severity : Json) : Except Failure String := do
  match ← severity.uppered with
  | "CRITICAL" | "HIGH" => return "error"
  | "LOW" => return "note"
  | _ => return "warning"

/-- One result of the interchange format. -/
def sarifResult (finding : Json) : Except Failure Json := do
  let rule ← finding.getD "rule_id" (.str "unknown")
  let level ← sarifLevel (← finding.getD "severity" (.str "warning"))
  let text ← finding.getD "description" (.str "Security issue found")
  let file ← finding.getD "file" (.str "unknown")
  let line ← finding.getD "line" (.int 1)
  return .obj [
    ("ruleId", rule),
    ("level", .str level),
    ("message", .obj [("text", text)]),
    ("locations", .arr [.obj [("physicalLocation", .obj [
      ("artifactLocation", .obj [("uri", file)]),
      ("region", .obj [("startLine", line)])])]])]

/-- The tool that the interchange format names. -/
def sarifDriver : Json :=
  .obj [
    ("name", .str "Secure Code Review Bot"),
    ("version", .str "1.0.0"),
    ("informationUri", .str ("https://github.com/jitesh523/" ++
      "A-Comprehensive-Guide-to-Building-a-GenAI-Powered-Secure-Code-Review-Bot"))]

/-- The address of the schema of the interchange format. -/
def sarifSchema : String :=
  "https://raw.githubusercontent.com/oasis-tcs/sarif-spec/master/Schemata/sarif-schema-2.1.0.json"

/-- The findings in the interchange format. -/
def sarifListing (findings : List Json) : Except Failure Json := do
  let results ← findings.mapM sarifResult
  return .obj [
    ("version", .str "2.1.0"),
    ("$schema", .str sarifSchema),
    ("runs", .arr [.obj [("tool", .obj [("driver", sarifDriver)]), ("results", .arr results)]])]

/-- The signs of the severities. -/
def signs : List (String × String) :=
  [("CRITICAL", "🔴"), ("HIGH", "🟠"), ("MEDIUM", "🟡"), ("LOW", "🟢")]

/-- The lines of one finding in plain text. -/
def textEntry (number : Nat) (finding : Json) : Except Failure (List String) := do
  let severity ← finding.getD "severity" (.str "UNKNOWN")
  let sign := (← severity.lookupIn signs).getD "⚠️"
  let rule ← finding.getD "rule_id" (.str "unknown")
  let file ← finding.getD "file" (.str "unknown")
  let line ← finding.getD "line" (.str "?")
  let tool ← finding.getD "tool" (.str "unknown")
  let description ← finding.getD "description" (.str "No description")
  showing [severity, rule, file, line, tool, description]
    [s!"{number}. {sign} [{severity.display}] {rule.display}",
     s!"   File: {file.display}:{line.display}",
     s!"   Tool: {tool.display}",
     s!"   Description: {description.display}",
     ""]

/-- The lines of the findings from a number on. -/
def textEntries : Nat → List Json → Except Failure (List String)
  | _, [] => .ok []
  | n, f :: fs => do return (← textEntry n f) ++ (← textEntries (n + 1) fs)

/-- The findings in plain text. -/
def textListing (findings : List Json) : Except Failure String := do
  if findings.isEmpty then return "✅ No security issues found!"
  let entries ← textEntries 1 findings
  return Text.joinWith "\n" (s!"\n🔍 Found {findings.length} security issue(s):\n" :: entries)

/-- The listing of the findings. -/
def render (f : ListingFormat) (findings : List Json) : Except Failure String :=
  match f with
  | .json => showing findings (jsonListing findings).pretty
  | .sarif => do
    let listing ← sarifListing findings
    showing [listing] listing.pretty
  | .text => textListing findings

end ListingFormat

end SecureReview

/-! ## The build gate

A build fails when a finding is at least as severe as a threshold.
-/

namespace SecureReview.Gate

/-- The rank of a severity in lower case. -/
def rank? (severity : String) : Option Nat :=
  List.lookup severity [("low", 1), ("medium", 2), ("high", 3), ("critical", 4)]

/-- The lowest rank that fails a build. A threshold that is not known is the highest. -/
def threshold (failOn : String) : Nat :=
  (rank? (Text.lower failOn)).getD 4

/-- The rank of a finding; an unknown severity ranks below all thresholds. -/
def findingRank (finding : Json) : Except Failure Nat := do
  let severity ← (← finding.getD "severity" (.str "")).lowered
  return (rank? severity).getD 0

/-- The exit code of a scan: one if some finding reaches the threshold. -/
def exitCode (findings : List Json) (failOn : String) : Except Failure Nat :=
  if failOn == "none" then .ok 0
  else do
    let fails ← findings.anyM (fun f => do return decide (threshold failOn ≤ (← findingRank f)))
    return if fails then 1 else 0

end SecureReview.Gate
