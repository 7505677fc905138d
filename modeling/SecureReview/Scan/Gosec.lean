import SecureReview.Json.Loose
import SecureReview.World.Basic
/-!
# Gosec

Findings in Go code. A run that fails in any way reports nothing.
-/

namespace SecureReview.Scan.Gosec

/-- The finding for one issue. -/
def finding (r : Json) : Except Failure Json := do
  let severity ← (← r.getD "severity" (.str "MEDIUM")).uppered
  let line ← match r.get? "line" with
    | some v => v.toInt
    | none => pure 0
  let confidence ← (← r.getD "confidence" (.str "HIGH")).uppered
  return .obj [
    ("tool", .str "gosec"),
    ("severity", .str severity),
    ("confidence", .str confidence),
    ("description", ← r.getD "details" (.str "")),
    ("file", ← r.getD "file" (.str "")),
    ("line", .int line),
    ("code", ← r.getD "code" (.str "")),
    ("rule_id", ← r.getD "rule_id" (.str ""))]

/-- The findings for a list of issues. -/
def findings (results : Json) : Except Failure (List Json) := do
  (← results.items).mapM finding

/-- The findings in what the tool printed, which may be nothing. -/
def read (output : String) : Except Failure (List Json) := do
  if output == "" then return []
  let report ← Json.read output
  findings (← report.getD "Issues" (.arr []))

/-- Scan a path. -/
def scan (config path : String) : Run (List Json) :=
  try
    let out ← Run.process { words := ["gosec", "-fmt=json", "-conf", config, s!"{path}/..."] }
    Run.ofExcept (read out.stdout)
  catch _ => return []

end SecureReview.Scan.Gosec
