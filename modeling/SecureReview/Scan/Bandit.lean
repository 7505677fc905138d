import SecureReview.Json.Loose
import SecureReview.World.Basic
/-!
# Bandit

Findings in Python code. A run that fails in any way reports nothing.
-/

namespace SecureReview.Scan.Bandit

/-- The finding for one result of the tool. -/
def finding (r : Json) : Except Failure Json := do
  return .obj [
    ("tool", .str "bandit"),
    ("severity", ← r.get "issue_severity"),
    ("confidence", ← r.get "issue_confidence"),
    ("description", ← r.get "issue_text"),
    ("file", ← r.get "filename"),
    ("line", ← r.get "line_number"),
    ("code", ← r.get "code"),
    ("rule_id", ← r.get "test_id")]

/-- The findings for a list of results. -/
def findings (results : Json) : Except Failure (List Json) := do
  (← results.items).mapM finding

/-- The findings in what the tool printed. -/
def read (output : String) : Except Failure (List Json) := do
  let report ← Json.read output
  findings (← report.getD "results" (.arr []))

/-- Scan a path. -/
def scan (config path : String) : Run (List Json) :=
  try
    let out ← Run.process { words := ["bandit", "-r", path, "-f", "json", "-c", config] }
    Run.ofExcept (read out.stdout)
  catch _ => return []

end SecureReview.Scan.Bandit
