import SecureReview.Json.Loose
import SecureReview.Metrics.Score
import SecureReview.Settings
/-!
# Pages of the service

What the service tells about itself, and its measures of accuracy.
-/

namespace SecureReview.Service

/-- The service is well. -/
def health (s : Settings) : Json :=
  .obj [("status", .str "healthy"), ("version", .str s.appVersion),
    ("service", .str "secure-code-review-bot")]

/-- The name and version of the service. -/
def version (s : Settings) : Json :=
  .obj [("version", .str s.appVersion), ("name", .str s.appName)]

/-- Where to find what. -/
def root : Json :=
  .obj [("message", .str "Secure Code Review Bot API"), ("docs", .str "/docs"),
    ("health", .str "/health"), ("version", .str "/version"), ("webhook", .str "/webhook/github")]

/-- Start the service: the store has to be usable, and then the log is missing. -/
def start (storeWorks : Bool) : Except Failure Json :=
  if storeWorks then .error (.unknownName "logger") else .error .noStore

/-- The counts behind the summary of accuracy. -/
def counts : Score.Counts :=
  ⟨.int 85, .int 10, .int 5, .int 0⟩

/-- The summary of accuracy. -/
def summary : Except Failure Json := do
  let m ← Score.all counts
  return .obj [("true_positives", .int 85), ("false_positives", .int 10), ("false_negatives", .int 5),
    ("true_negatives", .int 0), ("precision", ← m.get "precision"), ("recall", ← m.get "recall"),
    ("f1_score", ← m.get "f1_score"), ("total_findings", .int 100), ("total_scans", .int 50)]

/-- The measures as a file of one of two formats. -/
def exported (format : Json) : Except Failure Json :=
  if format.same (.str "json") then .ok (.obj [("data", .arr [])])
  else if format.same (.str "csv") then .ok (.str "timestamp,precision,recall,f1_score\n")
  else .error (.refused 400 "Format must be 'csv' or 'json'")

/-- The questions about accuracy that have no data behind them yet. -/
def empty (grouped : Bool) : Json :=
  if grouped then .obj [] else .arr []

end SecureReview.Service
