import SecureReview.Archive.Schema
import SecureReview.Number.Num
/-!
# Labels of rows

The short text by which a row is named in messages. It is made from the values as they were given; a
row that is not kept yet has no defaults.
-/

namespace SecureReview

namespace Row

/-- A value in a label; times are shown with a blank between date and time. -/
def shown (s : Schema) (given : Row) (k : String) : String :=
  let isTime := s.columns.any (fun c => c.name == k && c.kind matches .time)
  match given.value k with
  | .str t =>
    if isTime then ((DateTime.ofText? t).map DateTime.display).getD t else t
  | v => v.display

/-- A number with two places. -/
def twoPlaces (v : Json) : Except Failure String :=
  match Num.ofJson? v, v with
  | some n, _ => do return Number.fixed (← n.toFloat) 2
  | none, .str _ => .error (.badValue "Unknown format code 'f' for object of type 'str'")
  | none, v => .error (.wrongKind s!"unsupported format string passed to {v.kind}.__format__")

/-- The label of a row. -/
def label (s : Schema) (given : Row) : Except Failure String := do
  s.checkNames given
  let f := shown s given
  match s.name with
  | "ScanJob" => return "<ScanJob " ++ f "repo_full_name" ++ " PR#" ++ f "pr_number" ++ ">"
  | "Finding" =>
    return "<Finding " ++ f "tool" ++ ":" ++ f "rule_id" ++ " " ++ f "llm_decision" ++ ">"
  | "CustomRule" =>
    return "<CustomRule " ++ f "tool" ++ ":" ++ f "rule_id" ++ " enabled=" ++ f "enabled" ++ ">"
  | "RuleConfiguration" => return "<RuleConfiguration " ++ f "key" ++ ">"
  | "MetricSnapshot" =>
    let p ← twoPlaces (given.value "precision")
    let r ← twoPlaces (given.value "recall")
    let f1 ← twoPlaces (given.value "f1_score")
    return "<MetricSnapshot " ++ f "period" ++ " " ++ f "timestamp" ++ s!" P={p} R={r} F1={f1}>"
  | "FeedbackEntry" =>
    return "<FeedbackEntry " ++ f "feedback_type" ++ " for Finding#" ++ f "finding_id" ++ ">"
  | _ => return "<AuditLog " ++ f "event_type" ++ " " ++ f "timestamp" ++ ">"

end Row

end SecureReview
