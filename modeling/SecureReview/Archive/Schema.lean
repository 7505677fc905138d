import SecureReview.Json.Loose
import SecureReview.Number.Decimal
import SecureReview.Number.Whole
import SecureReview.Time.Reader
/-!
# Rows and columns

The tables of the archive by their columns. A column has a kind, and values of other kinds are brought
to it where that loses nothing; a required column must not be null when its row is kept. A long
result is given out in parts.
-/

namespace SecureReview

/-- The kinds of columns. -/
inductive ColumnKind where
  | integer
  | text
  | real
  | flag
  | time
  | json

/-- What a column holds if nothing is given. -/
inductive ColumnDefault where
  | null
  | value (v : Json)
  | now

/-- A column. -/
structure Column where
  name : String
  kind : ColumnKind
  required : Bool := false
  default : ColumnDefault := .null

/-- A row: its columns with their values. -/
abbrev Row := Fields

/-- A table by its name, its columns, and the names of the rows that it is linked with. -/
structure Schema where
  name : String
  columns : List Column
  links : List String := []

namespace ColumnKind

/-- The whole number that a text stands for. -/
def numeral? (s : String) : Option Int :=
  match Text.readInt s with
  | .ok n => some n
  | .error _ => none

/-- The value as a column of this kind keeps it. -/
def keep (kind : ColumnKind) (v : Json) : Json :=
  match kind, v with
  | .integer, .bool b => .int (if b then 1 else 0)
  | .integer, .str s => ((numeral? s).map Json.int).getD (.str s)
  | .integer, .float x =>
    match Number.truncate? x with
    | some n => if Number.ofInt? n == some x then .int n else .float x
    | none => .float x
  | .text, .bool b => .str (if b then "1" else "0")
  | .text, .int n => .str (Json.int n).display
  | .text, .float x => .str (Json.float x).display
  | .real, .int n => ((Number.ofInt? n).map Json.float).getD (.int n)
  | .real, .bool b => .float (if b then 1.0 else 0.0)
  | .flag, v => if v.isNumber 1 then .bool true else if v.isNumber 0 then .bool false else v
  | .time, .str s => ((DateTime.ofText? s).map (fun t => Json.str t.iso)).getD (.str s)
  | _, v => v

end ColumnKind

namespace Row

/-- The value of a column. -/
def value (r : Row) (k : String) : Json :=
  (Fields.get? r k).getD .null

/-- The number of a row. -/
def id (r : Row) : Int :=
  match r.value "id" with
  | .int n => n
  | _ => 0

/-- The number that a key stands for; a key that is no number is the number of no row. -/
def keyOf (v : Json) : Except Failure Int :=
  match ColumnKind.integer.keep v with
  | .int n =>
    if n.natAbs < Number.twoTo 63 then .ok n
    else .error (.tooLarge "Python int too large to convert to SQLite INTEGER")
  | _ => .ok 0

end Row

namespace Schema

/-- Every name that is given is a column or a link of the table. -/
def accepts (s : Schema) (given : Fields) : Bool :=
  given.all (fun g => s.columns.any (fun c => c.name == g.1) || s.links.contains g.1)

/-- Refuse names that the table does not have. -/
def checkNames (s : Schema) (given : Fields) : Except Failure Unit :=
  if s.accepts given then .ok ()
  else .error (.wrongKind s!"invalid keyword argument for {s.name}")

/-- The value of a column in a new row; null is filled with the default. -/
def fill (given : Fields) (now : DateTime) (c : Column) : Json :=
  match c.kind.keep (Row.value given c.name), c.default with
  | .null, .value v => v
  | .null, .now => .str now.iso
  | v, _ => v

/-- A new row with the next free number, if all that is required is there. -/
def newRow (s : Schema) (rows : List Row) (given : Fields) (now : DateTime) : Except Failure Row := do
  s.checkNames given
  let next : Int := rows.foldl (fun n r => max n r.id) 0 + 1
  let row : Row := s.columns.map (fun c => (c.name, fill given now c))
  if s.columns.any (fun c => c.required && (Row.value row c.name matches .null)) then
    .error .integrity
  else
    match Row.value row "id" with
    | .null => .ok (Fields.put row "id" (.int next))
    | _ => if rows.any (fun r => r.id == row.id) then .error .integrity else .ok row

end Schema

/-! ## The tables -/

namespace Schema

/-- The number of a row. -/
def idColumn : Column := { name := "id", kind := .integer }

/-- A text that has to be there. -/
def requiredText (name : String) : Column := { name, kind := .text, required := true }

/-- A text that may be missing. -/
def optionalText (name : String) : Column := { name, kind := .text }

/-- A time that is now unless another is given. -/
def timeColumn (name : String) : Column := { name, kind := .time, default := .now }

/-- A count that starts at zero. -/
def countColumn (name : String) : Column := { name, kind := .integer, default := .value (.int 0) }

/-- A switch that is off unless it is turned on. -/
def offColumn (name : String) : Column := { name, kind := .flag, default := .value (.bool false) }

/-- Scans of pull requests. -/
def scanJobs : Schema where
  name := "ScanJob"
  links := ["findings"]
  columns := [idColumn, requiredText "repo_full_name", { name := "pr_number", kind := .integer },
    requiredText "commit_sha",
    { name := "status", kind := .text, default := .value (.str "pending") },
    timeColumn "started_at", { name := "completed_at", kind := .time }, optionalText "error_message"]

/-- Findings of scans. -/
def findings : Schema where
  name := "Finding"
  links := ["scan_job", "feedback_entries"]
  columns := [idColumn, { name := "scan_job_id", kind := .integer, required := true },
    requiredText "tool", requiredText "rule_id", requiredText "severity", requiredText "description",
    requiredText "file_path", { name := "line_number", kind := .integer, required := true },
    optionalText "code_snippet", optionalText "llm_decision", { name := "llm_confidence", kind := .real },
    optionalText "llm_reasoning", optionalText "llm_severity", optionalText "llm_remediation",
    { name := "cwe_ids", kind := .json }, offColumn "reported_to_pr", offColumn "false_positive_marked",
    timeColumn "created_at"]

/-- Custom rules. -/
def customRules : Schema where
  name := "CustomRule"
  columns := [idColumn, requiredText "name", requiredText "language", requiredText "tool",
    requiredText "rule_id", { name := "enabled", kind := .flag, default := .value (.bool true) },
    optionalText "severity_override", optionalText "custom_message", optionalText "description",
    timeColumn "created_at", timeColumn "updated_at"]

/-- Settings of rules. -/
def ruleConfigurations : Schema where
  name := "RuleConfiguration"
  columns := [idColumn, requiredText "key", { name := "value", kind := .json, required := true },
    optionalText "description", timeColumn "created_at", timeColumn "updated_at"]

/-- Measures of accuracy over time. -/
def metricSnapshots : Schema where
  name := "MetricSnapshot"
  columns := [idColumn, timeColumn "timestamp", requiredText "period", optionalText "language",
    optionalText "tool", optionalText "severity", countColumn "true_positives",
    countColumn "false_positives", countColumn "false_negatives", countColumn "true_negatives",
    { name := "precision", kind := .real }, { name := "recall", kind := .real },
    { name := "f1_score", kind := .real }, countColumn "total_findings", countColumn "total_scans"]

/-- What users say about findings. -/
def feedbackEntries : Schema where
  name := "FeedbackEntry"
  links := ["finding"]
  columns := [idColumn, { name := "finding_id", kind := .integer, required := true },
    optionalText "user_github_username", requiredText "feedback_type", optionalText "comment",
    timeColumn "created_at"]

/-- What the service did. -/
def auditLogs : Schema where
  name := "AuditLog"
  columns := [idColumn, timeColumn "timestamp", requiredText "event_type",
    optionalText "repo_full_name", { name := "pr_number", kind := .integer },
    { name := "details", kind := .json }]

/-- All tables. -/
def all : List Schema :=
  [scanJobs, findings, customRules, ruleConfigurations, metricSnapshots, feedbackEntries, auditLogs]

end Schema

/-! ## Pages -/

namespace Page

/-- A part of a result: rows are skipped, and no more than a number of them is kept. Negative numbers
skip nothing and keep everything. -/
def cut {α : Type} (skip limit : Option Int) (rows : List α) : List α :=
  let rows := rows.drop (skip.getD 0).toNat
  match limit with
  | some n => if n < 0 then rows else rows.take n.toNat
  | none => rows

/-- The bound of a page: a number, or none. -/
def bound : Json → Except Failure (Option Int)
  | .null => .ok none
  | v => some <$> v.toInt

end Page

end SecureReview
