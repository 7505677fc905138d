import SecureReview.Archive.Schema
import SecureReview.Number.Num
import SecureReview.Validation.Coercion
/-!
# Feedback on findings

Scans, their findings, and what users say about the findings. Feedback is kept only for findings that
are there, and only of the three known types, so the counts by type add up to the total.
-/

namespace SecureReview

/-- What a user says about a finding. -/
structure FeedbackDraft where
  findingId : Int
  type : String
  comment : Option String := none
  user : Option String := none

/-- Feedback as it is kept. -/
structure FeedbackEntry where
  id : Nat
  findingId : Int
  type : String
  comment : Option String
  user : Option String
  createdAt : DateTime

/-- Scans, findings and feedback, each in the order of their numbers. -/
structure Archive where
  jobs : List Row := []
  findings : List Row := []
  feedback : List FeedbackEntry := []

/-- Which feedback is asked for. -/
structure FeedbackFilter where
  start : Option DateTime := none
  stop : Option DateTime := none
  language : Json := .null
  tool : Json := .null

/-- Counts of feedback. -/
structure FeedbackStats where
  total : Nat
  truePositives : Nat
  falsePositives : Nat
  falseNegatives : Nat

/-- The share of `part` in `total`; of nothing it is zero. -/
def shareOf (part total : Nat) : Float :=
  if total == 0 then 0.0
  else (Number.ofQuotient false part total).getD 0.0

namespace FeedbackDraft

/-- Check feedback that is handed in. -/
def check (fs : Fields) : Checked FeedbackDraft :=
  FeedbackDraft.mk <$> Checked.required fs "finding_id" Checked.int
    <*> Checked.required fs "feedback_type" Checked.string
    <*> Checked.optional fs "comment" Checked.string
    <*> Checked.optional fs "user_github_username" Checked.string

/-- Read feedback that is handed in. -/
def read (fs : Fields) : Except Failure FeedbackDraft :=
  (check fs).get "FeedbackCreate"

end FeedbackDraft

/-- Feedback as an object. -/
def FeedbackEntry.toJson (e : FeedbackEntry) : Json :=
  .obj [("id", Json.nat e.id), ("finding_id", .int e.findingId), ("feedback_type", .str e.type),
    ("comment", Json.ofString? e.comment), ("user_github_username", Json.ofString? e.user),
    ("created_at", .str e.createdAt.iso)]

/-- The counts as an object. -/
def FeedbackStats.toJson (s : FeedbackStats) : Json :=
  .obj [("total_feedback", Json.nat s.total), ("true_positives", Json.nat s.truePositives),
    ("false_positives", Json.nat s.falsePositives), ("false_negatives", Json.nat s.falseNegatives),
    ("false_positive_rate", .float (shareOf s.falsePositives s.total))]

namespace Archive

/-- The types of feedback. -/
def types : List String := ["true_positive", "false_positive", "false_negative"]

/-! ## Scans and findings -/

/-- Keep a row in the order of the numbers. -/
def place (r : Row) (rows : List Row) : List Row :=
  rows.filter (fun x => x.id < r.id) ++ r :: rows.filter (fun x => !decide (x.id < r.id))

/-- Add a scan. -/
def addJob (a : Archive) (given : Fields) (now : DateTime) : Except Failure (Row × Archive) := do
  let r ← Schema.scanJobs.newRow a.jobs given now
  return (r, { a with jobs := place r a.jobs })

/-- Add a finding. -/
def addFinding (a : Archive) (given : Fields) (now : DateTime) : Except Failure (Row × Archive) := do
  let r ← Schema.findings.newRow a.findings given now
  return (r, { a with findings := place r a.findings })

/-- A finding belongs to a scan. -/
def belongsTo (job : Int) (f : Row) : Bool :=
  (f.value "scan_job_id").same (.int job)

/-- The finding with a number. -/
def finding? (a : Archive) (id : Int) : Option Row :=
  a.findings.find? (fun f => f.id == id)

/-- Delete a scan with its findings. Findings with feedback cannot be deleted. -/
def deleteJob (a : Archive) (id : Int) : Except Failure Archive :=
  if a.jobs.any (fun j => j.id == id) then
    let gone := a.findings.filter (belongsTo id)
    if a.feedback.any (fun e => gone.any (fun f => f.id == e.findingId)) then .error .integrity
    else .ok { a with
      jobs := a.jobs.filter (fun j => j.id != id)
      findings := a.findings.filter (fun f => !belongsTo id f) }
  else .error .noRow

/-! ## Feedback -/

/-- Keep feedback. -/
def submit (a : Archive) (d : FeedbackDraft) (now : DateTime) :
    Except Failure (FeedbackEntry × Archive) := do
  if !types.contains d.type then
    throw (.refused 400 ("Invalid feedback_type. Must be one of: " ++ Text.joinWith ", " types))
  let key ← Row.keyOf (.int d.findingId)
  match a.finding? key with
  | none => throw (.refused 404 "Finding not found")
  | some _ =>
    let next := a.feedback.foldl (fun n e => max n e.id) 0 + 1
    let e : FeedbackEntry := ⟨next, d.findingId, d.type, d.comment, d.user, now⟩
    return (e, { a with feedback := a.feedback ++ [e] })

/-- What a clock shows, whatever its distance from universal time. -/
def shownTime (t : DateTime) : Int :=
  t.localSeconds * 1000000 + t.micro

/-- Feedback is asked for. A question about a language or a tool needs the finding to be there. -/
def keeps (a : Archive) (f : FeedbackFilter) (e : FeedbackEntry) : Bool :=
  let since := (f.start.map (fun t => decide (shownTime t ≤ shownTime e.createdAt))).getD true
  let before := (f.stop.map (fun t => decide (shownTime e.createdAt ≤ shownTime t))).getD true
  let joined := !f.language.truthy && !f.tool.truthy ||
    match a.finding? e.findingId with
    | none => false
    | some row => !f.tool.truthy || f.tool.same (row.value "tool")
  since && before && joined

/-- The number of entries of a type. -/
def countOf (type : String) (es : List FeedbackEntry) : Nat :=
  (es.filter (fun e => e.type == type)).length

/-- The counts of the feedback that is asked for. -/
def stats (a : Archive) (f : FeedbackFilter) : FeedbackStats :=
  let es := a.feedback.filter (a.keeps f)
  ⟨es.length, countOf "true_positive" es, countOf "false_positive" es, countOf "false_negative" es⟩

/-- Newer entries come first; entries of the same time stay in order. -/
def newestFirst (es : List FeedbackEntry) : List FeedbackEntry :=
  es.mergeSort (fun x y => shownTime y.createdAt ≤ shownTime x.createdAt)

/-- The newest feedback, of one type or of all. Of all feedback, what was kept last comes first among
entries of the same time. -/
def recent (a : Archive) (type limit : Json) : Except Failure (List FeedbackEntry) := do
  let es := if type.truthy then newestFirst (a.feedback.filter (fun e => type.same (.str e.type)))
    else newestFirst a.feedback.reverse
  return Page.cut none (← Page.bound limit) es

/-- The feedback on the findings of a rule, finding by finding. -/
def feedbackOn (a : Archive) (rule : Json) : List FeedbackEntry :=
  (a.findings.filter (fun f => (f.value "rule_id").same rule)).flatMap
    (fun f => a.feedback.filter (fun e => e.findingId == f.id))

/-- What is said about a rule: the counts, and the newest entries. -/
def byRule (a : Archive) (rule limit : Json) : Except Failure Json := do
  let es := a.feedbackOn rule
  let wrong := countOf "false_positive" es
  let shown := Page.cut none (← Page.bound limit) (newestFirst es)
  return .obj [("rule_id", rule), ("total_feedback", Json.nat es.length),
    ("false_positives", Json.nat wrong), ("false_positive_rate", .float (shareOf wrong es.length)),
    ("recent_feedback", .arr (shown.map FeedbackEntry.toJson))]

end Archive

end SecureReview
