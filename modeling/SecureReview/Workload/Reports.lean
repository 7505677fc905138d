import SecureReview.Compliance.Report
import SecureReview.Listing.Format
import SecureReview.Metrics.Score
import SecureReview.Notify.Message
import SecureReview.Number.Whole
import SecureReview.Review.PullRequest
import SecureReview.Webhook.Event
import SecureReview.Workload.Basic
/-!
# Workloads of the reports

Listings, compliance, scores, comments and messages, and a review from end to end.
-/

namespace SecureReview.Workload

/-! ## Listings -/

/-- The lengths of the listings, the exit codes of the gates, and the levels of severities. -/
def cliFormatters : Workload :=
  once "cli_formatters" "n_findings" [100, 400, 1500] (fun n => do
    let fs := findings n
    let listings ← [ListingFormat.text, .json, .sarif].mapM (fun f => do
      return Json.nat (← f.render fs).length)
    let codes ← ["none", "low", "medium", "high", "critical"].mapM (fun t => do
      return Json.nat (← Gate.exitCode fs t))
    let levels ← (severities ++ ["UNKNOWN"]).mapM (fun s => ListingFormat.sarifLevel (.str s))
    return .arr (listings ++ [.arr codes, Json.strings levels]))

/-- The scores of the compliance reports, and the number of findings. -/
def complianceReports : Workload :=
  once "compliance_reports" "n_findings" [100, 400, 1600] (fun n => do
    let fs := findings n
    let now := ({} : World).now
    let scores ← ["SOC2", "GDPR", "HIPAA"].mapM (fun t => do
      (← Compliance.report t now (.str "project") (.arr fs)).get "compliance_score")
    return .arr (scores ++ [Json.nat fs.length]))

/-- The sum of the scores of counts that go round in cycles. -/
def metricsCalculator : Workload :=
  once "metrics_calculator" "n_cases" [1000, 4000, 15000] (fun n => do
    let total ← (List.range n).foldlM (fun (total : Num) (i : Nat) => do
      let hits : Num := .int (i % 50 : Nat)
      let precision ← Score.share hits (.int (i * 7 % 15 : Nat))
      let recalled ← Score.share hits (.int (i * 3 % 20 : Nat))
      total.add ((← Score.f1 precision recalled).getD (.int 0))) (.float 0.0)
    return sixPlaces total)

/-! ## Comments and messages -/

/-- A sample verdict. Every other one says how the finding can be exploited and names weaknesses, and
two of three say what to do. -/
def verdictAt (i : Nat) : Verdict where
  decision := [Decision.truePositive, .falsePositive, .uncertain].getD (i % 3) .truePositive
  confidence := 0.9
  reasoning := "User input reaches the query string"
  severity := some ([Severity.high, .medium, .low].getD (i % 3) .high)
  exploitability := if i % 2 == 1 then some "By any user" else none
  remediation := if i % 3 == 0 then none else some "Bind parameters"
  cweIds := if i % 2 == 1 then some ["CWE-89", "CWE-79"] else none

/-- The total length of the comments on findings. -/
def githubClient : Workload :=
  once "github_client" "n_findings" [100, 300, 1000] (fun n => do
    let total ← sumUpTo n (fun i => do return ((← (verdictAt i).comment (finding i)).length))
    return Json.nat total)

/-- The secret under which requests are signed. -/
def webhookSecret : String := "webhook-secret"

/-- The requests that are handled besides the signed payloads. -/
def hostEvents : List (String × Json) := [
  ("ping", .obj []),
  ("pull_request", .obj [("action", .str "opened")]),
  ("pull_request", .obj [("action", .str "closed")]),
  ("push", .obj [("ref", .str "refs/heads/main")])]

/-- A request with its signature. -/
def signedRequest (event : String) (payload : Json) : Webhook.Request :=
  let body := payload.compact
  { headers := [("X-GitHub-Event", .str event), ("X-Hub-Signature-256",
      .str (Webhook.scheme ++ Webhook.signature webhookSecret (Text.encodeUtf8 body)))]
    body }

/-- How many signed requests are accepted, and how many blocks the messages on findings have. Two
messages are about findings of which nothing is known. -/
def webhookAndNotifications : Workload :=
  once "webhook_and_notifications" "n_payloads" [100, 300, 1000] (fun n => do
    let accepted := countUpTo n (fun i =>
      let body := Text.encodeUtf8 s!"payload {i}"
      match Webhook.isSigned (some webhookSecret) body
        (.str (Webhook.scheme ++ Webhook.signature webhookSecret body)) with
      | .ok b => b
      | .error _ => false)
    let s : Settings := { githubWebhookSecret := some webhookSecret }
    let handled := hostEvents.countP (fun e => (Webhook.handle s (signedRequest e.1 e.2)).isOk)
    let messages ← (findings n ++ [Json.obj [], Json.obj []]).mapM (fun f =>
      Notify.slackMessage f (.str "https://github.com/o/r/pull/1"))
    let blocks ← messages.mapM (fun m => do (← m.get "blocks").size)
    return .arr [Json.nat (accepted + handled), Json.nat (Number.total blocks)])

/-! ## Privacy -/

/-- A finding without its file. -/
def withoutFile : Json → Json
  | .obj fs => .obj (fs.filter (fun f => f.1 != "file"))
  | v => v

/-- The texts that are looked through for a sample finding: its code, the code around it, two imports,
and its code once more when the outcome is checked. -/
def textsOfFinding : Nat := 5

/-- The redactions of a finding, and one more if its code is clean afterwards. -/
def redactions (f : Json) : Run Nat := do
  let (clean, log) ← Privacy.sanitizeFinding (withoutFile f)
  let isClean ← Privacy.isSanitized (← Run.ofExcept (clean.get "code"))
  return log.length + if isClean then 1 else 0

/-- How many redactions there are when a name is suspected in every text. -/
def privacySanitizer : Workload :=
  once "privacy_sanitizer" "n_findings" [20, 60, 200] (fun n => do
    let name : PersonalSpan := ⟨"PERSON", .int 0, .int 4, .float 0.6⟩
    let personal := List.replicate (textsOfFinding * n) (PersonalReply.found [name] "<NAME_REDACTED>")
    return Json.nat (Number.total (← inWorld { personal } ((findings n).mapM redactions))))

/-! ## A review from end to end -/

/-- The call is a comment on a pull request. -/
def isComment : HostCall → Bool
  | .issueComment _ => true
  | _ => false

/-- How many findings a listing counts, the languages of a scan, and how many comments a review makes
of a repository in which nothing is found. -/
def cliAndOrchestrator : Workload :=
  once "cli_and_orchestrator" "n_findings" [50, 200, 800] (fun n => do
    let counted ← (ListingFormat.jsonListing (findings n)).get "total_findings"
    let s : Settings := { githubToken := some "token", openaiApiKey := some "key" }
    let pr : PullRequest := ⟨.str "o/r", .int 1, .str "sha"⟩
    inWorld { settings := s } (do
      let results ← Scan.Toolbox.scanRepository {} "repo"
      let _ ← pr.review Privacy.sanitizeFinding
      let comments := (← get).trace.hostCalls.countP isComment
      return .arr [counted, Json.strings ((results.map Prod.fst).mergeSort (fun a b => !(b < a))),
        Json.nat comments]))

end SecureReview.Workload
