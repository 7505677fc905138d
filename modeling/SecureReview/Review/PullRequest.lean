import SecureReview.Host.Client
import SecureReview.Privacy.Redaction
import SecureReview.Scan.Enriched
import SecureReview.Verify.Verifier
/-!
# Reviews of pull requests

A pull request is cloned and scanned, the findings in its changed files go to the language model, and
what the model confirms is reported as comments. Trouble on the way ends the review with a message and
leaves the clone behind.
-/

namespace SecureReview

/-- A pull request at a commit. -/
structure PullRequest where
  repo : Json
  number : Json
  head : Json

namespace PullRequest

/-- The directory into which the repository is cloned. -/
def cloneDir (pr : PullRequest) : Except Failure String := do
  let repo ← pr.repo.asString "replace"
  let name := Text.replace repo "/" "_"
  return s!"/app/cloned_repos/{name}_{pr.number.display}"

/-- The languages whose findings are reported. -/
def reportedLanguages : List String := ["python", "javascript"]

/-- The findings of the reported languages, in their order. -/
def reportable (results : List (String × List Json)) : List Json :=
  reportedLanguages.flatMap (fun l => (results.lookup l).getD [])

/-- A changed file occurs in the file name of the finding. -/
def isChanged (changed : List String) (finding : Json) : Except Failure Bool := do
  let file ← finding.getD "file" (.str "")
  changed.anyM (fun c => file.includes c)

/-- The findings in changed files. -/
def inChanged (changed : List String) (findings : List Json) : Except Failure (List Json) :=
  findings.filterM (isChanged changed)

/-- How many findings of a pull request are put to the language model. -/
def mostVerified : Nat := 10

/-- The findings that the language model confirms, with its verdicts. Each is cleaned of private data
before the model sees it. -/
def confirmed (sanitize : Json → Run (Json × List String)) (v : Verifier) :
    List Json → Run (List (Json × Verdict))
  | [] => return []
  | finding :: rest => do
    let (clean, _) ← sanitize finding
    let verdict ← v.verify clean true
    let others ← confirmed sanitize v rest
    return if verdict.decision = .truePositive then (finding, verdict) :: others else others

/-- The comment that announces confirmed findings. -/
def summary (count : Nat) : String :=
  s!"🔒 **Security Scan Complete**\n\nFound **{count} verified security issues** in this PR.\n\n" ++
    "See inline comments for details."

/-- The comment when nothing was confirmed. -/
def allClear : String :=
  "✅ **Security Scan Complete** - No verified security issues found!"

/-- Report one confirmed finding at its line, or as a general comment if the line cannot be commented. -/
def reportOne (pr : PullRequest) (dir : String) (finding : Json) (verdict : Verdict) : Run Unit := do
  let comment ← Run.ofExcept (verdict.comment finding)
  let file ← Run.ofExcept (do (← finding.getD "file" (.str "")).asString "replace")
  let path := Text.replace file (dir ++ "/") ""
  let line ← Run.ofExcept (finding.getD "line" (.int 1))
  let taken ← HostClient.commentLine pr.repo pr.number pr.head (.str path) line (.str comment)
  if !taken then
    let shown ← Run.ofExcept (finding.get "line")
    let body := s!"**{path}:{shown.display}**\n\n{comment}"
    discard (HostClient.comment pr.repo pr.number (.str body))

/-- Report the confirmed findings. -/
def report (pr : PullRequest) (dir : String) (found : List (Json × Verdict)) : Run Unit := do
  if found.isEmpty then
    discard (HostClient.comment pr.repo pr.number (.str allClear))
  else
    discard (HostClient.comment pr.repo pr.number (.str (summary found.length)))
    found.forM (fun f => pr.reportOne dir f.1 f.2)

/-- Clone, scan, verify and report. The answer is what there is to complain about. -/
def process (sanitize : Json → Run (Json × List String)) (pr : PullRequest) : Run (List String) := do
  let s ← Run.settings
  let client ← Run.ofExcept (HostClient.create none s)
  let verifier ← Run.ofExcept (Verifier.create none s)
  let dir ← Run.ofExcept pr.cloneDir
  Run.setFiles ((← Run.files).makeDir dir)
  if !(← client.clone pr.repo (.str dir) .null) then
    return ["Failed to clone repository"]
  let changed ← HostClient.changedFiles pr.repo pr.number
  let results ← Scan.Toolbox.scanRepository {} dir
  let candidates ← Run.ofExcept (inChanged changed (reportable results))
  let found ← confirmed sanitize verifier (candidates.take mostVerified)
  pr.report dir found
  Run.setFiles ((← Run.files).removeTree dir)
  return []

/-- Review a pull request. Trouble is complained about and never passed on. -/
def review (sanitize : Json → Run (Json × List String)) (pr : PullRequest) : Run (List String) :=
  try pr.process sanitize
  catch e => return [s!"Error processing PR: {e.message}"]

end PullRequest

end SecureReview
