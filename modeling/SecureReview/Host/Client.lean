import SecureReview.Json.Loose
import SecureReview.Verify.Verdict
import SecureReview.World.Basic
/-!
# The repository host

Requests to the host of a repository under an access token. An error that the host itself reports
makes a comment or a listing come out empty; any other trouble on the way stops the operation. A clone
either succeeds or does not, whatever the trouble.
-/

namespace SecureReview

/-- An access to the repository host. -/
structure HostClient where
  token : String

namespace HostClient

/-- The access under a given token or under that of the settings. An empty token counts as none. -/
def create (token : Option String) (s : Settings) : Except Failure HostClient :=
  match [token, s.githubToken].filterMap id |>.find? (· != "") with
  | some t => .ok ⟨t⟩
  | none => .error (.badValue "GitHub token not configured")

/-- Look up a repository. -/
def openRepository (repo : Json) : Run Unit :=
  Run.callHost "get_repo" (.getRepo repo)

/-- Look up a pull request. -/
def openPull (repo number : Json) : Run Unit := do
  openRepository repo
  Run.callHost "get_pull" (.getPull number)

/-- Answer `otherwise` when the host reports an error. -/
def onHostError {α : Type} (otherwise : α) (act : Run α) : Run α :=
  try act
  catch
    | .hostError => return otherwise
    | e => throw e

/-- Comment on a pull request. The answer says whether the host took the comment. -/
def comment (repo number body : Json) : Run Bool :=
  onHostError false do
    openPull repo number
    Run.callHost "create_issue_comment" (.issueComment body)
    return true

/-- Comment on a line of a pull request. The answer says whether the host took the comment. -/
def commentLine (repo number commit path line body : Json) : Run Bool :=
  onHostError false do
    openPull repo number
    Run.callHost "create_review_comment" (.reviewComment body commit path line)
    return true

/-- The files that a pull request changes. -/
def changedFiles (repo number : Json) : Run (List String) :=
  onHostError [] do
    openPull repo number
    Run.callHost "get_files" .getFiles
    return (← get).pullFiles

/-- The address from which a repository is cloned. -/
def cloneUrl (c : HostClient) (repo : Json) : String :=
  s!"https://{c.token}@github.com/{repo.display}.git"

/-- Clone a repository, or one branch of it. -/
def clone (c : HostClient) (repo dir branch : Json) : Run Bool :=
  try
    Run.cloneFrom (c.cloneUrl repo) dir (if branch.truthy then some branch else none)
    return true
  catch _ => return false

end HostClient

/-! ## Comments on findings

A finding and the verdict on it as a comment for a pull request.
-/

/-- The sign in front of a comment. -/
def Decision.sign : Decision → String
  | .truePositive => "🚨"
  | .falsePositive => "✅"
  | .uncertain => "⚠️"

/-- A decision as a heading. -/
def Decision.title : Decision → String
  | .truePositive => "True Positive"
  | .falsePositive => "False Positive"
  | .uncertain => "Uncertain"

namespace Verdict

/-- A share as a whole number of percent. -/
def percent (x : Float) : String :=
  Number.fixed (x * 100.0) 0 ++ "%"

/-- A link to the description of a weakness. -/
def weaknessLink (cwe : String) : String :=
  let number := Text.replace cwe "CWE-" ""
  s!"[{cwe}](https://cwe.mitre.org/data/definitions/{number}.html)"

/-- A paragraph that is left out when there is nothing to say. -/
def paragraph (heading : String) : Option String → List String
  | some text => if text == "" then [] else ["", s!"**{heading}**: {text}"]
  | none => []

/-- The severity to show: that of the verdict, else that of the finding. -/
def shownSeverity (v : Verdict) (finding : Json) : Except Failure String :=
  match v.severity with
  | some s => .ok s.text
  | none => do return (← finding.get "severity").display

/-- The comment on a finding. -/
def comment (v : Verdict) (finding : Json) : Except Failure String := do
  let rule ← finding.get "rule_id"
  let severity ← v.shownSeverity finding
  let links := (v.cweIds.getD []).map weaknessLink
  return Text.joinWith "\n" (
    [s!"{v.decision.sign} **Security Finding: {rule.display}**",
      "",
      s!"**Decision**: {v.decision.title}",
      s!"**Confidence**: {percent v.confidence}",
      s!"**Severity**: {severity}",
      "",
      s!"**Reasoning**: {v.reasoning}"] ++
    paragraph "Exploitability" v.exploitability ++
    paragraph "Remediation" v.remediation ++
    (if links.isEmpty then [] else ["", "**CWE**: " ++ Text.joinWith ", " links]) ++
    ["", "---", "*Analyzed by Secure Code Review Bot*"])

end Verdict

end SecureReview
