import SecureReview.Json.Loose
import SecureReview.Text.Blank
import SecureReview.World.Basic
/-!
# Cargo

Findings in Rust projects: advisories on dependencies, and lints of the compiler that bear on
security. Each of the two runs reports nothing if it fails in any way.
-/

namespace SecureReview.Scan.Cargo

/-- The object in a field that defaults to an empty one. -/
def part (r : Json) (k : String) : Except Failure Json :=
  r.getD k (.obj [])

/-! ## Advisories -/

/-- The finding for one vulnerable dependency. -/
def advisoryFinding (r : Json) : Except Failure Json := do
  let advisory ← part r "advisory"
  let package ← part r "package"
  let title := (← advisory.getD "title" (.str "Security vulnerability")).display
  let name := (← package.getD "name" (.str "unknown")).display
  let version := (← package.getD "version" (.str "")).display
  return .obj [
    ("tool", .str "cargo-audit"),
    ("severity", .str "HIGH"),
    ("confidence", .str "HIGH"),
    ("description", .str s!"{title} in {name} {version}"),
    ("file", .str "Cargo.lock"),
    ("line", .int 0),
    ("code", ← advisory.getD "description" (.str "")),
    ("rule_id", ← advisory.getD "id" (.str ""))]

/-- The findings for a list of vulnerable dependencies. -/
def advisoryFindings (results : Json) : Except Failure (List Json) := do
  (← results.items).mapM advisoryFinding

/-- The findings in what the audit printed, which may be nothing. -/
def readAudit (output : String) : Except Failure (List Json) := do
  if output == "" then return []
  let report ← Json.read output
  advisoryFindings (← (← part report "vulnerabilities").getD "list" (.arr []))

/-- Audit the dependencies of a project. -/
def audit (path : String) : Run (List Json) :=
  try
    let out ← Run.process {
      words := ["cargo", "audit", "--json", "--file", s!"{path}/Cargo.lock"], cwd := some path }
    Run.ofExcept (readAudit out.stdout)
  catch _ => return []

/-! ## Lints -/

/-- The lints that bear on security. -/
def securityLints : List String :=
  ["clippy::unwrap_used", "clippy::expect_used", "clippy::panic", "clippy::unimplemented",
   "clippy::todo", "clippy::unreachable", "clippy::mem_forget", "clippy::cast_ptr_alignment",
   "clippy::transmute_ptr_to_ptr"]

/-- The name of the lint of a message. -/
def lintOf (message : Json) : Except Failure Json := do
  (← part message "code").getD "code" (.str "")

/-- The message is about a lint that bears on security. -/
def isSecurityLint (message : Json) : Except Failure Bool := do
  let lint ← lintOf message
  return (← securityLints.mapM lint.includes).any id

/-- The finding for one message, unless it points nowhere. -/
def lintFinding? (r : Json) : Except Failure (Option Json) := do
  let spans ← r.getD "spans" (.arr [])
  if !spans.truthy then return none
  let span ← spans.first
  let lint ← lintOf r
  let level ← r.getD "level" (.str "warning")
  let severity := if level.same (.str "error") then "HIGH" else "MEDIUM"
  let text ← span.get "text"
  let code ←
    if text.truthy then (← text.first).getD "text" (.str "") else pure (.str "")
  return some (.obj [
    ("tool", .str "cargo-clippy"),
    ("severity", .str severity),
    ("confidence", .str "HIGH"),
    ("description", ← r.getD "message" (.str "")),
    ("file", ← span.getD "file_name" (.str "")),
    ("line", ← span.getD "line_start" (.int 0)),
    ("code", code),
    ("rule_id", lint)])

/-- The findings for a list of messages. -/
def lintFindings (results : Json) : Except Failure (List Json) := do
  return (← (← results.items).mapM lintFinding?).filterMap id

/-- The message of one line of output, if it is a message of the compiler that bears on security. A
line that is not JSON says nothing. -/
def lintMessage? (line : String) : Except Failure (Option Json) :=
  if Text.strip line == "" then .ok none
  else
    match Json.parseString line with
    | .error _ => .ok none
    | .ok data => do
      let reason ← data.get "reason"
      if !reason.same (.str "compiler-message") then return none
      let message ← part data "message"
      return if ← isSecurityLint message then some message else none

/-- The findings in what the compiler printed, one value a line. -/
def readLints (output : String) : Except Failure (List Json) := do
  let lines := (Text.bareLines output.toList).map String.ofList
  let messages ← lines.mapM lintMessage?
  lintFindings (.arr (messages.filterMap id))

/-- Lint a project. -/
def lint (path : String) : Run (List Json) :=
  try
    let out ← Run.process {
      words := ["cargo", "clippy", "--message-format=json", "--", "-W", "clippy::all"],
      cwd := some path }
    Run.ofExcept (readLints out.stdout)
  catch _ => return []

/-- Scan a project: advisories, then lints. -/
def scan (path : String) : Run (List Json) := do
  let advisories ← audit path
  return advisories ++ (← lint path)

end SecureReview.Scan.Cargo
