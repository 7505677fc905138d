import SecureReview.Digest.Sha256
import SecureReview.Failure
import SecureReview.Json.Loose
import SecureReview.Settings
import SecureReview.Text.Utf8
/-!
# Events of the repository host

The host tells the service about pull requests and pushes. A signed event that concerns new code queues
a scan; everything else is answered with a message.
-/

namespace SecureReview.Webhook

/-! ## Signed requests

A request is signed with a keyed hash of its body under a shared secret. The header names the hash
function before an equals sign; what stands between the first and the second equals sign is compared. -/

/-- What a header of a signature begins with. -/
def scheme : String := "sha256="

/-- The signature of a payload under a secret, in lower-case hexadecimal digits. -/
def signature (secret : String) (payload : List UInt8) : String :=
  Sha256.hex (Sha256.keyed (Text.encodeUtf8 secret) payload)

/-- The signature that a header gives. -/
def claimed (header : String) : String :=
  ((Text.split header "=").drop 1).headD ""

/-- A text can only be compared with a signature if it has no characters beyond ASCII. -/
def agrees (computed expected : String) : Except Failure Bool :=
  if expected.toList.all (fun c => c.toNat < 128) then .ok (computed == expected)
  else .error (.wrongKind "comparing strings with non-ASCII characters is not supported")

/-- The header is a signature of the payload. Without a secret every request is taken as signed. -/
def isSigned (secret : Option String) (payload : List UInt8) (header : Json) : Except Failure Bool :=
  match secret.filter (· != "") with
  | none => .ok true
  | some secret => do
    if !header.truthy then return false
    let header ← header.asString "startswith"
    if !Text.startsWith header scheme then return false
    agrees (signature secret payload) (claimed header)

/-! ## Requests and their answers -/

/-- A request of the host. -/
structure Request where
  headers : Fields
  body : String

/-- A scan that is to be made later. -/
inductive Task where
  | pullRequest (repo number sha : Json)
  | push (repo sha : Json)

/-- The answer to a request, and the scan that it queues. -/
structure Reply where
  answer : Json
  task : Option Task := none

/-- The handling of a request, on the queue of scans. -/
abbrev Handling := Effect (List Task)

/-- Queue a scan. -/
def queue (t : Task) : Handling Unit :=
  modify (· ++ [t])

/-- An answer that is only a message. -/
def told (text : String) : Json :=
  .obj [("message", .str text)]

/-- The value is one of some texts. -/
def isOneOf (v : Json) (texts : List String) : Bool :=
  texts.any (fun t => v.same (.str t))

/-- The value of a header; a missing one is null. -/
def header (headers : Fields) (k : String) : Json :=
  (Fields.get? headers k).getD .null

/-- Answer the news about a pull request: it is scanned when it is opened or gets new commits. -/
def onPullRequest (payload : Json) : Handling Json := do
  let action ← Effect.ofExcept (payload.get "action")
  if !isOneOf action ["opened", "synchronize"] then
    return told s!"PR action {action.display} ignored"
  let pull ← Effect.ofExcept (payload.getD "pull_request" (.obj []))
  let repo ← Effect.ofExcept (payload.getD "repository" (.obj []))
  let number ← Effect.ofExcept (pull.get "number")
  let name ← Effect.ofExcept (repo.get "full_name")
  let head ← Effect.ofExcept (pull.getD "head" (.obj []))
  let sha ← Effect.ofExcept (head.get "sha")
  queue (.pullRequest name number sha)
  return .obj [("message", .str "Scan queued"), ("pr_number", number), ("repo", name)]

/-- Answer the news about a push: the main branch is scanned. -/
def onPush (payload : Json) : Handling Json := do
  let repo ← Effect.ofExcept (payload.getD "repository" (.obj []))
  let ref ← Effect.ofExcept (payload.get "ref")
  if !isOneOf ref ["refs/heads/main", "refs/heads/master"] then
    return told s!"Push to {ref.display} ignored"
  let name ← Effect.ofExcept (repo.get "full_name")
  let sha ← Effect.ofExcept (payload.get "after")
  queue (.push name sha)
  return .obj [("message", .str "Scan queued"), ("repo", name), ("sha", sha)]

/-- Answer an event with its payload. -/
def onEvent (event payload : Json) : Handling Json :=
  if event.same (.str "pull_request") then onPullRequest payload
  else if event.same (.str "push") then onPush payload
  else if event.same (.str "ping") then return told "pong"
  else return told s!"Event {event.display} not handled"

/-- Answer a request with a body of any bytes, out of which `read` gets the payload. The signature is
checked before the body is read. -/
def receive (s : Settings) (read : List UInt8 → Except Failure Json) (headers : Fields)
    (body : List UInt8) : Handling Json := do
  let signed ← Effect.ofExcept
    (isSigned s.githubWebhookSecret body (header headers "X-Hub-Signature-256"))
  if !signed then throw (.refused 401 "Invalid signature")
  let payload ← Effect.ofExcept (read body)
  onEvent (header headers "X-GitHub-Event") payload

/-- Answer a request whose body is a text. -/
def handle (s : Settings) (r : Request) : Except Failure Reply :=
  match (receive s (fun _ => Json.read r.body) r.headers (Text.encodeUtf8 r.body)).run.run [] with
  | (.ok answer, tasks) => .ok { answer, task := tasks.head? }
  | (.error e, _) => .error e

/-- The scan as it is queued: its name and its arguments. -/
def Task.toJson : Task → Json
  | .pullRequest repo number sha => .arr [.str "process_pull_request",
      .obj [("repo_full_name", repo), ("pr_number", number), ("head_sha", sha)]]
  | .push repo sha => .arr [.str "process_push", .obj [("repo_full_name", repo), ("head_sha", sha)]]

end SecureReview.Webhook
