import SecureReview.Json.Loose
import SecureReview.Number.Whole
import SecureReview.Settings
import SecureReview.World.Basic
/-!
# Messages about findings

A finding as a message for one of the chat services, and which findings are worth a message.
-/

namespace SecureReview.Notify

/-- The chat services. -/
inductive Service where
  | slack
  | discord

/-- The ranks of the severities. -/
def ranks : List (String × Nat) :=
  [("LOW", 1), ("MEDIUM", 2), ("HIGH", 3), ("CRITICAL", 4)]

/-- A severity reaches the least one that is reported. An unknown severity ranks as medium, an unknown
limit as high. -/
def isWorthy (s : Settings) (severity : Json) : Except Failure Bool := do
  let least := (ranks.lookup s.notificationMinSeverity).getD 3
  let rank := (← Json.lookupIn ranks severity).getD 2
  return least ≤ rank

/-! ## Slack -/

/-- The signs of the severities. -/
def signs : List (String × String) :=
  [("CRITICAL", "🔴"), ("HIGH", "🟠"), ("MEDIUM", "🟡"), ("LOW", "🟢")]

/-- A text with markup. -/
def marked (text : String) : Json :=
  .obj [("type", .str "mrkdwn"), ("text", .str text)]

/-- A section with one text. -/
def block (text : String) : Json :=
  .obj [("type", .str "section"), ("text", marked text)]

/-- The message for Slack. -/
def slackMessage (finding : Json) (url : Json) : Except Failure Json := do
  let sign := (← Json.lookupIn signs (← finding.getD "severity" (.str "MEDIUM"))).getD "⚠️"
  let shown := fun (k : String) => do return (← finding.get k).display
  return .obj [("blocks", .arr [
    .obj [("type", .str "header"), ("text", .obj [("type", .str "plain_text"),
      ("text", .str s!"{sign} Security Issue Found")])],
    .obj [("type", .str "section"), ("fields", .arr [
      marked ("*Severity:*\n" ++ (← shown "severity")),
      marked ("*Tool:*\n" ++ (← shown "tool")),
      marked ("*File:*\n" ++ (← shown "file")),
      marked ("*Line:*\n" ++ (← shown "line"))])],
    block ("*Description:*\n" ++ (← shown "description")),
    block s!"<{url.display}|View Pull Request>"])]

/-! ## Discord -/

/-- The colours of the severities. -/
def colors : List (String × Nat) :=
  [("CRITICAL", 0xFF0000), ("HIGH", 0xFF6600), ("MEDIUM", 0xFFFF00), ("LOW", 0x00FF00)]

/-- A field of an embed. -/
def embedField (name : String) (value : Json) (inline : Bool) : Json :=
  .obj [("name", .str name), ("value", value), ("inline", .bool inline)]

/-- The message for Discord. -/
def discordMessage (finding : Json) (url : Json) : Except Failure Json := do
  let color := (← Json.lookupIn colors (← finding.getD "severity" (.str "MEDIUM"))).getD 0xFFFF00
  return .obj [("embeds", .arr [.obj [
    ("title", .str "🔒 Security Issue Found"),
    ("color", Json.nat color),
    ("fields", .arr [
      embedField "Severity" (← finding.get "severity") true,
      embedField "Tool" (← finding.get "tool") true,
      embedField "File" (← finding.get "file") false,
      embedField "Line" (.str (← finding.get "line").display) true,
      embedField "Description" (← finding.getD "description" (.str "No description")) false]),
    ("url", url)]])]

/-! ## Services -/

/-- The address of a service, if messages to it are switched on. -/
def Service.address? (service : Service) (s : Settings) : Option String :=
  let (enabled, url) := match service with
    | .slack => (s.enableSlackNotifications, s.slackWebhookUrl)
    | .discord => (s.enableDiscordNotifications, s.discordWebhookUrl)
  if enabled then url.filter (· != "") else none

/-- The message for a service. -/
def Service.message (service : Service) (finding url : Json) : Except Failure Json :=
  match service with
  | .slack => slackMessage finding url
  | .discord => discordMessage finding url

/-! ## Delivery of messages

A message is posted until it is accepted or the attempts are used up. Between two attempts the sender
waits: one second after the first, and twice as long after each further one.
-/

/-- Post a message once; whether it was accepted. -/
def attempt (url : String) (message : Json) : Run Bool :=
  try
    let status ← Run.post ⟨url, message, .float 10.0⟩
    return status == 200 || status == 204
  catch _ => return false

/-- Post a message at most `left` times, the first time after `done` failed attempts. -/
def sendFrom (url : String) (message : Json) : (left done : Nat) → Run Bool
  | 0, _ => return false
  | left + 1, done => do
    if ← attempt url message then return true
    if left != 0 then Run.sleep (.int (Number.twoTo done))
    sendFrom url message left (done + 1)

/-- Post a message with at most so many attempts. -/
def send (url : String) (message : Json) (attempts : Int) : Run Bool :=
  sendFrom url message attempts.toNat 0

/-- A number of attempts has to be whole. -/
def attemptsOf : Json → Except Failure Int
  | .int n => .ok n
  | .bool b => .ok (if b then 1 else 0)
  | v => .error (.wrongKind s!"'{v.kind}' object cannot be interpreted as an integer")

/-- The number of attempts if none is given. -/
def defaultAttempts : Json := .int 3

/-- Tell a service about a finding. Nothing is sent if the service is switched off, or the finding is
not severe enough. -/
def notify (service : Service) (finding url : Json) (attempts : Json := defaultAttempts) :
    Run Bool := do
  let s ← Run.settings
  match service.address? s with
  | none => return false
  | some address =>
    if ← Run.ofExcept (do isWorthy s (← finding.get "severity")) then
      let message ← Run.ofExcept (service.message finding url)
      send address message (← Run.ofExcept (attemptsOf attempts))
    else return false

end SecureReview.Notify
