import SecureReview.Json.Access
import SecureReview.Text.Base64
import SecureReview.Time.Reader
import SecureReview.World.Basic
/-!
# Worlds described in JSON

A world is described by one object: the files, the settings that differ from the defaults, and one
script per collaborator.
-/

namespace SecureReview

/-! ## Settings -/

/-- Change one setting, which is given by its name. -/
def Settings.override (s : Settings) (name : String) (v : Json) : Settings :=
  match name with
  | "APP_NAME" => { s with appName := v.text }
  | "APP_VERSION" => { s with appVersion := v.text }
  | "OPENAI_API_KEY" => { s with openaiApiKey := v.text? }
  | "OPENAI_MODEL" => { s with openaiModel := v.text }
  | "OPENAI_TEMPERATURE" => { s with openaiTemperature := v.double }
  | "OPENAI_MAX_TOKENS" => { s with openaiMaxTokens := v.whole }
  | "ANTHROPIC_API_KEY" => { s with anthropicApiKey := v.text? }
  | "ANTHROPIC_MODEL" => { s with anthropicModel := v.text }
  | "GOOGLE_API_KEY" => { s with googleApiKey := v.text? }
  | "GOOGLE_MODEL" => { s with googleModel := v.text }
  | "LLM_PROVIDER" => { s with llmProvider := v.text }
  | "GITHUB_TOKEN" => { s with githubToken := v.text? }
  | "GITHUB_WEBHOOK_SECRET" => { s with githubWebhookSecret := v.text? }
  | "ENABLE_CACHING" => { s with enableCaching := v.truthy }
  | "CACHE_TTL_LLM" => { s with cacheTtlLlm := v.whole }
  | "CACHE_TTL_SCAN" => { s with cacheTtlScan := v.whole }
  | "SLACK_WEBHOOK_URL" => { s with slackWebhookUrl := v.text? }
  | "DISCORD_WEBHOOK_URL" => { s with discordWebhookUrl := v.text? }
  | "ENABLE_SLACK_NOTIFICATIONS" => { s with enableSlackNotifications := v.truthy }
  | "ENABLE_DISCORD_NOTIFICATIONS" => { s with enableDiscordNotifications := v.truthy }
  | "NOTIFICATION_MIN_SEVERITY" => { s with notificationMinSeverity := v.text }
  | _ => s

/-! ## Files -/

/-- The content of a file: a text, or bytes under the name `b64`. -/
def Files.contentOf : Json → List UInt8
  | .str s => Text.encodeUtf8 s
  | v => Text.decodeBase64 (v.part "b64").text

/-- The files of a description, by path. -/
def Files.ofJson (v : Json) : Files :=
  v.entries.foldl (fun fs e => fs.put e.1 (contentOf e.2)) {}

/-! ## Scripts -/

/-- What a command does. -/
def ProcessScript.ofJson (v : Json) : ProcessScript where
  stdout := (v.part "stdout").text
  stderr := (v.part "stderr").text
  code := (v.part "returncode").whole
  writes := (v.part "writes").entries.map (fun e => (e.1, e.2.text))
  fault := (v.part "raise").text?.map (fun s =>
    if s == "missing" then .missing else if s == "timeout" then .timeout else .other s)

/-- What a language model answers. -/
def ModelReply.ofJson (v : Json) : ModelReply :=
  match (v.part "raise").text? with
  | some s => .fault s
  | none => .content (v.part "content").text? ((v.part "in").whole 100) ((v.part "out").whole 50)

namespace Node

/-- A pair of numbers. -/
def pair (v : Json) : Int × Int :=
  match v.list with
  | a :: b :: _ => (a.whole, b.whole)
  | _ => (0, 0)

/-- The parts of a node as they are read, one after the other. -/
structure Draft where
  type : String := ""
  start : Int × Int := (0, 0)
  stop : Int × Int := (0, 0)
  bytes : Int × Int := (0, 0)
  text : String := ""
  children : List Node := []

/-- The finished node. -/
def Draft.node (d : Draft) : Node :=
  .mk d.type d.start.1 d.stop.1 d.bytes.1 d.bytes.2 d.text d.children

mutual

/-- A node of a syntax tree. -/
def ofJson : Json → Node
  | .obj fs => (draftOf fs).node
  | _ => ({} : Draft).node

/-- The parts of a node. -/
def draftOf : List (String × Json) → Draft
  | [] => {}
  | (k, v) :: rest =>
    let d := draftOf rest
    if k == "type" then { d with type := v.text }
    else if k == "start" then { d with start := pair v }
    else if k == "end" then { d with stop := pair v }
    else if k == "bytes" then { d with bytes := pair v }
    else if k == "text" then { d with text := v.text }
    else if k == "children" then { d with children := childrenOf v }
    else d

/-- The children of a node. -/
def childrenOf : Json → List Node
  | .arr xs => nodesOf xs
  | _ => []

/-- Nodes in order. -/
def nodesOf : List Json → List Node
  | [] => []
  | v :: vs => ofJson v :: nodesOf vs

end

end Node

/-- What a parser answers. -/
def treeOf (v : Json) : Except String Node :=
  match (v.part "raise").text? with
  | some s => .error s
  | none => .ok (Node.ofJson v)

/-- What the recogniser of personal data answers. -/
def PersonalReply.ofJson (v : Json) : PersonalReply :=
  match (v.part "raise").text? with
  | some s => .fault s
  | none => .found ((v.part "results").list.map (fun r =>
      ⟨(r.part "entity_type").text, r.part "start", r.part "end", r.part "score"⟩))
      (v.part "anonymized").text

/-- What a post leads to: a status, or the text of a failure. -/
def PostOutcome.ofJson : Json → PostOutcome
  | .str s => .fault s
  | v => .status v.whole

/-- What a call of the repository host leads to. -/
def HostOutcome.ofJson : Json → HostOutcome
  | .str "ok" => .ok
  | .str "github" => .hostError
  | v => .fault v.text

/-- What cloning leads to. -/
def HostOutcome.ofClone : Json → HostOutcome
  | .str "ok" => .ok
  | v => .fault v.text

/-! ## Worlds -/

/-- A time, or a default if none is given. -/
def DateTime.ofJson (default : DateTime) (v : Json) : DateTime :=
  (v.text?.bind DateTime.ofText?).getD default

/-- The world of a description. -/
def World.ofJson (v : Json) : World where
  settings := (v.part "settings").entries.foldl (fun s e => s.override e.1 e.2) {}
  files := Files.ofJson (v.part "files")
  processes := (v.part "proc").list.map ProcessScript.ofJson
  replies := (v.part "llm").list.map ModelReply.ofJson
  trees := (v.part "trees").list.map treeOf
  personal := (v.part "pii").list.map PersonalReply.ofJson
  posts := (v.part "http").list.map PostOutcome.ofJson
  host := (v.part "github").entries.map (fun e => (e.1, e.2.list.map HostOutcome.ofJson))
  pullFiles := (v.part "pr_files").texts
  clones := (v.part "clone").list.map HostOutcome.ofClone
  now := DateTime.ofJson { year := 2024, month := 1, day := 15, hour := 12 } (v.part "now")
  clock := (v.partOr "clock" (.float 1000.0)).number

end SecureReview
