import SecureReview.Json.Access
import SecureReview.Text.Base64
import SecureReview.Json.Printer
import SecureReview.World.Basic
/-!
# Reports of a run

What was asked of the collaborators, and the files at the end, as JSON.
-/

namespace SecureReview

/-- A command. -/
def Command.toJson (c : Command) : Json :=
  .obj [("cmd", Json.strings c.words), ("cwd", Json.ofString? c.cwd),
    ("timeout", (c.timeout.map Json.nat).getD .null)]

/-- A request to a language model. -/
def ModelRequest.toJson : ModelRequest → Json
  | .openai structured model messages temperature maxTokens =>
    .obj ([("api", .str (if structured then "openai.parse" else "openai.create")), ("model", .str model),
      ("messages", messages), ("temperature", temperature), ("max_tokens", maxTokens)] ++
      (if structured then [("response_format", .str "VerificationResult")] else []))
  | .anthropic model maxTokens temperature system messages =>
    .obj [("api", .str "anthropic.create"), ("model", .str model), ("max_tokens", maxTokens),
      ("temperature", temperature), ("system", system), ("messages", messages)]
  | .google contents temperature maxTokens =>
    .obj [("api", .str "google.generate"), ("contents", contents), ("generation_config",
      .obj [("temperature", temperature), ("max_output_tokens", maxTokens)])]

/-- The text of the last message of a request. -/
def ModelRequest.lastText (r : ModelRequest) : String :=
  let last := fun (v : Json) => v.list.getLast?.getD .null
  match r with
  | .openai _ _ messages _ _ | .anthropic _ _ _ _ messages => ((last messages).part "content").text
  | .google contents _ _ => (last ((last contents).part "parts")).text

/-- What each kind of personal data is replaced by. -/
def PersonalCall.replacements : Json :=
  let entry := fun (kind text : String) =>
    (kind, Json.arr [.str "replace", .obj [("new_value", .str text)]])
  .obj [entry "DEFAULT" "<PII_REDACTED>", entry "EMAIL_ADDRESS" "<EMAIL_REDACTED>",
    entry "IP_ADDRESS" "<IP_REDACTED>", entry "PERSON" "<NAME_REDACTED>",
    entry "PHONE_NUMBER" "<PHONE_REDACTED>"]

/-- A call of the recogniser of personal data. -/
def PersonalCall.toJson : PersonalCall → Json
  | .analyze t => .str t
  | .anonymize t => .obj [("anonymize", .str t), ("operators", replacements)]

/-- A post. -/
def Post.toJson (p : Post) : Json :=
  .obj [("url", .str p.url), ("json", p.body), ("timeout", p.timeout)]

/-- A call of the repository host. -/
def HostCall.toJson : HostCall → Json
  | .getRepo n => .arr [.str "get_repo", n]
  | .getPull n => .arr [.str "get_pull", n]
  | .issueComment b => .arr [.str "create_issue_comment", b]
  | .reviewComment b c p l => .arr [.str "create_review_comment", b, c, p, l]
  | .getFiles => .arr [.str "get_files"]
  | .clone u d b => .arr [.str "clone_from", .str u, d, .obj ((b.map (fun b => ("branch", b))).toList)]

/-- The report files that tools may leave behind. -/
def Files.reportNames : List String :=
  ["cppcheck-output.xml", "dependency-check-report.json", "spotbugs-output.xml"]

/-- What a run left in its record; collaborators that were not asked are not mentioned. -/
def World.report (w : World) : Fields :=
  let t := w.trace
  let group := fun (k : String) (xs : List Json) => if xs.isEmpty then [] else [(k, Json.arr xs)]
  group "calls" (t.commands.map Command.toJson) ++
  group "llm_requests" (t.modelRequests.map ModelRequest.toJson) ++
  group "pii_calls" (t.personalCalls.map PersonalCall.toJson) ++
  group "http_requests" (t.posts.map Post.toJson) ++
  group "sleeps" (t.sleeps.map Num.toJson) ++
  group "github_calls" (t.hostCalls.map HostCall.toJson) ++
  group "spans" t.spans ++
  group "leftover" ((Files.reportNames.filter (fun f => w.files.isFile ("/tmp/" ++ f))).map .str)

/-- The content of a file: a text if it is one, else its bytes. -/
def Files.contentJson (bytes : List UInt8) : Json :=
  match Text.decodeUtf8 bytes with
  | .ok s => .str s
  | .error _ => .obj [("b64", .str (Text.encodeBase64 bytes))]

/-- The files below the working directory. -/
def Files.toJson (fs : Files) : Json :=
  .obj ((fs.entries.filter (fun e => !Text.startsWith e.1 "/")).map
    (fun e => (e.1, contentJson e.2)))

end SecureReview
