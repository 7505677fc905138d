import SecureReview.Json.Loose
import SecureReview.World.Basic
/-!
# ESLint

Findings in JavaScript and in TypeScript code, by the same tool. Of the messages on TypeScript only
those of security rules count. A run that fails in any way reports nothing.
-/

namespace SecureReview.Scan.Eslint

/-- Which code is looked at. -/
inductive Dialect where
  | javascript
  | typescript

/-- The severity of a message: 2 is an error. -/
def severity (v : Json) : String :=
  if v.isNumber 2 then "HIGH" else "MEDIUM"

/-- What the names of security rules begin with. -/
def securityBeginnings : List String :=
  ["security/", "no-unsanitized/", "@typescript-eslint/no-unsafe-",
   "@typescript-eslint/no-explicit-any", "no-eval", "no-implied-eval"]

/-- The rule is a security rule. -/
def isSecurityRule (rule : String) : Bool :=
  securityBeginnings.any (Text.startsWith rule)

/-- The rule of a message counts. -/
def Dialect.counts : Dialect → Json → Except Failure Bool
  | .javascript, _ => .ok true
  | .typescript, rule => (rule.asString "startswith").map isSecurityRule

/-- The name of the tool in findings. -/
def Dialect.tool : Dialect → String
  | .javascript => "eslint"
  | .typescript => "eslint-typescript"

/-- The confidence in findings. -/
def Dialect.confidence : Dialect → String
  | .javascript => "High"
  | .typescript => "HIGH"

/-- The finding for one message, if it counts. A message without a rule does not. -/
def finding? (d : Dialect) (file : Json) (msg : Json) : Except Failure (Option Json) := do
  let rule ← msg.get "ruleId"
  if !rule.truthy then return none
  if !(← d.counts rule) then return none
  return some (.obj [
    ("tool", .str d.tool),
    ("severity", .str (severity (← msg.get "severity"))),
    ("confidence", .str d.confidence),
    ("description", ← msg.get "message"),
    ("file", file),
    ("line", ← msg.get "line"),
    ("code", ← msg.getD "source" (.str "")),
    ("rule_id", rule)])

/-- The findings for one file. -/
def fileFindings (d : Dialect) (result : Json) : Except Failure (List Json) := do
  let file ← result.getD "filePath" (.str "")
  let messages ← (← result.getD "messages" (.arr [])).items
  return (← messages.mapM (finding? d file)).filterMap id

/-- The findings for a list of files. -/
def findings (d : Dialect) (results : Json) : Except Failure (List Json) := do
  return (← (← results.items).mapM (fileFindings d)).flatten

/-- The command line for a path. -/
def Dialect.command (d : Dialect) (config path : String) : List String :=
  ["npx", "eslint", path, "--format", "json", "--config", config] ++
    match d with
    | .javascript => []
    | .typescript => ["--ext", ".ts,.tsx"]

/-- The findings in what the tool printed. -/
def read (d : Dialect) (output : String) : Except Failure (List Json) := do
  findings d (← Json.read output)

/-- Scan a path. -/
def scan (d : Dialect) (config path : String) : Run (List Json) :=
  try
    let out ← Run.process { words := d.command config path }
    Run.ofExcept (read d out.stdout)
  catch _ => return []

end SecureReview.Scan.Eslint
