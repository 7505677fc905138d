import SecureReview.Verify.Prompt
import SecureReview.Verify.Provider
/-!
# The verifier

Findings are put before a language model, and its verdicts are read. When anything goes wrong the
verdict is that nothing is certain.
-/

namespace SecureReview

/-- What is asked about a finding. -/
structure VerdictRequest where
  tool : String
  rule : String
  severity : String
  description : String
  code : String
  functionName : Option String
  className : Option String
  file : String
  line : Int

namespace VerdictRequest

/-- Read a request. -/
def check (fs : Fields) : Checked VerdictRequest :=
  VerdictRequest.mk
    <$> Checked.required fs "sast_tool" Checked.string
    <*> Checked.required fs "rule_id" Checked.string
    <*> Checked.required fs "severity" Checked.string
    <*> Checked.required fs "description" Checked.string
    <*> Checked.required fs "code_context" Checked.string
    <*> Checked.optional fs "function_name" Checked.string
    <*> Checked.optional fs "class_name" Checked.string
    <*> Checked.required fs "file_path" Checked.string
    <*> Checked.required fs "line_number" Checked.int

/-- The request about a finding. -/
def ofFinding (finding : Json) : Except Failure VerdictRequest := do
  let context ← finding.getD "context" (.obj [])
  let own ← finding.getD "code" (.str "")
  let fields : Fields := [
    ("sast_tool", ← finding.getD "tool" (.str "unknown")),
    ("rule_id", ← finding.getD "rule_id" (.str "unknown")),
    ("severity", ← finding.getD "severity" (.str "unknown")),
    ("description", ← finding.getD "description" (.str "")),
    ("code_context", ← context.getD "context_code" own),
    ("function_name", ← context.get "function_name"),
    ("class_name", ← context.get "class_name"),
    ("file_path", ← finding.getD "file" (.str "")),
    ("line_number", ← finding.getD "line" (.int 0))]
  (check fields).get "VerificationRequest"

/-- What is said about the finding. -/
def facts (r : VerdictRequest) : VerdictPrompt.Facts where
  tool := .str r.tool
  rule := .str r.rule
  severity := .str r.severity
  description := .str r.description
  code := .str r.code
  functionName := Json.ofString? r.functionName
  className := Json.ofString? r.className
  file := .str r.file
  line := .int r.line

/-- The text that is put before the model. -/
def prompt (r : VerdictRequest) (withExamples : Bool) : Except Failure String := do
  let request ← r.facts.request
  return if withExamples then VerdictPrompt.examples ++ "\n\n---\n\n" ++ request else request

end VerdictRequest

/-- A verifier: access to a model and how it is used. -/
structure Verifier where
  provider : Provider
  temperature : Float
  maxTokens : Int

namespace Verifier

/-- The key and the model that the settings have for a vendor. -/
def configured (s : Settings) : Vendor → Option String × String
  | .openai => (s.openaiApiKey, s.openaiModel)
  | .anthropic => (s.anthropicApiKey, s.anthropicModel)
  | .google => (s.googleApiKey, s.googleModel)

/-- The verifier that the settings ask for. It needs a key, its own or that of the settings. -/
def create (apiKey : Option String) (s : Settings) : Except Failure Verifier := do
  match Vendor.names.lookup s.llmProvider with
  | none => throw (.badValue s!"Unsupported LLM provider: {s.llmProvider}")
  | some vendor =>
    let (ownKey, model) := configured s vendor
    match ((apiKey.filter (· != "")).or ownKey).filter (· != "") with
    | none => throw (.badValue s!"API key not configured for provider: {s.llmProvider}")
    | some key =>
      let provider ← Provider.create (.str s.llmProvider) key (some model)
      return ⟨provider, s.openaiTemperature, s.openaiMaxTokens⟩

/-- The conversation about a finding. -/
def conversation (prompt : String) : Json :=
  .arr [
    .obj [("role", .str "system"), ("content", .str VerdictPrompt.system)],
    .obj [("role", .str "user"), ("content", .str prompt)]]

/-- Ask for the verdict on a finding; anything may go wrong. -/
def ask (v : Verifier) (finding : Json) (withExamples : Bool) : Run Verdict := do
  let request ← Run.ofExcept (VerdictRequest.ofFinding finding)
  let prompt ← Run.ofExcept (request.prompt withExamples)
  let answer ← v.provider.complete (conversation prompt) (.float v.temperature) (.int v.maxTokens) true
  Run.ofExcept (Verdict.parse (some answer.content))

/-- The verdict on a finding. -/
def verify (v : Verifier) (finding : Json) (withExamples : Bool) : Run Verdict :=
  try
    v.ask finding withExamples
  catch e => Run.ofExcept (Verdict.undecided s!"Verification failed due to error: {e.message}")

/-- The verdicts on the findings of one group. All are asked for, even after one has failed, and then
the first failure counts. -/
def verifyGroup (v : Verifier) : List Json → Run (List Verdict)
  | [] => return []
  | f :: fs => do
    let first : Except Failure Verdict ← try pure (.ok (← v.verify f true)) catch e => pure (.error e)
    match first with
    | .ok verdict => return verdict :: (← v.verifyGroup fs)
    | .error e =>
      let _ ← try v.verifyGroup fs catch _ => pure []
      throw e

/-- Cut a list into groups of `n`, at least one each. -/
def groupsOf {α : Type} (n : Nat) (xs : List α) : List (List α) :=
  if _h : xs.length ≤ n ∨ n = 0 then (if xs.isEmpty then [] else [xs])
  else xs.take n :: groupsOf n (xs.drop n)
termination_by xs.length
decreasing_by simp; omega

/-- The size of groups, which has to be a whole number other than zero. -/
def groupSize : Json → Except Failure Int
  | .int 0 => .error (.badValue "range() arg 3 must not be zero")
  | .bool false => .error (.badValue "range() arg 3 must not be zero")
  | .int n => .ok n
  | .bool true => .ok 1
  | v => .error (.wrongKind s!"'{v.kind}' object cannot be interpreted as an integer")

/-- The verdicts on several findings, asked for in groups. Groups of a negative size are none. -/
def verifyAll (v : Verifier) (findings : Json) (maxConcurrent : Json) : Run (List Verdict) := do
  let fs ← Run.ofExcept findings.items
  let size ← Run.ofExcept (groupSize maxConcurrent)
  if size < 0 then return []
  return (← (groupsOf size.toNat fs).mapM v.verifyGroup).flatten

/-- The length of a text in tokens, estimated as a quarter of its characters. -/
def tokenCount (text : Json) : Except Failure Nat := do
  return (← text.size) / 4

/-- The key works: the model answers. While other work is going on this is taken for granted. -/
def keyWorks (v : Verifier) (busy : Bool) : Run Bool :=
  if busy then return true
  else
    try
      let message : Json := .obj [("role", .str "user"), ("content", .str "test")]
      let _ ← v.provider.complete (.arr [message]) Provider.defaultTemperature (.int 5) false
      return true
    catch _ => return false

end Verifier

end SecureReview
