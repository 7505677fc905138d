import SecureReview.Json.Loose
import SecureReview.Text.Search
/-!
# Requests for verdicts

The wording of the conversation in which a language model is asked for its verdict on a finding.
-/

namespace SecureReview.VerdictPrompt

/-- What the model is told about its task. -/
def system : String :=
  Text.unlines [
    "You are a senior security engineer reviewing code for vulnerabilities.",
    "",
    "Your task is to verify whether a SAST (Static Application Security Testing) finding " ++
      "is a TRUE POSITIVE or FALSE POSITIVE.",
    "",
    "CRITICAL INSTRUCTIONS:",
    "1. You are NOT finding new bugs - you are VERIFYING an existing SAST alert",
    "2. Consider the FULL CONTEXT: function logic, variable names, comments, imports",
    "3. Distinguish between:",
    "   - Test code vs. production code",
    "   - Internal utilities vs. exposed APIs",
    "   - Sanitized input vs. user-controlled input",
    "   - Intentional design vs. security flaw",
    "",
    "DECISION CRITERIA:",
    "- TRUE POSITIVE: The vulnerability is real and exploitable in this context",
    "- FALSE POSITIVE: The SAST tool flagged safe code (e.g., test code, sanitized input, " ++
      "internal-only)",
    "- UNCERTAIN: Not enough context to determine (rare - use sparingly)",
    "",
    "Be conservative: if the code LOOKS vulnerable but you see sanitization or " ++
      "validation, mark as FALSE POSITIVE.",
    ""]

/-- Examples of verdicts. -/
def examples : String :=
  Text.unlines [
    "",
    "**Example 1: FALSE POSITIVE (Test Code)**",
    "",
    "SAST Finding: B101 - assert_used",
    "Code Context:",
    "```python",
    "def test_user_authentication():",
    "    user = authenticate(\"test_user\", \"test_pass\")",
    "    assert user is not None",
    "    assert user.role == \"admin\"",
    "```",
    "",
    "Decision: FALSE POSITIVE",
    "Reasoning: This is test code (function name starts with 'test_'). Assert statements " ++
      "are appropriate in tests.",
    "",
    "---",
    "",
    "**Example 2: TRUE POSITIVE (Weak Crypto)**",
    "",
    "SAST Finding: B303 - md5 usage",
    "Code Context:",
    "```python",
    "def hash_password(password):",
    "    \"\"\"Hash user password for storage\"\"\"",
    "    return hashlib.md5(password.encode()).hexdigest()",
    "```",
    "",
    "Decision: TRUE POSITIVE",
    "Reasoning: MD5 is used for password hashing. This is cryptographically weak and " ++
      "vulnerable to rainbow table attacks. Should use bcrypt or Argon2.",
    "",
    "---",
    "",
    "**Example 3: FALSE POSITIVE (Sanitized Input)**",
    "",
    "SAST Finding: B602 - subprocess with shell=True",
    "Code Context:",
    "```python",
    "def run_internal_script(script_name):",
    "    # Whitelist of allowed scripts",
    "    ALLOWED_SCRIPTS = ['backup.sh', 'cleanup.sh']",
    "    if script_name not in ALLOWED_SCRIPTS:",
    "        raise ValueError(\"Invalid script\")",
    "    subprocess.run(f\"./scripts/\x7bscript_name\x7d\", shell=True)",
    "```",
    "",
    "Decision: FALSE POSITIVE",
    "Reasoning: Input is validated against a whitelist before use. Not user-controlled. " ++
      "Internal utility function.",
    ""]

/-- What is said about a finding. -/
structure Facts where
  tool : Json
  rule : Json
  severity : Json
  description : Json
  code : Json
  functionName : Json := .null
  className : Json := .null
  file : Json := .null
  line : Json := .null

/-- Read the facts from named arguments. -/
def Facts.read (fs : Fields) : Except Failure Facts := do
  Fields.checkNames ["sast_tool", "rule_id", "severity", "description", "code_context"]
    ["function_name", "class_name", "file_path", "line_number"] fs
  let named := fun (k : String) => (Fields.get? fs k).getD .null
  return ⟨named "sast_tool", named "rule_id", named "severity", named "description",
    named "code_context", named "function_name", named "class_name", named "file_path",
    named "line_number"⟩

/-- A line that is written if its value is there. -/
def lineIf (v : Json) (text : String) : List String :=
  if v.truthy then [text] else []

/-- The facts that come before the code. -/
def Facts.header (f : Facts) : List String :=
  ["**SAST Finding to Verify:**",
   s!"- Tool: {f.tool.display}",
   s!"- Rule: {f.rule.display}",
   s!"- Severity: {f.severity.display}",
   s!"- Description: {f.description.display}"] ++
  lineIf f.file s!"- Location: {f.file.display}:{f.line.display}" ++
  lineIf f.functionName s!"- Function: {f.functionName.display}" ++
  lineIf f.className s!"- Class: {f.className.display}"

/-- What the model shall do. -/
def task : List String :=
  ["**Your Task:**",
   "Analyze the code context and determine if this SAST finding is a TRUE POSITIVE or FALSE POSITIVE.",
   "",
   "Consider:",
   "1. Is this test code or production code?",
   "2. Is the input sanitized or validated before use?",
   "3. Is this function exposed to users or internal-only?",
   "4. Are there mitigating controls in place?",
   "5. Does the variable/function naming suggest intentional design?",
   "",
   "Provide your verification decision with reasoning."]

/-- The request for a verdict on a finding, whose code has to be a text. -/
def Facts.request (f : Facts) : Except Failure String := do
  let before := f.header ++ ["", "**Code Context:**", "```"]
  match f.code with
  | .str code => return Text.unlines (before ++ [code, "```", ""] ++ task)
  | v => throw (.wrongKind
      s!"sequence item {before.length}: expected str instance, {v.kind} found")

/-- The first hundred items of a text or a list. -/
def excerpt : Json → Except Failure Json
  | .str s => .ok (.str (Text.take s 100))
  | .arr xs => .ok (.arr (xs.take 100))
  | .obj _ => .error (.wrongKind "unhashable type: 'slice'")
  | v => .error (.wrongKind s!"'{v.kind}' object is not subscriptable")

/-- What is said about one of several findings. -/
def batchItem (n : Nat) (finding : Json) : Except Failure (List String) := do
  let rule ← finding.get "rule_id"
  let description ← finding.get "description"
  let code ← excerpt (← finding.getD "code" (.str "N/A"))
  return [
    s!"## Finding {n}:",
    s!"- Rule: {rule.display}",
    s!"- Description: {description.display}",
    s!"- Code: {code.display}...",
    ""]

/-- What is said about several findings, counted from `n`. -/
def batchItems : Nat → List Json → Except Failure (List String)
  | _, [] => .ok []
  | n, f :: fs => do return (← batchItem n f) ++ (← batchItems (n + 1) fs)

/-- The request for verdicts on several findings. -/
def batch (findings : Json) : Except Failure String := do
  let count ← findings.size
  let items ← batchItems 1 (← findings.items)
  return Text.unlines ([
    "**Batch Verification Request:**",
    s!"You are verifying {count} SAST findings.",
    "",
    "For each finding, provide a verification decision.",
    ""] ++ items)

end SecureReview.VerdictPrompt
