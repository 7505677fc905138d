import SecureReview.Fix.Template
import SecureReview.Json.Loose
/-!
# Requests for a fix

The wording of the two requests to a language model: to adapt a template to the code of a finding,
and to fix the code without one.
-/

namespace SecureReview.Fix

/-- A field of a finding as part of a sentence. -/
def shown (finding : Json) (k : String) (default : Json) : Except Failure String :=
  (finding.getD k default).map Json.display

/-- The request to adapt a template. -/
def adaptPrompt (code : Json) (t : FixTemplate) (finding : Json) : Except Failure String := do
  let description ← shown finding "description" (.str "")
  let rule ← shown finding "rule_id" (.str "")
  return Text.unlines [
    "Fix this security vulnerability using the provided template as a guide.",
    "",
    s!"**Vulnerability**: {description}",
    s!"**Rule**: {rule}",
    "",
    "**Original Code**:",
    "```",
    code.display,
    "```",
    "",
    "**Fix Template**:",
    t.template,
    "",
    "**Instructions**:",
    "1. Apply the security fix shown in the template to the original code",
    "2. Preserve variable names, function names, and code structure",
    "3. Only change what's necessary to fix the vulnerability",
    "4. Return ONLY the fixed code, no explanations",
    "",
    "**Fixed Code**:",
    ""]

/-- The request to fix code without a template. -/
def fixPrompt (finding : Json) (code : Json) : Except Failure String := do
  let description ← shown finding "description" (.str "")
  let rule ← shown finding "rule_id" (.str "")
  let severity ← shown finding "severity" (.str "")
  let file ← shown finding "file" (.str "")
  let line ← shown finding "line" (.int 0)
  return Text.unlines [
    "Fix this security vulnerability.",
    "",
    s!"**Vulnerability**: {description}",
    s!"**Rule**: {rule}",
    s!"**Severity**: {severity}",
    s!"**File**: {file}",
    s!"**Line**: {line}",
    "",
    "**Original Code**:",
    "```",
    code.display,
    "```",
    "",
    "**Instructions**:",
    "1. Provide the fixed code that resolves the security issue",
    "2. Preserve variable names, function names, and code structure",
    "3. Only change what's necessary to fix the vulnerability",
    "4. After the code, provide a brief explanation (2-3 sentences)",
    "",
    "**Response Format**:",
    "```",
    "[fixed code here]",
    "```",
    "",
    "**Explanation**: [brief explanation here]",
    ""]

end SecureReview.Fix
