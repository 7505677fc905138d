import SecureReview.Diff.Unified
import SecureReview.Fix.Prompt
import SecureReview.Path
import SecureReview.Text.Blank
import SecureReview.Text.Lines
import SecureReview.World.Basic
/-!
# Suggested fixes

A fix for a finding is asked of a language model, with a template if there is one for the rule and the
language of the file. Whatever goes wrong on the way, the outcome is then that there is no fix.
-/

/-! ## Answers that hold code

A language model is asked for code between fences, followed by an explanation behind a marker.
-/

namespace SecureReview.Fix

/-- What a fence line begins with. -/
def fence : List Char := ['`', '`', '`']

/-- The line is a fence. -/
def isFence (line : List Char) : Bool :=
  fence.isPrefixOf line

/-- Drop a fence at the head of a list of lines. -/
def dropFence : List (List Char) → List (List Char)
  | [] => []
  | l :: ls => if isFence l then ls else l :: ls

/-- The lines without a fence at the beginning and without one at the end. -/
def unfence (ls : List (List Char)) : List (List Char) :=
  (dropFence (dropFence ls).reverse).reverse

/-- The code of an answer, without its fences and without the blanks around it. -/
def cleanCode (t : List Char) : List Char :=
  Text.trim (Text.join ['\n'] (unfence (Text.feedLines t)))

/-- What stands before the explanation. -/
def marker : List Char := "**Explanation**:".toList

/-- The code and the explanation of an answer. An answer without exactly one marker is all code. -/
def parseAnswer (t : List Char) : List Char × List Char :=
  match Text.splitAtEach marker t with
  | [code, explanation] => (cleanCode (Text.trim code), Text.trim explanation)
  | _ => (cleanCode t, "Security fix applied".toList)

end SecureReview.Fix

/-! ## Suggestions -/

namespace SecureReview

/-- A suggested fix. What was copied from the finding may be of any kind. -/
structure FixSuggestion where
  findingId : Json
  ruleId : Json
  filePath : Json
  lineNumber : Json
  oldCode : String
  fixedCode : String
  explanation : String
  confidence : Float
  imports : List String
  diff : String
  template : Option String

/-- The suggestion as a value. -/
def FixSuggestion.toJson (f : FixSuggestion) : Json :=
  .obj [("finding_id", f.findingId), ("rule_id", f.ruleId), ("file_path", f.filePath),
    ("line_number", f.lineNumber), ("original_code", .str f.oldCode),
    ("fixed_code", .str f.fixedCode), ("explanation", .str f.explanation),
    ("confidence", .float f.confidence), ("imports_needed", Json.strings f.imports),
    ("diff", .str f.diff), ("template_used", Json.ofString? f.template)]

/-- The part of the fixer that does not change: the key and the model it uses. -/
structure FixEngine where
  apiKey : String
  model : String
  temperature : Float := 0.2

namespace FixEngine

/-- A fixer needs a key, its own or that of the settings. -/
def create (apiKey : Option String) (s : Settings) : Except Failure FixEngine :=
  let given := apiKey.filter (· != "")
  match (given.or s.openaiApiKey).filter (· != "") with
  | some key => .ok { apiKey := key, model := s.openaiModel }
  | none => .error (.badValue "OpenAI API key not configured")

/-- The system message and the user message of a conversation. -/
def conversation (system user : String) : Json :=
  .arr [.obj [("role", .str "system"), ("content", .str system)],
    .obj [("role", .str "user"), ("content", .str user)]]

/-- The code that a finding is about: that of its context if it has any, else its own. -/
def codeOf (finding : Json) : Except Failure Json := do
  let context ← finding.getD "context" (.obj [])
  let own ← finding.getD "code" (.str "")
  context.getD "context_code" own

/-- The text of a path that has to be text. -/
def pathText : Json → Except Failure String
  | .str s => .ok s
  | v => .error (.wrongKind s!"expected str, bytes or os.PathLike object, not {v.kind}")

/-- Put together a suggestion. -/
def suggest (finding : Json) (old : String) (fixed explanation : List Char)
    (confidence : Float) (imports : List String) (template : Option String) :
    Except Failure FixSuggestion := do
  return {
    findingId := ← finding.get "id"
    ruleId := ← finding.getD "rule_id" (.str "")
    filePath := ← finding.getD "file" (.str "")
    lineNumber := ← finding.getD "line" (.int 0)
    oldCode := old
    fixedCode := String.ofList fixed
    explanation := String.ofList explanation
    confidence
    imports
    diff := Diff.unified old (String.ofList fixed)
    template }

/-- Ask for code. An answer without text has none of the operations of a text. -/
def request (e : FixEngine) (system user : String) (maxTokens : Nat) (operation : String) :
    Run String := do
  let (text, _, _) ← Run.ask (.openai false e.model (conversation system user)
    (.float e.temperature) (Json.nat maxTokens))
  match text with
  | some t => return t
  | none => throw (.noOperation "NoneType" operation)

/-- A fix made from a template. -/
def fromTemplate (e : FixEngine) (finding : Json) (t : FixTemplate) : Run FixSuggestion := do
  let code ← Run.ofExcept (codeOf finding)
  let prompt ← Run.ofExcept (Fix.adaptPrompt code t finding)
  let answer ← e.request ("You are a security expert that fixes code vulnerabilities. " ++
    "Generate ONLY the fixed code, no explanations.") prompt 1000 "strip"
  let fixed := Fix.cleanCode (Text.trim answer.toList)
  let old ← Run.ofExcept (code.asString "splitlines")
  Run.ofExcept (suggest finding old fixed t.explanation.toList 0.9 t.imports
    (some t.vulnerability))

/-- A fix made without a template. -/
def fromModel (e : FixEngine) (finding : Json) : Run FixSuggestion := do
  let code ← Run.ofExcept (codeOf finding)
  let prompt ← Run.ofExcept (Fix.fixPrompt finding code)
  let answer ← e.request ("You are a security expert that fixes code vulnerabilities. " ++
    "Provide the fixed code and a brief explanation.") prompt 1500 "split"
  let (fixed, explanation) := Fix.parseAnswer answer.toList
  let old ← Run.ofExcept (code.asString "splitlines")
  Run.ofExcept (suggest finding old fixed explanation 0.75 [] none)

/-- The template that a finding calls for. -/
def templateFor? (finding : Json) : Except Failure (Option FixTemplate) := do
  let rule ← finding.getD "rule_id" (.str "")
  let path ← pathText (← finding.getD "file" (.str ""))
  match rule with
  | .str r => return FixTemplate.forRule? r (Language.ofFixed path)
  | _ => return none

/-- A fix for a finding, if one can be made. -/
def generate (e : FixEngine) (finding : Json) (useTemplate : Bool) : Run (Option FixSuggestion) :=
  try
    let template ← Run.ofExcept (templateFor? finding)
    match template with
    | some t => if useTemplate then some <$> e.fromTemplate finding t else some <$> e.fromModel finding
    | none => some <$> e.fromModel finding
  catch _ => return none

end FixEngine

/-- A fix is acceptable if it is not blank and changes more than the blanks around the code. -/
def isAcceptableFix (old fixed : String) : Bool :=
  Text.strip fixed != "" && Text.strip old != Text.strip fixed

/-- Check a fix whose parts may be of any kind. A missing fix is not acceptable. -/
def checkFix (old fixed : Json) : Except Failure Bool := do
  if !fixed.truthy then return false
  let f ← fixed.asString "strip"
  if Text.strip f == "" then return false
  return isAcceptableFix (← old.asString "strip") f

end SecureReview
