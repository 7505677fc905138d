import SecureReview.Validation.Validator
/-!
# Verdicts

What a language model says about a finding, in a fixed form, so that it can be read without guessing. The
form is told by its fields; a validator reads and writes them.
-/

namespace SecureReview

/-- What a finding is. -/
inductive Decision where
  | truePositive
  | falsePositive
  | uncertain
  deriving DecidableEq

/-- How severe a finding is. -/
inductive Severity where
  | critical
  | high
  | medium
  | low
  | info
  deriving DecidableEq

/-- The decisions by their texts. -/
def Decision.texts : List (String × Decision) :=
  [("true_positive", .truePositive), ("false_positive", .falsePositive), ("uncertain", .uncertain)]

/-- The text of a decision. -/
def Decision.text : Decision → String
  | .truePositive => "true_positive"
  | .falsePositive => "false_positive"
  | .uncertain => "uncertain"

/-- The name of a decision in complaints and logs. -/
def Decision.label : Decision → String
  | .truePositive => "VerificationDecision.TRUE_POSITIVE"
  | .falsePositive => "VerificationDecision.FALSE_POSITIVE"
  | .uncertain => "VerificationDecision.UNCERTAIN"

/-- The severities by their texts. -/
def Severity.texts : List (String × Severity) :=
  [("critical", .critical), ("high", .high), ("medium", .medium), ("low", .low), ("info", .info)]

/-- The text of a severity. -/
def Severity.text : Severity → String
  | .critical => "critical"
  | .high => "high"
  | .medium => "medium"
  | .low => "low"
  | .info => "info"

/-- The name of a severity in complaints. -/
def Severity.label : Severity → String
  | .critical => "SeverityLevel.CRITICAL"
  | .high => "SeverityLevel.HIGH"
  | .medium => "SeverityLevel.MEDIUM"
  | .low => "SeverityLevel.LOW"
  | .info => "SeverityLevel.INFO"

/-- A verdict on a finding. -/
structure Verdict where
  decision : Decision
  confidence : Float
  reasoning : String
  severity : Option Severity := none
  exploitability : Option String := none
  remediation : Option String := none
  falsePositiveReason : Option String := none
  cweIds : Option (List String) := none

namespace Verdict

/-- The name of the form of verdicts. -/
def form : String := "VerificationResult"

/-- Read a decision. -/
def readDecision [Validator] : Json → Checked Decision :=
  Validator.member Decision.texts
    (Decision.texts.map (fun d => s!"<{d.2.label}: {Text.quote d.1}>"))

/-- Read a severity. -/
def readSeverity [Validator] : Json → Checked Severity :=
  Validator.member Severity.texts
    (Severity.texts.map (fun s => s!"<{s.2.label}: {Text.quote s.1}>"))

/-- A text of at most so many characters. -/
def readText [Validator] (most : Nat) (v : Json) : Checked String :=
  (Validator.string v).andThen (Validator.atMost most)

/-- The reasons, which have to be given but not at length. -/
def readReasoning [Validator] (v : Json) : Checked String :=
  ((Validator.string v).andThen (Validator.atLeast 10)).andThen (Validator.atMost 500)

/-- Read the fields of a verdict. -/
def check [Validator] (fs : Fields) : Checked Verdict :=
  Verdict.mk
    <$> Validator.required fs "decision" readDecision
    <*> Validator.required fs "confidence" (fun v => (Validator.float v).andThen Validator.unit)
    <*> Validator.required fs "reasoning" readReasoning
    <*> Validator.optional fs "severity" readSeverity
    <*> Validator.optional fs "exploitability" (readText 200)
    <*> Validator.optional fs "remediation" (readText 300)
    <*> Validator.optional fs "false_positive_reason" (readText 200)
    <*> Validator.optional fs "cwe_ids" (Validator.list Validator.string)

/-- Read a verdict from JSON text, if there is a text. -/
def parse [Validator] (text : Option String) : Except Failure Verdict :=
  ((Validator.fields form text).andThen check).get form

/-- The verdict as a value. -/
def toJson (v : Verdict) : Json :=
  .obj [
    ("decision", .str v.decision.text),
    ("confidence", .float v.confidence),
    ("reasoning", .str v.reasoning),
    ("severity", Json.ofString? (v.severity.map Severity.text)),
    ("exploitability", Json.ofString? v.exploitability),
    ("remediation", Json.ofString? v.remediation),
    ("false_positive_reason", Json.ofString? v.falsePositiveReason),
    ("cwe_ids", match v.cweIds with
      | some ids => Json.strings ids
      | none => .null)]

/-- The verdict as JSON text. -/
def print [Validator] (v : Verdict) : String :=
  Validator.write v.toJson

/-- The verdict when there is none: nothing is certain, for the given reason. The reason has to be
acceptable as one. -/
def undecided [Validator] (reason : String) : Except Failure Verdict :=
  (check [("decision", .str Decision.uncertain.text), ("confidence", .float 0.0),
    ("reasoning", .str reason)]).get form

end Verdict

end SecureReview
