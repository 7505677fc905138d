import SecureReview.Time.Date
import SecureReview.Validation.Coercion
/-!
# Custom rules

A rule of a scanner that a user has adapted, as it is handed in, changed and kept.
-/

namespace SecureReview

/-- A rule as it is handed in. -/
structure RuleDraft where
  name : String
  language : String
  tool : String
  ruleId : String
  enabled : Bool := true
  severityOverride : Option String := none
  customMessage : Option String := none
  description : Option String := none
  deriving DecidableEq

/-- Changes to a rule. A field that is `none` stays; one that is given may be emptied. -/
structure RuleChanges where
  name : Option (Option String) := none
  enabled : Option (Option Bool) := none
  severityOverride : Option (Option String) := none
  customMessage : Option (Option String) := none
  description : Option (Option String) := none

/-- A rule as it is kept. -/
structure Rule where
  id : Nat
  name : String
  language : String
  tool : String
  ruleId : String
  enabled : Option Bool
  severityOverride : Option String
  customMessage : Option String
  description : Option String
  createdAt : DateTime
  updatedAt : DateTime
  deriving DecidableEq

namespace RuleDraft

/-- Check a rule that is handed in. -/
def check (fs : Fields) : Checked RuleDraft :=
  RuleDraft.mk <$> Checked.required fs "name" Checked.string
    <*> Checked.required fs "language" Checked.string
    <*> Checked.required fs "tool" Checked.string
    <*> Checked.required fs "rule_id" Checked.string
    <*> Checked.defaulted fs "enabled" true Checked.bool
    <*> Checked.optional fs "severity_override" Checked.string
    <*> Checked.optional fs "custom_message" Checked.string
    <*> Checked.optional fs "description" Checked.string

/-- Read a rule that is handed in. -/
def read (fs : Fields) : Except Failure RuleDraft :=
  (check fs).get "CustomRuleCreate"

/-- The rule as an object. -/
def toJson (d : RuleDraft) : Json :=
  .obj [("name", .str d.name), ("language", .str d.language), ("tool", .str d.tool),
    ("rule_id", .str d.ruleId), ("enabled", .bool d.enabled),
    ("severity_override", Json.ofString? d.severityOverride),
    ("custom_message", Json.ofString? d.customMessage), ("description", Json.ofString? d.description)]

/-- The rule under a number, at the time when it is first kept. -/
def toRule (d : RuleDraft) (id : Nat) (now : DateTime) : Rule :=
  ⟨id, d.name, d.language, d.tool, d.ruleId, some d.enabled, d.severityOverride, d.customMessage,
    d.description, now, now⟩

end RuleDraft

namespace RuleChanges

/-- A field that may be left out, or be null. -/
def change {α : Type} (fs : Fields) (k : String) (kind : Json → Checked α) :
    Checked (Option (Option α)) :=
  if Fields.has fs k then some <$> Checked.optional fs k kind else .ok none

/-- Check changes. -/
def check (fs : Fields) : Checked RuleChanges :=
  RuleChanges.mk <$> change fs "name" Checked.string
    <*> change fs "enabled" Checked.bool
    <*> change fs "severity_override" Checked.string
    <*> change fs "custom_message" Checked.string
    <*> change fs "description" Checked.string

/-- Read changes. -/
def read (fs : Fields) : Except Failure RuleChanges :=
  (check fs).get "CustomRuleUpdate"

/-- Make the changes to a rule. A rule has to keep a name. -/
def apply (c : RuleChanges) (now : DateTime) (r : Rule) : Except Failure Rule :=
  match c.name.getD (some r.name) with
  | none => .error .integrity
  | some name => .ok { r with
      name
      enabled := c.enabled.getD r.enabled
      severityOverride := c.severityOverride.getD r.severityOverride
      customMessage := c.customMessage.getD r.customMessage
      description := c.description.getD r.description
      updatedAt := now }

end RuleChanges

namespace Rule

/-- A truth value that may be missing. -/
def enabledJson (r : Rule) : Json :=
  (r.enabled.map Json.bool).getD .null

/-- What is exported of a rule. -/
def exported (r : Rule) : Fields :=
  [("name", .str r.name), ("language", .str r.language), ("tool", .str r.tool),
    ("rule_id", .str r.ruleId), ("enabled", r.enabledJson),
    ("severity_override", Json.ofString? r.severityOverride),
    ("custom_message", Json.ofString? r.customMessage), ("description", Json.ofString? r.description)]

/-- The rule with all its fields. -/
def toJson (r : Rule) : Json :=
  .obj (("id", Json.nat r.id) :: r.exported ++
    [("created_at", .str r.createdAt.iso), ("updated_at", .str r.updatedAt.iso)])

end Rule

end SecureReview
