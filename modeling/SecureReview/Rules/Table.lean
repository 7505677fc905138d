import SecureReview.Archive.Schema
import SecureReview.Rules.Draft
/-!
# The table of custom rules

Rules are kept in the order of their numbers. A rule that is created has to be of a known language and
tool, and no tool may have two rules of one name; an import only looks at the rules that were there
before it.
-/

namespace SecureReview

/-- The rules that are kept. -/
abbrev RuleTable := List Rule

/-- Which rules are asked for; parts that are empty or null ask for all. -/
structure RuleFilter where
  language : Json := .null
  tool : Json := .null
  enabled : Json := .null

/-- The outcome of an import. -/
structure ImportSummary where
  imported : Nat
  failed : Nat
  errors : List String

namespace RuleFilter

/-- A column has the text that is asked for. -/
def matchesText (asked : Json) (text : String) : Bool :=
  !asked.truthy || asked.same (.str text)

/-- A rule is on or off as asked; a rule that is neither matches no question. -/
def matchesState (asked : Json) (enabled : Option Bool) : Bool :=
  match asked with
  | .null => true
  | v =>
    match enabled with
    | none => false
    | some b => v.same (.bool b)

/-- A rule is asked for. -/
def keeps (f : RuleFilter) (r : Rule) : Bool :=
  matchesText f.language r.language && matchesText f.tool r.tool && matchesState f.enabled r.enabled

end RuleFilter

namespace RuleTable

/-- The languages of rules. -/
def languages : List String := ["python", "javascript", "typescript", "go", "rust"]

/-- The tools of rules. -/
def tools : List String := ["bandit", "eslint", "gosec", "cargo-clippy", "cargo-audit"]

/-! ## Questions -/

/-- The rules that a filter asks for. -/
def select (t : RuleTable) (f : RuleFilter) : RuleTable :=
  t.filter f.keeps

/-- The rules that a filter asks for, a page at a time. -/
def list (t : RuleTable) (f : RuleFilter) (skip limit : Json) : Except Failure RuleTable := do
  return Page.cut (← Page.bound skip) (← Page.bound limit) (t.select f)

/-- The rule with a number. -/
def find? (t : RuleTable) (id : Int) : Option Rule :=
  List.find? (fun r => (r.id : Int) == id) t

/-- The rule with a number, which has to be there. -/
def get (t : RuleTable) (id : Int) : Except Failure Rule :=
  match t.find? id with
  | some r => .ok r
  | none => .error (.refused 404 "Rule not found")

/-- What is exported of the rules that a filter asks for. -/
def exportRules (t : RuleTable) (f : RuleFilter) : List Fields :=
  (t.select f).map Rule.exported

/-! ## Changes -/

/-- The next free number: one more than the last. -/
def nextId (t : RuleTable) : Nat :=
  t.foldl (fun n r => max n r.id) 0 + 1

/-- A tool already has a rule of this name. -/
def isTaken (t : RuleTable) (tool ruleId : String) : Bool :=
  t.any (fun r => r.tool == tool && r.ruleId == ruleId)

/-- How a rule that is there already is told. -/
def takenText (d : RuleDraft) : String :=
  s!"Rule {d.tool}:{d.ruleId} already exists"

/-- Keep a rule at the end. -/
def add (t : RuleTable) (d : RuleDraft) (now : DateTime) : RuleTable :=
  t ++ [d.toRule t.nextId now]

/-- A rule may be created: it is of a known language and tool, and its tool has none of its name. -/
def vet (t : RuleTable) (d : RuleDraft) : Except Failure Unit :=
  if !languages.contains d.language then
    .error (.refused 400 ("Invalid language. Must be one of: " ++ Text.joinWith ", " languages))
  else if !tools.contains d.tool then
    .error (.refused 400 ("Invalid tool. Must be one of: " ++ Text.joinWith ", " tools))
  else if t.isTaken d.tool d.ruleId then .error (.refused 409 (takenText d))
  else .ok ()

/-- Create a rule. -/
def create (t : RuleTable) (d : RuleDraft) (now : DateTime) : Except Failure (Rule × RuleTable) := do
  t.vet d
  return (d.toRule t.nextId now, t.add d now)

/-- Change a rule. -/
def update (t : RuleTable) (id : Int) (c : RuleChanges) (now : DateTime) :
    Except Failure (Rule × RuleTable) := do
  let r ← (← t.get id) |> c.apply now
  return (r, t.map (fun x => if x.id == r.id then r else x))

/-- Delete a rule. -/
def delete (t : RuleTable) (id : Int) : Except Failure RuleTable := do
  let r ← t.get id
  return t.filter (fun x => x.id != r.id)

/-- Import rules. Every rule is compared with the rules that were there before the import. -/
def importRules (t : RuleTable) (ds : List RuleDraft) (now : DateTime) : ImportSummary × RuleTable :=
  let fresh := ds.filter (fun d => !t.isTaken d.tool d.ruleId)
  let taken := ds.filter (fun d => t.isTaken d.tool d.ruleId)
  (⟨fresh.length, taken.length, (taken.map takenText).take 10⟩,
    fresh.foldl (fun t d => t.add d now) t)

/-- The summary as an object. -/
def summaryJson (s : ImportSummary) : Json :=
  .obj [("imported", Json.nat s.imported), ("failed", Json.nat s.failed),
    ("errors", Json.strings s.errors)]

end RuleTable

end SecureReview
