import SecureReview.Cache.Answers
import SecureReview.Fix.Suggestion
import SecureReview.Verify.Verifier
import SecureReview.Workload.Basic
/-!
# Workloads of the language models

Requests, their costs, the verdicts that come back, the cache of answers, and fixes.
-/

namespace SecureReview.Workload

/-! ## Requests -/

/-- A field of a value. -/
def fieldOf (v : Json) (k : String) : Json :=
  (v.get? k).getD .null

/-- What the model is told about a sample finding. -/
def factsOf (i : Nat) : VerdictPrompt.Facts :=
  let f := finding i
  let c := context i
  { tool := fieldOf f "tool", rule := fieldOf f "rule_id", severity := fieldOf f "severity"
    description := fieldOf f "description", code := fieldOf c "context_code"
    functionName := fieldOf c "function_name", className := .str "Handler"
    file := fieldOf f "file", line := fieldOf f "line" }

/-- The total length of the requests for verdicts, one by one and all at once. -/
def prompts : Workload :=
  once "prompts" "n_findings" [300, 1200, 4000] (fun n => do
    let single ← sumUpTo n (fun i => do return (← (factsOf i).request).length)
    let together ← VerdictPrompt.batch (.arr (findings n))
    return Json.nat (single + together.length + VerdictPrompt.examples.length))

/-! ## Costs -/

/-- The vendors with their default models. -/
def providers : Except Failure (List Provider) :=
  ["openai", "anthropic", "google"].mapM (fun v => Provider.create (.str v) "key" none)

/-- The costs of the conversation with a number, over all vendors. -/
def conversationCost (ps : List Provider) (spent : Num) (i : Nat) : Except Failure Num :=
  ps.foldlM (fun spent p => do spent.add (← p.cost (.int (1000 + i)) (.int (500 + i)))) spent

/-- A verdict as a model writes it. -/
def sampleAnswer : String :=
  "\x7b\"decision\":\"true_positive\",\"confidence\":0.9,\"reasoning\":\"user input reaches the query\"\x7d"

/-- A short conversation. -/
def sampleMessages : Json :=
  .arr [
    .obj [("role", .str "system"), ("content", .str "You are a security reviewer.")],
    .obj [("role", .str "user"), ("content", .str "Is the finding real and reachable?")]]

/-- The tokens of one answer of each vendor. -/
def answerTokens (ps : List Provider) : Except Failure Int := do
  let reply := ModelReply.content (some sampleAnswer) 100 50
  let done ← inWorld { replies := List.replicate ps.length reply } (ps.mapM (fun p =>
    p.complete sampleMessages Provider.defaultTemperature Provider.defaultMaxTokens false))
  return (done.map Completion.tokens).foldl (· + ·) 0

/-- The costs of conversations with every vendor. -/
def llmProviders : Workload :=
  once "llm_providers" "n_calls" [20, 60, 200] (fun n => do
    let ps ← providers
    let spent ← (List.range n).foldlM (conversationCost ps) (.int 0)
    return .arr ([sixPlaces spent] ++ ps.map (fun p => .str p.vendor.name) ++
      [.int (← answerTokens ps)]))

/-! ## Verdicts -/

/-- The answer of a model with a decision. -/
def decided (d : Decision) : ModelReply :=
  .content (some (Verdict.print
    { decision := d, confidence := 0.9, reasoning := "the input reaches the sink" })) 100 50

/-- The decisions, in turn. -/
def decisionAt (i : Nat) : Decision :=
  [Decision.truePositive, .falsePositive, .uncertain].getD (i % 3) .truePositive

/-- How many findings are also verified as a group. -/
def groupSize : Nat := 4

/-- The verdicts on sample findings, one by one and then on some of them as a group. -/
def llmVerifier : Workload :=
  once "llm_verifier" "n_findings" [10, 30, 100] (fun n => do
    let v ← Verifier.create (some "key") {}
    let group := (findings n).take groupSize
    let replies := (List.range n).map (fun i => decided (decisionAt i)) ++
      group.map (fun _ => decided .truePositive)
    let verdicts ← inWorld { replies } (do
      let single ← (findings n).mapM (fun f => v.verify f true)
      return single ++ (← v.verifyAll (.arr group) (.int 2)))
    return Json.strings (verdicts.map (fun d => d.decision.label)))

/-! ## Kept answers -/

/-- The question about a finding. -/
def questionAbout (i : Nat) : Question where
  messages := .arr [.obj [("role", .str "user"), ("content", .str s!"verify finding {i}")]]
  model := .str "gpt-4o"
  temperature := .float 0.1

/-- How many questions find their answers, and the first keys of the cache. The first question is put
away and asked again at the end, so there has to be one. -/
def llmCache : Workload :=
  once "llm_cache" "n_msgs" [100, 400, 1500] (fun n => do
    let w : World := {}
    let answer := fun (i : Nat) => Json.obj [("content", .str s!"answer {i}")]
    let keep := fun (c : AnswerCache) (i : Nat) => c.set (questionAbout i) (answer i) w.now
    let cache := (List.range n).foldl keep { enabled := true, ttl := 3600, store := some {} }
    let known := countUpTo n (fun i => (cache.get (questionAbout i)).isSome)
    if n == 0 then throw (.outOfRange "list index out of range")
    let cache := keep (cache.invalidate (questionAbout 0)) 0
    let keys := ((cache.store.getD {}).texts.map Prod.fst).mergeSort (fun a b => !(b < a))
    return .arr [Json.nat known, Json.strings (keys.take 5)])

/-! ## Fixes -/

/-- Answers of a model to a request for a fix. -/
def fixAnswers : List String := [
  "```\npassword = os.environ[\"APP_PASSWORD\"]\nrun(validate(user_input))\n```\n" ++
    "**Explanation**: The secret now comes from the environment and the input is validated before it is run.",
  "```\nimport os\npassword = os.environ[\"APP_PASSWORD\"]\nchecked = validate(user_input)\n" ++
    "run(checked)\n```\n" ++
    "**Explanation**: The secret now comes from the environment, and the input is validated at first."]

/-- Code that the answers repair. -/
def brokenCode : String := "password = \"secret\"\nrun(user_input)\n"

/-- The length of what is made of an answer: the code, the explanation and the changes. -/
def answerLength (answer : String) : Nat :=
  let (code, explanation) := Fix.parseAnswer answer.toList
  code.length + explanation.length + (Diff.unified brokenCode (String.ofList code)).length

/-- The confidence of the fix for the first finding, with or without a template. -/
def fixConfidence (useTemplate : Bool) : Except Failure Json := do
  let e ← FixEngine.create (some "key") {}
  let fix ← inWorld { replies := [.content (some (fixAnswers.headD "")) 100 50] }
    (e.generate (finding 0) useTemplate)
  return (fix.map (fun f => Json.float f.confidence)).getD .null

/-- The total length of the requests for fixes and of what is made of the answers, and the confidence
in fixes. -/
def autoFixEngine : Workload :=
  once "auto_fix_engine" "n_findings" [30, 80, 300] (fun n => do
    let total ← sumUpTo n (fun i => do
      let f := finding i
      let request ← Fix.fixPrompt f (fieldOf f "code")
      return request.length + answerLength (cycled fixAnswers i))
    return .arr [Json.nat total, ← fixConfidence true, ← fixConfidence false])

/-- The languages in which templates are looked up. -/
def templateLanguages : List String := ["python", "javascript", "go", "rust", "typescript"]

/-- The pairs of a rule and a language that are looked up, in turn. -/
def lookups : List (String × String) :=
  rules.flatMap (fun r => templateLanguages.map (fun l => (r, l)))

/-- The pair that is looked up at a place has a template. -/
def hasTemplate (i : Nat) : Bool :=
  match lookups[i % lookups.length]? with
  | some (rule, language) => (FixTemplate.forRule? rule language).isSome
  | none => false

/-- How many look-ups find a template, how many templates there are, and for which languages. -/
def fixTemplates : Workload :=
  once "fix_templates" "n_lookups" [500, 2000, 8000] (fun n =>
    let counted := ["python", "javascript", "go", "rust"].map (fun l =>
      (l, Json.nat (FixTemplate.forLanguage l).length))
    let languages := FixTemplate.supportedLanguages.mergeSort (fun a b => !(b < a))
    .ok (.arr [Json.nat (countUpTo n hasTemplate), .obj counted, Json.strings languages]))

end SecureReview.Workload
