import SecureReview.Verify.Verdict
import SecureReview.World.Basic
/-!
# Providers of language models

Three vendors behind one interface: a conversation goes in, and a text with its number of tokens and
its price comes out.
-/

namespace SecureReview

/-- The vendors. -/
inductive Vendor where
  | openai
  | anthropic
  | google
  deriving DecidableEq

namespace Vendor

/-- The vendors by name. -/
def names : List (String × Vendor) :=
  [("openai", .openai), ("anthropic", .anthropic), ("google", .google)]

/-- The name of a vendor. -/
def name : Vendor → String
  | .openai => "openai"
  | .anthropic => "anthropic"
  | .google => "google"

/-- The model used unless another is asked for. -/
def defaultModel : Vendor → String
  | .openai => "gpt-4o"
  | .anthropic => "claude-3-5-sonnet-20241022"
  | .google => "gemini-1.5-pro"

/-- The prices of models in dollars per thousand tokens, those sent and those received. -/
def prices : Vendor → List (String × Float × Float)
  | .openai =>
    [("gpt-4o", 0.0025, 0.010), ("gpt-4o-mini", 0.00015, 0.0006), ("gpt-4-turbo", 0.010, 0.030),
     ("gpt-4", 0.030, 0.060)]
  | .anthropic =>
    [("claude-3-5-sonnet-20241022", 0.003, 0.015), ("claude-3-opus-20240229", 0.015, 0.075),
     ("claude-3-sonnet-20240229", 0.003, 0.015), ("claude-3-haiku-20240307", 0.00025, 0.00125)]
  | .google =>
    [("gemini-1.5-pro", 0.00125, 0.005), ("gemini-1.5-flash", 0.000075, 0.0003),
     ("gemini-pro", 0.0005, 0.0015)]

/-- The prices of a model that is not listed. -/
def otherPrice : Vendor → Float × Float
  | .openai => (0.0025, 0.010)
  | .anthropic => (0.003, 0.015)
  | .google => (0.00125, 0.005)

end Vendor

/-- Access to a model of a vendor. -/
structure Provider where
  vendor : Vendor
  apiKey : String
  model : String

/-- The answer of a model. -/
structure Completion where
  content : String
  model : String
  provider : String
  tokens : Int
  cost : Float

/-- The completion as a value. -/
def Completion.toJson (c : Completion) : Json :=
  .obj [("content", .str c.content), ("model", .str c.model), ("provider", .str c.provider),
    ("tokens_used", .int c.tokens), ("cost_usd", .float c.cost)]

namespace Provider

/-- Access to a vendor by name; without a model to its default one. -/
def create (vendor : Json) (apiKey : String) (model : Option String) : Except Failure Provider := do
  match ← Json.lookupIn Vendor.names vendor with
  | some v => return ⟨v, apiKey, (model.filter (· != "")).getD v.defaultModel⟩
  | none =>
    let known := (Json.strings (Vendor.names.map (·.1))).literal
    .error (.badValue s!"Unknown provider: {vendor.display}. Choose from: {known}")

/-- The prices of the model. -/
def price (p : Provider) : Float × Float :=
  (p.vendor.prices.lookup p.model).getD p.vendor.otherPrice

/-- The price of one side of a conversation. -/
def sidePrice (tokens : Num) (perThousand : Float) : Except Failure Num := do
  (← tokens.mul (.float perThousand)).div (.int 1000)

/-- The price of a conversation. -/
def cost (p : Provider) (sent received : Num) : Except Failure Num := do
  (← sidePrice sent p.price.1).add (← sidePrice received p.price.2)

/-- Put together a completion. Its content has to be a text. -/
def completion (p : Provider) (content : Option String) (sent received : Int) :
    Except Failure Completion := do
  let price ← p.cost (.int sent) (.int received)
  let fields : Fields := [("content", Json.ofString? content), ("cost_usd", price.toJson)]
  (Completion.mk
    <$> Checked.required fields "content" Checked.string
    <*> .ok p.model
    <*> .ok p.vendor.name
    <*> .ok (sent + received)
    <*> Checked.required fields "cost_usd" Checked.float).get "LLMResponse"

/-- A text that should be a verdict, in the normal form of verdicts; another text stays as it is. -/
def normalVerdict (structured : Bool) (content : Option String) : Option String :=
  if structured then
    match Verdict.parse content with
    | .ok v => some v.print
    | .error _ => content
  else content

/-- The length of a value in tokens, estimated as a quarter of its characters. -/
def estimate (v : Json) : Except Failure Int := do
  return ((← v.size) / 4 : Nat)

/-- The conversation without its system messages, and the last of these. -/
def splitSystem : Json → List Json → Except Failure (Json × List Json)
  | system, [] => .ok (system, [])
  | system, m :: ms => do
    if (← m.require "role").same (.str "system") then splitSystem (← m.require "content") ms
    else
      let (s, rest) ← splitSystem system ms
      return (s, m :: rest)

/-- A message in the form of a conversation between a user and a model. -/
def turn (m : Json) : Except Failure Json := do
  let role ← m.require "role"
  let isUser := role.same (.str "user") || role.same (.str "system")
  return .obj [
    ("role", .str (if isUser then "user" else "model")), ("parts", .arr [← m.require "content"])]

/-- A structured answer is read as a verdict, and one that is no verdict is a failure. -/
def completeOpenai (p : Provider) (messages temperature maxTokens : Json) (structured : Bool) :
    Run Completion := do
  let (text, sent, received) ← Run.ask (.openai structured p.model messages temperature maxTokens)
  let content ←
    if structured then pure (some (← Run.ofExcept (Verdict.parse text)).print) else pure text
  Run.ofExcept (p.completion content sent received)

/-- System messages do not belong to the conversation; the last of them is sent apart. -/
def completeAnthropic (p : Provider) (messages temperature maxTokens : Json) (structured : Bool) :
    Run Completion := do
  let (system, turns) ← Run.ofExcept do splitSystem .null (← messages.items)
  let (text, sent, received) ← Run.ask (.anthropic p.model maxTokens temperature
    (if system.truthy then system else .str "") (.arr turns))
  Run.ofExcept (p.completion (normalVerdict structured text) sent received)

/-- The vendor does not count tokens, so both sides are estimated, all messages on the side that is
sent. -/
def completeGoogle (p : Provider) (messages temperature maxTokens : Json) (structured : Bool) :
    Run Completion := do
  let turns ← Run.ofExcept do (← messages.items).mapM turn
  let (text, _, _) ← Run.ask (.google (.arr turns) temperature maxTokens)
  let content := normalVerdict structured text
  Run.ofExcept do
    let sent ← (← messages.items).mapM (fun m => do estimate (← m.require "content"))
    let received ← estimate (Json.ofString? content)
    p.completion content (sent.foldl (· + ·) 0) received

/-- Let the model answer a conversation. A structured answer is a verdict. -/
def complete (p : Provider) (messages temperature maxTokens : Json) (structured : Bool) :
    Run Completion :=
  match p.vendor with
  | .openai => p.completeOpenai messages temperature maxTokens structured
  | .anthropic => p.completeAnthropic messages temperature maxTokens structured
  | .google => p.completeGoogle messages temperature maxTokens structured

/-- The temperature used unless another is asked for. -/
def defaultTemperature : Json := .float 0.1

/-- The length of answers allowed unless another is asked for. -/
def defaultMaxTokens : Json := .int 2000

end Provider

end SecureReview
