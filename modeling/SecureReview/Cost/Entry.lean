import SecureReview.Json.Printer
import SecureReview.Time.Stamp
import SecureReview.Validation.Coercion
/-!
# Cost entries

What one request to a language model used and cost. An entry is kept as a JSON text and read back
from it.
-/

namespace SecureReview

/-- The cost of one request. -/
structure CostEntry where
  timestamp : DateTime
  provider : String
  model : String
  inputTokens : Int
  outputTokens : Int
  cost : Float
  scanId : Option String := none
  findingId : Option String := none

/-- What a caller reports about a request, before it is checked. -/
structure Charge where
  provider : Json
  model : Json
  inputTokens : Json
  outputTokens : Json
  cost : Json
  scanId : Json := .null
  findingId : Json := .null

/-- Read a charge from named arguments. -/
def Charge.read (fs : Fields) : Except Failure Charge := do
  Fields.checkNames ["provider", "model", "input_tokens", "output_tokens", "cost_usd"]
    ["scan_id", "finding_id"] fs
  let named := fun (k : String) => (Fields.get? fs k).getD .null
  return ⟨named "provider", named "model", named "input_tokens", named "output_tokens",
    named "cost_usd", named "scan_id", named "finding_id"⟩

namespace CostEntry

/-- The tokens that a request used. -/
def tokens (e : CostEntry) : Int :=
  e.inputTokens + e.outputTokens

/-- The fields of an entry, given how its time is checked. -/
def check (time : Fields → Checked DateTime) (fs : Fields) : Checked CostEntry :=
  CostEntry.mk <$> time fs
    <*> Checked.required fs "provider" Checked.string
    <*> Checked.required fs "model" Checked.string
    <*> Checked.required fs "input_tokens" Checked.int
    <*> Checked.required fs "output_tokens" Checked.int
    <*> Checked.required fs "cost_usd" Checked.float
    <*> Checked.optional fs "scan_id" Checked.string
    <*> Checked.optional fs "finding_id" Checked.string

/-- The entry of a charge at a certain time. -/
def ofCharge (now : DateTime) (c : Charge) : Except Failure CostEntry :=
  (check (fun _ => .ok now) [("provider", c.provider), ("model", c.model),
    ("input_tokens", c.inputTokens), ("output_tokens", c.outputTokens), ("cost_usd", c.cost),
    ("scan_id", c.scanId), ("finding_id", c.findingId)]).get "CostEntry"

/-- A time: a number of seconds, or a written one. -/
def time (v : Json) : Checked DateTime :=
  let bad : Checked DateTime := Checked.complain "invalid datetime format" "value_error.datetime"
  let found := match v with
    | .str s =>
      match Checked.ofNumeral s with
      | some x => DateTime.ofStamp? (.float x)
      | none => DateTime.readWritten s
    | v => (Num.ofJson? v).bind DateTime.ofStamp?
  match found with
  | some t => .ok t
  | none => bad

/-- Read an entry from its text. -/
def parse (text : String) : Except Failure CostEntry :=
  ((Checked.fieldsOfText "CostEntry" (some text)).andThen fun fs =>
    check (fun fs => Checked.required fs "timestamp" time) fs).get "CostEntry"

/-- The entry as an object. -/
def toJson (e : CostEntry) : Json :=
  .obj [("timestamp", .str e.timestamp.iso), ("provider", .str e.provider), ("model", .str e.model),
    ("input_tokens", .int e.inputTokens), ("output_tokens", .int e.outputTokens),
    ("cost_usd", .float e.cost), ("scan_id", Json.ofString? e.scanId),
    ("finding_id", Json.ofString? e.findingId)]

/-- The text of an entry. -/
def print (e : CostEntry) : String :=
  e.toJson.compact

end CostEntry

end SecureReview
