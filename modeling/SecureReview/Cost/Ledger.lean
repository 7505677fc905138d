import SecureReview.Cost.Entry
import SecureReview.Number.Whole
import SecureReview.Store.Basic
/-!
# The ledger of costs

Entries are kept by calendar month, in the order of their times. An entry that is recorded twice with
all its fields equal is kept once. Questions about a span of time go through the months from the first
day of the month of its start on, at the time of day of the start.
-/

namespace SecureReview

/-- A ledger of costs; without a store nothing is kept. -/
structure CostLedger where
  store : Option Store
  budget : Json := .float 1000.0

/-- A span of time, and the provider whose costs are asked for; all parts may be left open. -/
structure CostQuery where
  start : Option DateTime := none
  stop : Option DateTime := none
  provider : Json := .null

/-- The use of one provider or one model. -/
structure Usage where
  cost : Float := 0.0
  tokens : Int := 0
  requests : Nat := 0

/-- Costs in total and by provider and model. -/
structure CostBreakdown where
  cost : Float := 0.0
  tokens : Int := 0
  byProvider : List (String × Usage) := []
  byModel : List (String × Usage) := []

/-- Count an entry. -/
def Usage.add (u : Usage) (e : CostEntry) : Usage :=
  ⟨u.cost + e.cost, u.tokens + e.tokens, u.requests + 1⟩

/-- The use as an object. -/
def Usage.toJson (u : Usage) : Json :=
  .obj [("cost", .float u.cost), ("tokens", .int u.tokens), ("requests", Json.nat u.requests)]

namespace CostBreakdown

/-- Count an entry under a name. -/
def count (name : String) (e : CostEntry) (us : List (String × Usage)) : List (String × Usage) :=
  Store.put name (((us.lookup name).getD {}).add e) us

/-- Count an entry. -/
def add (b : CostBreakdown) (e : CostEntry) : CostBreakdown where
  cost := b.cost + e.cost
  tokens := b.tokens + e.tokens
  byProvider := count e.provider e b.byProvider
  byModel := count e.model e b.byModel

/-- The breakdown of a list of entries. -/
def ofEntries (es : List CostEntry) : CostBreakdown :=
  es.foldl add {}

/-- The breakdown as an object. -/
def toJson (b : CostBreakdown) : Json :=
  let table := fun (us : List (String × Usage)) => Json.obj (us.map (fun u => (u.1, u.2.toJson)))
  .obj [("total_cost", .float b.cost), ("total_tokens", .int b.tokens),
    ("by_provider", table b.byProvider), ("by_model", table b.byModel)]

end CostBreakdown

namespace CostLedger

/-- How long a month is kept, in seconds. -/
def retention : Int := 90 * 24 * 3600

/-- The key of the month of a time. -/
def monthKey (t : DateTime) : String :=
  s!"llm_costs:{t.monthText}"

/-- Put an entry into a store. -/
def insert (s : Store) (e : CostEntry) : Except Failure Store := do
  let s ← s.addSorted (monthKey e.timestamp) e.print (← e.timestamp.stamp)
  s.expire (monthKey e.timestamp) (.int retention)

/-- Record a charge. It has to be acceptable, but a store that cannot be reached is no failure. -/
def record (l : CostLedger) (now : DateTime) (c : Charge) : Except Failure CostLedger := do
  let e ← CostEntry.ofCharge now c
  match l.store with
  | none => return l
  | some s =>
    match insert s e with
    | .ok s => return { l with store := some s }
    | .error _ => return l

/-! ## Questions -/

/-- The months counted from the year zero. -/
def monthIndex (t : DateTime) : Nat :=
  12 * t.year + t.month

/-- The same day and time one month later. -/
def nextMonth (t : DateTime) : DateTime :=
  if t.month == 12 then { t with year := t.year + 1, month := 1 } else { t with month := t.month + 1 }

/-- A month later is a month further. -/
theorem monthIndex_nextMonth (t : DateTime) : monthIndex (nextMonth t) = monthIndex t + 1 := by
  unfold monthIndex nextMonth
  split
  · rename_i h
    have h : t.month = 12 := by simpa using h
    simp only [h]
    omega
  · simp only
    omega

/-- The months from `t` on until the end of a span. The calendar ends with the year 9999, and a span
that reaches beyond it cannot be gone through. -/
def monthsUntil (stop t : DateTime) : Except Failure (List DateTime) := do
  if ← t.notAfter stop then
    if _h : monthIndex t < 120000 then
      return t :: (← monthsUntil stop (nextMonth t))
    else .error (.badValue "year 10000 is out of range")
  else return []
termination_by 120000 - monthIndex t
decreasing_by
  have := monthIndex_nextMonth t
  omega

/-- An entry is of the provider that is asked for; no provider stands for all of them. -/
def isOf (provider : Json) (e : CostEntry) : Bool :=
  !provider.truthy || provider.same (.str e.provider)

/-- The entries of one month between two times. -/
def entriesOf (s : Store) (start stop month : DateTime) : Except Failure (List CostEntry) := do
  let found ← s.range (monthKey month) (← start.stamp) (← stop.stamp)
  found.mapM CostEntry.parse

/-- The entries between two times. -/
def entriesBetween (s : Store) (start stop : DateTime) (provider : Json) :
    Except Failure (List CostEntry) := do
  let months ← monthsUntil stop { start with day := 1 }
  let found ← months.mapM (entriesOf s start stop)
  return found.flatten.filter (isOf provider)

/-- The entries that a query asks for. If the store cannot be reached, or an entry cannot be read,
there are none. -/
def entries (l : CostLedger) (now : DateTime) (q : CostQuery) : List CostEntry :=
  match l.store with
  | none => []
  | some s =>
    let start := q.start.getD { year := now.year, month := now.month, day := 1 }
    match entriesBetween s start (q.stop.getD now) q.provider with
    | .ok es => es
    | .error _ => []

/-- The sum of the costs; of no costs it is the whole number zero. -/
def sum (es : List CostEntry) : Num :=
  if es.isEmpty then .int 0 else .float (es.foldl (fun x e => x + e.cost) 0.0)

/-- The total cost that a query asks for. -/
def total (l : CostLedger) (now : DateTime) (q : CostQuery) : Num :=
  sum (l.entries now q)

/-- The breakdown of the costs that a query asks for. -/
def breakdown (l : CostLedger) (now : DateTime) (q : CostQuery) : CostBreakdown :=
  CostBreakdown.ofEntries (l.entries now q)

/-- A number for a part of a date, or the current one if none is given. -/
def datePart (v : Json) (current : Nat) : Except Failure Int :=
  if !v.truthy then .ok current
  else
    match v with
    | .int n =>
      if n.natAbs < Number.twoTo 31 then .ok n
      else .error (.tooLarge "signed integer is greater than maximum")
    | .bool _ => .ok 1
    | v => .error (.wrongKind s!"'{v.kind}' object cannot be interpreted as an integer")

/-- The first day of a month. -/
def firstOfMonth (year month : Int) : Except Failure DateTime :=
  if year < 1 || 9999 < year then .error (.badValue s!"year {Json.intText year} is out of range")
  else if month < 1 || 12 < month then .error (.badValue "month must be in 1..12")
  else .ok { year := year.toNat, month := month.toNat, day := 1 }

/-- A month, from its first day to one second before the next month. -/
def monthSpan (year month : Int) : Except Failure CostQuery := do
  let start ← firstOfMonth year month
  let next ← if month == 12 then firstOfMonth (year + 1) 1 else firstOfMonth year (month + 1)
  return { start := some start, stop := some (next.addSeconds (-1)) }

/-- The total cost of a month; year and month default to the current ones. -/
def monthly (l : CostLedger) (now : DateTime) (year month : Json) : Except Failure Num := do
  let y ← datePart year now.year
  let m ← datePart month now.month
  return l.total now (← monthSpan y m)

/-- The costs of the current month, and whether they are within the budget. -/
def checkBudget (l : CostLedger) (now : DateTime) : Except Failure (Bool × Num) := do
  let spent ← l.monthly now .null .null
  match Num.ofJson? l.budget with
  | some budget => return (spent.le budget, spent)
  | none =>
    .error (.wrongKind s!"'<=' not supported between instances of '{spent.toJson.kind}' and '{l.budget.kind}'")

end CostLedger

end SecureReview
