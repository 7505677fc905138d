import SecureReview.Archive.Label
import SecureReview.Cache.Results
import SecureReview.Cost.Ledger
import SecureReview.Limit.Bucket
import SecureReview.Monitor.Tracker
import SecureReview.Number.Whole
import SecureReview.Rules.Table
import SecureReview.Workload.Basic
/-!
# Workloads of what is kept

The cache of results, the ledger of costs, rate limits, rows and rules, and the monitor.
-/

namespace SecureReview.Workload

/-- Texts in increasing order. -/
def inOrder (ts : List String) : List String :=
  ts.mergeSort (fun a b => !(b < a))

/-- The moment at which everything happens. -/
def moment : DateTime := ({} : World).now

/-! ## Results -/

/-- The finding that a kept verdict belongs to. -/
def cachedFinding (i : Nat) : Json :=
  .obj [("rule_id", .str s!"R{i % 10}")]

/-- The code that a kept verdict belongs to. -/
def cachedCode (i : Nat) : Json :=
  .str s!"snippet {i}"

/-- How many verdicts are found again, the hit rate that the store reports, and the first keys. -/
def cacheManager : Workload :=
  once "cache_manager" "n_ops" [100, 400, 1500] (fun n => do
    let info := Json.obj [("keyspace_hits", .int 2), ("keyspace_misses", .int 1)]
    let keep := fun (c : ResultCache) (i : Nat) =>
      c.setVerdict (cachedCode i) (cachedFinding i) (.obj [("is_valid", .bool true)])
    let cache := (List.range n).foldl keep { store := some {}, info }
    let known := countUpTo n (fun i => (cache.getVerdict (cachedCode i) (cachedFinding i)).isSome)
    let keys := inOrder ((cache.store.getD {}).texts.map Prod.fst)
    return .arr [Json.nat known, ← ResultCache.hitRate info, Json.strings (keys.take 3)])

/-! ## Costs -/

/-- What one request of a run costs. -/
def chargeAt (run i : Nat) : Charge where
  provider := .str (cycled ["openai", "anthropic", "google"] i)
  model := .str (cycled ["gpt-4o", "claude-3-5-sonnet-20241022", "gemini-1.5-pro"] i)
  inputTokens := Json.nat (100 + i)
  outputTokens := Json.nat (50 + i)
  cost := .float (Float.ofNat i * 0.001)
  scanId := .str s!"scan-{run}"
  findingId := .str s!"finding-{i}"

/-- The costs so far, whether they are within the budget, and how many providers they went to. The
costs of all runs add up. -/
def costTracker : Workload where
  name := "cost_tracker"
  parameter := "n_entries"
  sizes := [60, 200, 600]
  State := Nat × CostLedger
  start := (0, { store := some {} })
  run n s :=
    match (List.range n).foldlM (fun l i => CostLedger.record l moment (chargeAt s.1 i)) s.2 with
    | .error e => (.error e, s)
    | .ok l =>
      let summary := do
        let (isWithin, _) ← l.checkBudget moment
        let providers := (l.breakdown moment {}).byProvider.length
        return Json.arr [sixPlaces (l.total moment {}), .bool isWithin, Json.nat providers]
      (summary, (s.1 + 1, l))

/-! ## Rate limits -/

/-- The clock of the rate limits, which stands still. -/
def clock : Num := ({} : World).clock

/-- How many of so many requests to a bucket are refused. -/
def refused : Nat → Bucket Num → Nat
  | 0, _ => 0
  | k + 1, b =>
    match b.acquire clock with
    | (.ok true, b) => refused k b
    | (_, b) => refused k b + 1

/-- How many requests under five keys are let through, and the buckets that were made for them. -/
def letThrough (rate : Num) : List Nat → Buckets Num → Nat × Buckets Num
  | [], bs => (0, bs)
  | i :: is, bs =>
    let (r, bs) := bs.check s!"user{i % 5}" rate Buckets.defaultPeriod clock
    let (passed, bs) := letThrough rate is bs
    (match r with
      | .ok true => passed + 1
      | _ => passed, bs)

/-- How many requests pass a generous limit, how many a limit of a third of them refuses, and how many
keys were used. -/
def rateLimiter : Workload :=
  once "rate_limiter" "n_requests" [500, 2000, 6000] (fun n =>
    let (passed, buckets) := letThrough (.int (n + 1)) (List.range n) []
    let tight := Bucket.create (.int (max 1 (n / 3))) Buckets.defaultPeriod clock
    .ok (.arr [Json.nat passed, Json.nat (refused n tight), Json.nat buckets.length]))

/-! ## Rows -/

/-- A row of every table for a number. -/
def rowsAt (i : Nat) : List (Schema × Row) := [
  (Schema.scanJobs, [("repo_full_name", .str "o/r"), ("pr_number", Json.nat i)]),
  (Schema.findings, [("tool", .str "bandit"), ("rule_id", .str s!"B{i}"), ("llm_decision", .str "tp")]),
  (Schema.customRules, [("tool", .str "bandit"), ("rule_id", .str s!"B{i}"), ("enabled", .bool true)]),
  (Schema.ruleConfigurations, [("key", .str s!"k{i}")]),
  (Schema.metricSnapshots, [("period", .str "daily"), ("precision", .float 0.9), ("recall", .float 0.8),
    ("f1_score", .float 0.85)]),
  (Schema.feedbackEntries, [("feedback_type", .str "agree"), ("finding_id", Json.nat i)]),
  (Schema.auditLogs, [("event_type", .str "scan")])]

/-- The total length of the labels of rows. -/
def databaseModels : Workload :=
  once "database_models" "n_rows" [50, 200, 800] (fun n => do
    let total ← sumUpTo n (fun i => do
      return Number.total (← (rowsAt i).mapM (fun r => do return (← Row.label r.1 r.2).length)))
    return Json.nat total)

/-! ## Rules -/

/-- The draft of a rule. -/
def draftAt (i : Nat) : RuleDraft where
  name := s!"rule_{i}"
  language := cycled RuleTable.languages i
  tool := cycled RuleTable.tools i
  ruleId := s!"R{i}"

/-- Rules are created and the first is renamed. The answer has their number and the first and the last
names. -/
def apiEndpoints : Workload :=
  once "api_endpoints" "n_rules" [40, 120, 300] (fun n => do
    let table ← (List.range n).foldlM (fun (t : RuleTable) i => do
      return (← t.create (draftAt i) moment).2) []
    match table with
    | [] => throw (.outOfRange "list index out of range")
    | first :: _ =>
      let (_, table) ← table.update first.id { name := some (some "upd") } moment
      let names := inOrder (table.map Rule.name)
      return .arr [Json.nat names.length, Json.strings (names.take 3),
        Json.strings (names.drop (names.length - 3))])

/-! ## Monitoring -/

/-- A scan and a request that succeed, a scan and a request that fail, and a hit and a miss. -/
def someEvents : Effect Monitor Unit := do
  for failed in [false, true] do
    let scan ← Monitor.start (.ofScan "python") 0.0
    Monitor.finish scan failed 1.0
    let request ← Monitor.start (.ofRequest "openai" "gpt-4o") 1.0
    Monitor.finish request failed 2.0
  modify (·.recordHit)
  modify (·.recordMiss)

/-- A finding and the tokens of a request are counted. -/
def countEvent (m : Monitor) (i : Nat) : Except Failure Monitor := do
  let m := m.recordFinding (cycled severities i) "python" (cycled tools i)
  let (r, m) := m.recordTokens "openai" "gpt-4o" (Json.nat i) (.int 0)
  r
  return m

/-- Everything that was counted: requests, cache uses, findings and tokens. -/
def counted (m : Monitor) : Nat :=
  let total := fun (s : Series Nat) => Number.total (s.map Prod.snd)
  let tokens := (m.modelTokens.map Prod.snd).foldl (· + ·) 0.0
  total m.scanRequests + total m.modelRequests + total m.cacheHits + total m.cacheMisses +
    total m.findings + ((Number.truncate? tokens).getD 0).toNat

/-- How much is counted. -/
def performanceMonitor : Workload :=
  once "performance_monitor" "n_events" [200, 800, 3000] (fun n => do
    let (followed, m) := someEvents.run.run {}
    followed
    return Json.nat (counted (← (List.range n).foldlM countEvent m)))

end SecureReview.Workload
