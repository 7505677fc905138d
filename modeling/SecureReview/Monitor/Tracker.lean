import SecureReview.Failure
import SecureReview.Monitor.Metrics
import SecureReview.World.Basic
/-!
# Monitoring

What the service counts about itself: scans, requests to language models, their durations, tokens and
costs, findings and the use of the caches. A tracker follows one scan or one request from its start to
its end. Spans around calls go to the instruments for telemetry.
-/

namespace SecureReview

/-- The metrics of the service. -/
structure Monitor where
  activeScans : Int := 0
  scanRequests : Series Nat := []
  scanDurations : Series Histogram := []
  modelRequests : Series Nat := []
  modelDurations : Series Histogram := []
  modelTokens : Series Float := []
  modelCosts : Series Float := []
  cacheHits : Series Nat := []
  cacheMisses : Series Nat := []
  findings : Series Nat := []

/-- What a tracker follows. -/
inductive Subject where
  | scan (language scanner : String)
  | model (provider model : String)

/-- A tracker, which knows when it was last started. -/
structure Tracker where
  subject : Subject
  start : Option Float := none

namespace Tracker

/-- A tracker of a scan, whose scanner is not known yet. -/
def ofScan (language : String) : Tracker :=
  { subject := .scan language "unknown" }

/-- A tracker of a request to a language model. -/
def ofRequest (provider model : String) : Tracker :=
  { subject := .model provider model }

/-- Name the scanner of a scan. -/
def assign (t : Tracker) (scanner : String) : Tracker :=
  match t.subject with
  | .scan language _ => { t with subject := .scan language scanner }
  | .model .. => t

/-- How long ago the tracker was started. -/
def elapsed (t : Tracker) (now : Float) : Except Failure Float :=
  match t.start with
  | some start => .ok (now - start)
  | none => .error (.wrongKind "unsupported operand type(s) for -: 'float' and 'NoneType'")

end Tracker

namespace Monitor

/-- Begin to follow. -/
def start (t : Tracker) (now : Float) : Effect Monitor Tracker := do
  match t.subject with
  | .scan .. => modify (fun m => { m with activeScans := m.activeScans + 1 })
  | .model .. => pure ()
  return { t with start := some now }

/-- The label for how something ended. -/
def status (failed : Bool) : String :=
  if failed then "error" else "success"

/-- Stop following. Nothing is counted for a tracker that was never started. -/
def finish (t : Tracker) (failed : Bool) (now : Float) : Effect Monitor Unit := do
  let took ← Effect.ofExcept (t.elapsed now)
  match t.subject with
  | .scan language scanner =>
    modify (fun m => { m with
      scanRequests := m.scanRequests.update 0 (· + 1)
        [("language", language), ("status", status failed)] })
    modify (fun m => { m with
      scanDurations := m.scanDurations.update {} (·.observe took)
        [("language", language), ("scanner", scanner)] })
    modify (fun m => { m with activeScans := m.activeScans - 1 })
  | .model provider model =>
    modify (fun m => { m with
      modelRequests := m.modelRequests.update 0 (· + 1)
        [("provider", provider), ("model", model), ("status", status failed)] })
    modify (fun m => { m with
      modelDurations := m.modelDurations.update {} (·.observe took)
        [("provider", provider), ("model", model)] })

/-- What a counter is raised by: a number that is not negative. -/
def amount (v : Json) : Except Failure Float :=
  match Num.ofJson? v with
  | none => .error (.wrongKind s!"'<' not supported between instances of '{v.kind}' and 'int'")
  | some n =>
    if n.lt (.int 0) then
      .error (.badValue "Counters can only be incremented by non-negative amounts.")
    else n.toFloat

/-- Raise a counter. Its labels count as touched even if the amount is refused. -/
def raise (s : Series Float) (ls : Labels) (v : Json) : Except Failure Unit × Series Float :=
  match amount v with
  | .ok x => (.ok (), s.update 0.0 (· + x) ls)
  | .error e => (.error e, s.update 0.0 id ls)

/-- Record the tokens of a request; what comes out is not recorded if what went in is refused. -/
def recordTokens (m : Monitor) (provider model : String) (input output : Json) :
    Except Failure Unit × Monitor :=
  let labels := fun (direction : String) =>
    [("provider", provider), ("model", model), ("type", direction)]
  match raise m.modelTokens (labels "input") input with
  | (.error e, s) => (.error e, { m with modelTokens := s })
  | (.ok (), s) =>
    let (r, s) := raise s (labels "output") output
    (r, { m with modelTokens := s })

/-- Record the cost of a request. -/
def recordCost (m : Monitor) (provider model : String) (cost : Json) : Except Failure Unit × Monitor :=
  let (r, s) := raise m.modelCosts [("provider", provider), ("model", model)] cost
  (r, { m with modelCosts := s })

/-- Record a finding. -/
def recordFinding (m : Monitor) (severity language tool : String) : Monitor :=
  { m with
    findings := m.findings.update 0 (· + 1)
      [("severity", severity), ("language", language), ("tool", tool)] }

/-- Record that a cache knew an answer. -/
def recordHit (m : Monitor) (cache : String := "llm") : Monitor :=
  { m with cacheHits := m.cacheHits.update 0 (· + 1) [("cache_type", cache)] }

/-- Record that a cache did not know an answer. -/
def recordMiss (m : Monitor) (cache : String := "llm") : Monitor :=
  { m with cacheMisses := m.cacheMisses.update 0 (· + 1) [("cache_type", cache)] }

/-- Everything that is read out, in order. -/
def samples (m : Monitor) : List Sample :=
  (Sample.mk "active_scans" [] (Float.ofInt m.activeScans) ::
    m.scanRequests.countSamples "scan_requests_total" ++
    m.scanDurations.histogramSamples "scan_duration_seconds" ++
    m.modelRequests.countSamples "llm_requests_total" ++
    m.modelDurations.histogramSamples "llm_duration_seconds" ++
    m.modelTokens.amountSamples "llm_tokens_total" ++
    m.modelCosts.amountSamples "llm_cost_usd_total" ++
    m.cacheHits.countSamples "cache_hits_total" ++
    m.cacheMisses.countSamples "cache_misses_total" ++
    m.findings.countSamples "findings_total").mergeSort Sample.le

end Monitor

/-! ## Telemetry -/

namespace Telemetry

/-- Open a span. -/
def span (s : Json) : Run Unit :=
  Run.record (fun t => { t with spans := t.spans ++ [s] })

/-- Run an operation within a span, which is named after the operation if no other name is given. -/
def within {α : Type} (name operation : String) (act : Run α) : Run α := do
  span (.str (if name == "" then operation else name))
  act

/-- The service as the instruments know it. -/
def resource : Json :=
  .obj [("service.name", .str "secure-code-review-bot"), ("service.version", .str "2.0.0")]

/-- Set up the instruments. -/
def setUp : Run Unit :=
  (resource :: ["set_tracer_provider", "set_meter_provider", "fastapi", "redis", "sqlalchemy"].map
    Json.str).forM span

end Telemetry

end SecureReview
