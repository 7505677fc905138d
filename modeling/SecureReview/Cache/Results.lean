import SecureReview.Digest.Sha256
import SecureReview.Json.Loose
import SecureReview.Json.Printer
import SecureReview.Store.Basic
import SecureReview.Text.Utf8
/-!
# Results of scans and verdicts

Scan results are kept by file and content, verdicts by code and rule. Keys are made from the first
sixteen digits of a hash. Without a store the cache is switched off; when the store cannot be reached
the cache behaves as if it knew nothing.
-/

namespace SecureReview

/-- A cache of results; without a store it is switched off. -/
structure ResultCache where
  store : Option Store
  /-- What the server tells about itself. -/
  info : Json := .obj []

namespace ResultCache

/-- The key of a text of a certain sort. -/
def key (sort text : String) : String :=
  s!"{sort}:{Text.take (Sha256.hex (Sha256.hash (Text.encodeUtf8 text))) 16}"

/-- The key of the verdict on code under a rule. -/
def verdictKey (code finding : Json) : Except Failure String := do
  let rule ← finding.getD "rule_id" (.str "")
  return key "llm" s!"{code.display}:{rule.display}"

/-- The key of the scan results of a file with a certain content. -/
def scanKey (path hash : Json) : String :=
  key "scan" s!"{path.display}:{hash.display}"

/-- Keep the outcome of an operation on the store; one that failed changes nothing. -/
def keep (c : ResultCache) : Except Failure Store → ResultCache
  | .ok s => { c with store := some s }
  | .error _ => c

/-- What is kept under a key. An empty text counts as nothing. -/
def read (s : Store) (k : String) : Except Failure (Option Json) := do
  match ← s.get k with
  | none => return none
  | some text => if text == "" then return none else return some (← Json.read text)

/-- Look something up; what cannot be looked up is not there. -/
def lookUp (c : ResultCache) (k : Except Failure String) : Option Json :=
  match c.store with
  | none => none
  | some s =>
    match k >>= read s with
    | .ok v => v
    | .error _ => none

/-- Keep a value under a key. -/
def save (c : ResultCache) (k : Except Failure String) (ttl value : Json) : ResultCache :=
  match c.store with
  | none => c
  | some s => c.keep do s.set (← k) ttl value.compact

/-- The verdict kept for code under a rule. -/
def getVerdict (c : ResultCache) (code finding : Json) : Option Json :=
  c.lookUp (verdictKey code finding)

/-- Keep the verdict on code under a rule, for a day unless told otherwise. -/
def setVerdict (c : ResultCache) (code finding value : Json) (ttl : Json := .int 86400) :
    ResultCache :=
  c.save (verdictKey code finding) ttl value

/-- The scan results kept for a file with a certain content. -/
def getScan (c : ResultCache) (path hash : Json) : Option Json :=
  c.lookUp (.ok (scanKey path hash))

/-- Keep the scan results of a file with a certain content, for an hour unless told otherwise. -/
def setScan (c : ResultCache) (path hash value : Json) (ttl : Json := .int 3600) : ResultCache :=
  c.save (.ok (scanKey path hash)) ttl value

/-- Forget what is kept under keys of scans that mention a path. -/
def invalidateFile (c : ResultCache) (path : Json) : ResultCache :=
  match c.store with
  | none => c
  | some s => c.keep do s.delete (← s.keys s!"scan:*{path.display}*")

/-- Forget everything. -/
def clear (c : ResultCache) : ResultCache :=
  match c.store with
  | none => c
  | some s => c.keep s.clear

/-- The share of lookups that found something, in percent with two places. -/
def hitRate (info : Json) : Except Failure Json := do
  let hits ← info.getD "keyspace_hits" (.int 0)
  let misses ← info.getD "keyspace_misses" (.int 0)
  let total ← hits.plus misses
  if total.isNumber 0 then return .float 0.0
  let rate ← (← hits.dividedBy total).mul (.int 100)
  return .float (Number.roundTo (← rate.toFloat) 2)

/-- What there is to say about a store. -/
def report (s : Store) (info : Json) : Except Failure Json := do
  s.reach
  return .obj [
    ("enabled", .bool true),
    ("total_keys", Json.nat (← s.size)),
    ("memory_used", ← info.getD "used_memory_human" (.str "unknown")),
    ("hits", ← info.getD "keyspace_hits" (.int 0)),
    ("misses", ← info.getD "keyspace_misses" (.int 0)),
    ("hit_rate", ← hitRate info)]

/-- What there is to say about the cache. -/
def stats (c : ResultCache) : Json :=
  match c.store with
  | none => .obj [("enabled", .bool false)]
  | some s =>
    match report s c.info with
    | .ok r => r
    | .error e => .obj [("enabled", .bool true), ("error", .str e.message)]

end ResultCache

end SecureReview
