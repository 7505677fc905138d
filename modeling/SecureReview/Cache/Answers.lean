import SecureReview.Digest.Sha256
import SecureReview.Json.Printer
import SecureReview.Settings
import SecureReview.Store.Basic
import SecureReview.Text.Utf8
import SecureReview.Time.Date
/-!
# Answers of language models

Answers are kept under a key made from the conversation, the model and the temperature, so that the
same question is not paid for twice. A cache that is switched off, or has no store, knows nothing; a
cache that cannot reach its store behaves as if it knew nothing.
-/

namespace SecureReview

/-- A cache of answers. -/
structure AnswerCache where
  enabled : Bool
  ttl : Int
  store : Option Store

/-- What an answer depends on. -/
structure Question where
  messages : Json
  model : Json
  temperature : Json

namespace Question

/-- The temperature with two places; only numbers have places. -/
def roundedTemperature (q : Question) : Except Failure Json :=
  match Num.ofJson? q.temperature with
  | some (.int n) => .ok (.int n)
  | some (.float x) => .ok (.float (Number.roundTo x 2))
  | none => .error (.wrongKind s!"type {q.temperature.kind} doesn't define __round__ method")

/-- The text that stands for the question: the same for the same question. -/
def canonical (q : Question) : Except Failure String := do
  return (Json.sortKeys (.obj [("messages", q.messages), ("model", q.model),
    ("temperature", ← q.roundedTemperature)])).compact

/-- The key of the question. -/
def key (q : Question) : Except Failure String := do
  let digest := Sha256.hex (Sha256.hash (Text.encodeUtf8 (← q.canonical)))
  return s!"llm_cache:{q.model.display}:{digest}"

end Question

namespace AnswerCache

/-- The cache that the settings ask for. -/
def create (s : Settings) (store : Option Store) : AnswerCache :=
  ⟨s.enableCaching, s.cacheTtlLlm, store⟩

/-- The store, if the cache is in use. -/
def active? (c : AnswerCache) : Option Store :=
  if c.enabled then c.store else none

/-- Keep the outcome of an operation on the store; one that failed changes nothing. -/
def keep (c : AnswerCache) : Except Failure Store → AnswerCache
  | .ok s => { c with store := some s }
  | .error _ => c

/-- Look up an answer in a store. -/
def lookUp (s : Store) (q : Question) : Except Failure (Option Json) := do
  match ← s.get (← q.key) with
  | none => return none
  | some text => if text == "" then return none else return some (← Json.read text)

/-- The answer to a question, if it is known. -/
def get (c : AnswerCache) (q : Question) : Option Json :=
  match c.active? with
  | none => none
  | some s =>
    match lookUp s q with
    | .ok answer => answer
    | .error _ => none

/-- An answer together with when and under which key it was kept. -/
def marked (answer : Json) (now : DateTime) (key : String) : Except Failure Json :=
  match answer with
  | .obj fs => .ok (.obj (Fields.putAll fs [("cached_at", .str now.iso), ("cache_key", .str key)]))
  | v => .error (.wrongKind s!"'{v.kind}' object is not a mapping")

/-- Keep an answer. -/
def set (c : AnswerCache) (q : Question) (answer : Json) (now : DateTime) : AnswerCache :=
  match c.active? with
  | none => c
  | some s => c.keep do
    let key ← q.key
    s.set key (.int c.ttl) (← marked answer now key).compact

/-- Forget the answer to a question. -/
def invalidate (c : AnswerCache) (q : Question) : AnswerCache :=
  match c.active? with
  | none => c
  | some s => c.keep do s.delete [← q.key]

/-- Forget all answers. -/
def clear (c : AnswerCache) : AnswerCache :=
  match c.active? with
  | none => c
  | some s => c.keep do s.delete (← s.keys "llm_cache:*")

/-- What there is to say about the cache. -/
def stats (c : AnswerCache) : Json :=
  match c.active? with
  | none => .obj [("enabled", .bool false)]
  | some s =>
    match s.keys "llm_cache:*" with
    | .ok ks => .obj [("enabled", .bool true), ("total_entries", Json.nat ks.length),
        ("ttl_seconds", .int c.ttl)]
    | .error e => .obj [("enabled", .bool true), ("error", .str e.message)]

end AnswerCache

end SecureReview
