import SecureReview.Number.Num
import SecureReview.Store.Basic
/-!
# Token buckets

A bucket holds up to `rate` tokens and gains `rate` tokens every `per` seconds. A request takes one
token, and is turned away if there is none. The arithmetic is a parameter: the service computes with
numbers that are whole until a division makes them floating, and the same rules can be read over exact
quotients.
-/

namespace SecureReview

/-- Quantities that can be added, multiplied and compared; an operation may fail. -/
class Quantity (α : Type) where
  add : α → α → Except Failure α
  sub : α → α → Except Failure α
  mul : α → α → Except Failure α
  div : α → α → Except Failure α
  lt : α → α → Bool
  /-- One token. -/
  one : α

instance : Quantity Num where
  add := Num.add
  sub := Num.sub
  mul := Num.mul
  div := Num.div
  lt := Num.lt
  one := .float 1.0

/-- Exact arithmetic, in which only a division by zero fails. -/
instance : Quantity Rat where
  add a b := .ok (a + b)
  sub a b := .ok (a - b)
  mul a b := .ok (a * b)
  div a b := if b = 0 then .error (.divisionByZero "division by zero") else .ok (a / b)
  lt a b := decide (a < b)
  one := 1

/-- Take turns until one comes to an end. There is no outcome if none does. -/
def untilDone {σ ρ : Type} (turn : σ → ρ ⊕ σ) (s : σ) : Option ρ :=
  match turn s with
  | .inl r => some r
  | .inr s => (by exact untilDone turn : σ → Option ρ) s
partial_fixpoint

/-- A token bucket. -/
structure Bucket (α : Type) where
  rate : α
  per : α
  allowance : α
  lastCheck : α

namespace Bucket

variable {α : Type} [Quantity α]

/-- A full bucket. -/
def create (rate per now : α) : Bucket α :=
  ⟨rate, per, rate, now⟩

/-- The tokens of a bucket after some time has passed: no more than the rate. -/
def refilled (b : Bucket α) (passed : α) : Except Failure α := do
  let gained ← Quantity.mul passed (← Quantity.div b.rate b.per)
  let total ← Quantity.add b.allowance gained
  return if Quantity.lt b.rate total then b.rate else total

/-- Take a token, if there is one. -/
def take (b : Bucket α) : Except Failure (Bool × Bucket α) := do
  if Quantity.lt b.allowance Quantity.one then return (false, b)
  return (true, { b with allowance := ← Quantity.sub b.allowance Quantity.one })

/-- Ask for a token at a certain time. The time of the request counts even if the refill fails. -/
def acquire (b : Bucket α) (now : α) : Except Failure Bool × Bucket α :=
  match Quantity.sub now b.lastCheck with
  | .error e => (.error e, b)
  | .ok passed =>
    let b := { b with lastCheck := now }
    match b.refilled passed with
    | .error e => (.error e, b)
    | .ok tokens =>
      let b := { b with allowance := tokens }
      match b.take with
      | .error e => (.error e, b)
      | .ok (granted, b) => (.ok granted, b)

/-- One who waits for a token of a bucket, with the clock and how often they slept. -/
structure Waiter (α : Type) where
  bucket : Bucket α
  clock : α
  sleeps : Nat

/-- The outcome of waiting for a token: whether one was granted, and what the waiter left. -/
structure Wait (α : Type) extends Waiter α where
  granted : Except Failure Bool

/-- A turn of a waiter, who asks for a token. If there is none they take a nap, else the wait is over. -/
def Waiter.turn (nap : α) (w : Waiter α) : Wait α ⊕ Waiter α :=
  match w.bucket.acquire w.clock with
  | (.ok false, b) =>
    match Quantity.add w.clock nap with
    | .error e => .inl ⟨⟨b, w.clock, w.sleeps⟩, .error e⟩
    | .ok later => .inr ⟨b, later, w.sleeps + 1⟩
  | (granted, b) => .inl ⟨⟨b, w.clock, w.sleeps⟩, granted⟩

/-- Wait for a token. A waiter who never gets one has no outcome. -/
def wait (b : Bucket α) (now nap : α) : Option (Wait α) :=
  untilDone (Waiter.turn nap) ⟨b, now, 0⟩

end Bucket

/-! ## Buckets by key

Every key has a bucket of its own, made at the first request under the key. Later requests find that
bucket, whatever rate they ask for.
-/

/-- Buckets by key, in the order in which they were made. -/
abbrev Buckets (α : Type) := List (String × Bucket α)

namespace Buckets

variable {α : Type} [Quantity α]

/-- The bucket of a key, and the buckets with it: it is made if there is none. -/
def fetch (bs : Buckets α) (key : String) (rate per now : α) : Bucket α × Buckets α :=
  match bs.lookup key with
  | some b => (b, bs)
  | none =>
    let b := Bucket.create rate per now
    (b, Store.put key b bs)

/-- Ask for a token under a key. The clock is read for the bucket, should it have to be made, and again
for the token. -/
def ask (bs : Buckets α) (key : String) (rate per made now : α) : Except Failure Bool × Buckets α :=
  let (b, bs) := bs.fetch key rate per made
  let (granted, b) := b.acquire now
  (granted, Store.put key b bs)

/-- Ask for a token under a key, all at one time. -/
def check (bs : Buckets α) (key : String) (rate per now : α) : Except Failure Bool × Buckets α :=
  bs.ask key rate per now now

/-- Wait for a token under a key. -/
def wait (bs : Buckets α) (key : String) (rate per now nap : α) :
    Option (Bucket.Wait α × Buckets α) :=
  let (b, bs) := bs.fetch key rate per now
  (b.wait now nap).map fun w => (w, Store.put key w.bucket bs)

/-- Let a call through if there is a token under its key. -/
def letThrough (bs : Buckets α) (key : String) (rate per now : α) : Except Failure Unit × Buckets α :=
  match bs.check key rate per now with
  | (.ok true, bs) => (.ok (), bs)
  | (.ok false, bs) => (.error (.throttled key), bs)
  | (.error e, bs) => (.error e, bs)

end Buckets

/-- How long a waiter sleeps between two requests, in seconds. -/
def Buckets.nap : Num := .float 0.1

/-- The period of a bucket in seconds if none is given. -/
def Buckets.defaultPeriod : Num := .int 60

end SecureReview
