import SecureReview.Limit.Bucket
import SecureReview.Proofs.Limit.Bound
import SecureReview.Proofs.Store.Entries
/-!
# Keys do not share buckets

Calls under many keys may come in any order. A call touches the bucket of
its own key only (`lookup_after_of_ne`), and does to it what it would do if
there were no other (`lookup_after`). So what the calls under a key are
answered is **what one bucket answers that nobody else uses**, made for the
rate of the first of them (`answersTo_eq_alone`). The arithmetic plays no
part, so it is any.
-/

namespace SecureReview

/-- A call on the buckets: for the bucket of a key, or for a token of it. The
times are readings of the clock. -/
inductive LimitCall (α : Type) where
  | fetch (key : String) (rate per made : α)
  | ask (key : String) (rate per made now : α)

namespace LimitCall

variable {α : Type}

/-- The key of a call. -/
def key : LimitCall α → String
  | .fetch key .. => key
  | .ask key .. => key

/-- The bucket that a call makes if there is none. -/
def fresh : LimitCall α → Bucket α
  | .fetch _ rate per made => Bucket.create rate per made
  | .ask _ rate per made _ => Bucket.create rate per made

/-- When a call asks for a token, if it does. -/
def asked? : LimitCall α → Option α
  | .fetch .. => none
  | .ask _ _ _ _ now => some now

/-- When some calls ask for tokens. -/
def askTimes (calls : List (LimitCall α)) : List α :=
  calls.filterMap asked?

theorem askTimes_cons (c : LimitCall α) (calls : List (LimitCall α)) :
    askTimes (c :: calls) = c.asked?.toList ++ askTimes calls := by
  cases c <;> rfl

end LimitCall

namespace Buckets

section Fetch

variable {α : Type} {bs : Buckets α} {k l : String} {rate per made : α}

theorem fetch_fst : (bs.fetch k rate per made).1 = (bs.lookup k).getD (.create rate per made) := by
  rw [fetch]
  cases bs.lookup k <;> rfl

theorem lookup_fetch :
    (bs.fetch k rate per made).2.lookup k = some (bs.fetch k rate per made).1 := by
  rw [fetch]
  split
  · next h => exact h
  · exact Store.lookup_put_self k _ bs

theorem lookup_fetch_of_ne (h : k ≠ l) : (bs.fetch l rate per made).2.lookup k = bs.lookup k := by
  rw [fetch]
  split
  · rfl
  · exact Store.lookup_put_of_ne h _ bs

end Fetch

variable {α : Type} [Quantity α] {bs : Buckets α} {b : Bucket α} {c : LimitCall α}
variable {calls : List (LimitCall α)} {k : String}

/-- The buckets after a call. -/
def after (bs : Buckets α) : LimitCall α → Buckets α
  | .fetch key rate per made => (bs.fetch key rate per made).2
  | .ask key rate per made now => (bs.ask key rate per made now).2

/-- The answer to a call, if it asks for a token. -/
def answer? (bs : Buckets α) : LimitCall α → Option (Except Failure Bool)
  | .fetch .. => none
  | .ask key rate per made now => some (bs.ask key rate per made now).1

/-- The buckets after some calls. -/
def afterAll (bs : Buckets α) (calls : List (LimitCall α)) : Buckets α :=
  calls.foldl after bs

/-- The answers to the calls under a key, among all the calls that are made. -/
def answersTo (k : String) (bs : Buckets α) : List (LimitCall α) → List (Except Failure Bool)
  | [] => []
  | c :: calls =>
    (if c.key = k then (bs.answer? c).toList else []) ++ answersTo k (bs.after c) calls

/-! ## One call -/

theorem ask_eq (bs : Buckets α) (k : String) (rate per made now : α) :
    bs.ask k rate per made now =
      (((bs.fetch k rate per made).1.acquire now).1,
        Store.put k ((bs.fetch k rate per made).1.acquire now).2 (bs.fetch k rate per made).2) :=
  rfl

/-- **A call leaves the buckets of other keys alone.** -/
theorem lookup_after_of_ne (h : c.key ≠ k) : (bs.after c).lookup k = bs.lookup k := by
  cases c with
  | fetch l rate per made => exact lookup_fetch_of_ne (Ne.symm h)
  | ask l rate per made now =>
    have hne : k ≠ l := Ne.symm h
    rw [after, ask_eq, Store.lookup_put_of_ne hne, lookup_fetch_of_ne hne]

/-- Of its own key it asks the bucket, if it asks for a token. -/
theorem lookup_after (bs : Buckets α) (c : LimitCall α) : (bs.after c).lookup c.key =
    some (((bs.lookup c.key).getD c.fresh).afterAll c.asked?.toList) := by
  cases c with
  | fetch l rate per made =>
    rw [after, LimitCall.key, lookup_fetch, fetch_fst]
    rfl
  | ask l rate per made now =>
    rw [after, ask_eq, LimitCall.key, Store.lookup_put_self, fetch_fst]
    rfl

/-- And the answer is that of the bucket. -/
theorem answer?_eq (bs : Buckets α) (c : LimitCall α) : (bs.answer? c).toList =
    (((bs.lookup c.key).getD c.fresh).requests c.asked?.toList).map Bucket.Request.answer := by
  cases c with
  | fetch l rate per made => rfl
  | ask l rate per made now =>
    rw [answer?, ask_eq, fetch_fst]
    rfl

/-! ## Histories of calls -/

/-- The calls under a key. -/
def own (k : String) (calls : List (LimitCall α)) : List (LimitCall α) :=
  calls.filter fun c => c.key = k

/-- How calls are answered by a bucket that is theirs alone, and the bucket
afterwards. It is the one that is there, or else the one that the first of the
calls makes, for what that call asks. -/
def served (there : Option (Bucket α)) (calls : List (LimitCall α)) :
    List (Except Failure Bool) × Option (Bucket α) :=
  match there.or (calls.head?.map LimitCall.fresh) with
  | none => ([], none)
  | some b => ((b.requests (LimitCall.askTimes calls)).map Bucket.Request.answer,
      some (b.afterAll (LimitCall.askTimes calls)))

/-- The first call and the others share the bucket. -/
theorem served_cons (there : Option (Bucket α)) (c : LimitCall α) (calls : List (LimitCall α)) :
    served there (c :: calls) =
      (((there.getD c.fresh).requests c.asked?.toList).map Bucket.Request.answer ++
          (served (some ((there.getD c.fresh).afterAll c.asked?.toList)) calls).1,
        (served (some ((there.getD c.fresh).afterAll c.asked?.toList)) calls).2) := by
  have hthere : there.or ((c :: calls).head?.map LimitCall.fresh) = some (there.getD c.fresh) := by
    cases there <;> rfl
  simp only [served, hthere, Option.some_or, LimitCall.askTimes_cons, Bucket.requests_append,
    Bucket.afterAll_append, List.map_append]

/-- **Calls under a key are served by its bucket**, and by no other. -/
theorem served_own (k : String) (bs : Buckets α) (calls : List (LimitCall α)) :
    answersTo k bs calls = (served (bs.lookup k) (own k calls)).1 ∧
      (bs.afterAll calls).lookup k = (served (bs.lookup k) (own k calls)).2 := by
  induction calls generalizing bs with
  | nil => cases h : bs.lookup k <;> exact ⟨rfl, h⟩
  | cons c calls ih =>
    obtain ⟨hanswers, hlast⟩ := ih (bs.after c)
    by_cases hkey : c.key = k
    · -- the call goes to this bucket, and the others find what it leaves
      subst hkey
      have hown : own c.key (c :: calls) = c :: own c.key calls := by simp [own]
      rw [lookup_after] at hanswers hlast
      rw [hown, served_cons]
      refine ⟨?_, hlast⟩
      rw [answersTo, if_pos rfl, answer?_eq, hanswers]
    · have hown : own k (c :: calls) = own k calls := by simp [own, hkey]
      rw [lookup_after_of_ne hkey] at hanswers hlast
      rw [hown]
      refine ⟨?_, hlast⟩
      rw [answersTo, if_neg hkey, List.nil_append, hanswers]

/-- A single bucket for some calls: it is made at the first of them, for what that
call asks, and asked when they ask. How it answers, and the bucket afterwards. -/
def alone : List (LimitCall α) → List (Except Failure Bool) × Option (Bucket α)
  | [] => ([], none)
  | first :: rest =>
    ((first.fresh.requests (LimitCall.askTimes (first :: rest))).map Bucket.Request.answer,
      some (first.fresh.afterAll (LimitCall.askTimes (first :: rest))))

/-- **Keys do not influence each other.** Whatever is called in between under
other keys, the calls under a key are answered as by a bucket of their own, and
they find it as they left it. What later calls want it to be does not matter. -/
theorem answersTo_eq_alone (k : String) (calls : List (LimitCall α)) :
    answersTo k [] calls = (alone (own k calls)).1 ∧
      (afterAll [] calls).lookup k = (alone (own k calls)).2 := by
  have halone : served none (own k calls) = alone (own k calls) := by
    cases own k calls <;> rfl
  rw [← halone]
  exact served_own k [] calls

end Buckets

end SecureReview
