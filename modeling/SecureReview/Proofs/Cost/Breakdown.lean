import Mathlib.Algebra.BigOperators.Group.List.Basic
import Mathlib.Algebra.GroupWithZero.Nat
import Mathlib.Algebra.Ring.Int.Defs
import Mathlib.Data.List.Induction
import SecureReview.Cost.Ledger
import SecureReview.Proofs.Store.Entries
/-!
# The breakdown of costs adds up

A breakdown goes through the entries once and keeps a total and two
tables, one by provider and one by model. A row is made when its name is
met for the first time. `Tallied` says what a table has to do with the
entries gone through so far, and **counting one more entry keeps it**
(`Tallied.count`), whatever the entries are named by. So both tables
account for the same entries, and their sums are the total
(`breakdown_adds_up`).
-/

namespace SecureReview

variable {name : CostEntry → String} {es : List CostEntry} {e : CostEntry}
variable {us : List (String × Usage)} {k : String}

/-! ## Uses -/

/-- A measure that every entry raises by its own share ends up raised by
the shares of all. -/
theorem measure_foldl {σ M : Type} [AddMonoid M] (measure : σ → M) {step : σ → CostEntry → σ}
    {share : CostEntry → M} (hstep : ∀ s e, measure (step s e) = measure s + share e) (s : σ)
    (es : List CostEntry) : measure (es.foldl step s) = measure s + (es.map share).sum := by
  induction es generalizing s with
  | nil => exact (add_zero _).symm
  | cons e es ih => rw [List.foldl_cons, ih, hstep, List.map_cons, List.sum_cons, add_assoc]

namespace Usage

/-- The use of some entries together, counted in their order. -/
def ofEntries (es : List CostEntry) : Usage :=
  es.foldl add {}

theorem ofEntries_concat (es : List CostEntry) (e : CostEntry) :
    ofEntries (es ++ [e]) = (ofEntries es).add e := by
  rw [ofEntries, List.foldl_append]
  rfl

theorem tokens_ofEntries (es : List CostEntry) :
    (ofEntries es).tokens = (es.map CostEntry.tokens).sum := by
  rw [ofEntries, measure_foldl tokens fun _ _ => rfl]
  exact zero_add _

theorem requests_ofEntries (es : List CostEntry) : (ofEntries es).requests = es.length := by
  have hone : (es.map fun _ => 1).sum = es.length := by simp
  rw [ofEntries, measure_foldl requests fun _ _ => rfl, hone]
  exact Nat.zero_add _

end Usage

namespace CostBreakdown

/-! ## Tables -/

/-- The entries that have a name. -/
def named (name : CostEntry → String) (k : String) (es : List CostEntry) : List CostEntry :=
  es.filter fun e => name e == k

theorem named_concat (name : CostEntry → String) (k : String) (es : List CostEntry)
    (e : CostEntry) :
    named name k (es ++ [e]) = if name e = k then named name k es ++ [e] else named name k es := by
  rw [named, List.filter_append]
  split_ifs with h
  · rw [List.filter_singleton, beq_iff_eq.2 h]
    rfl
  · rw [List.filter_singleton, beq_false_of_ne h]
    exact List.append_nil _

/-- A measure of uses to which an entry adds `x` grows by `x` in the sum
over the table, be there a row for the entry or not. -/
theorem sum_count {M : Type} [AddCommMonoid M] (measure : Usage → M) {x : M}
    (hzero : measure {} = 0) (hadd : ∀ u, measure (u.add e) = measure u + x) (k : String)
    (us : List (String × Usage)) :
    ((count k e us).map fun r => measure r.2).sum = (us.map fun r => measure r.2).sum + x := by
  unfold count
  induction us with
  | nil => simp [Store.put, hadd, hzero]
  | cons r us ih =>
    by_cases hk : r.1 = k
    · simp only [Store.put, Store.lookup_cons, hk, beq_self_eq_true, if_true, Option.getD_some,
        List.map_cons, List.sum_cons, hadd]
      exact add_right_comm _ _ _
    · simp only [Store.put, Store.lookup_cons, beq_iff_eq, hk, Ne.symm hk, if_false,
        List.map_cons, List.sum_cons, ih]
      exact (add_assoc _ _ _).symm

/-- What a table of uses has to do with the entries gone through: there is
one row for each name that occurs, a name has the use of its own entries,
which is none if it does not occur, and no entry is left out. -/
structure Tallied (name : CostEntry → String) (es : List CostEntry)
    (us : List (String × Usage)) : Prop where
  distinct : (us.map (·.1)).Nodup
  occurs : ∀ k, k ∈ us.map (·.1) ↔ ∃ e ∈ es, name e = k
  own : ∀ k, (us.lookup k).getD {} = Usage.ofEntries (named name k es)
  tokens : (us.map (·.2.tokens)).sum = (es.map CostEntry.tokens).sum
  requests : (us.map (·.2.requests)).sum = es.length

theorem tallied_nil (name : CostEntry → String) : Tallied name [] [] where
  distinct := List.nodup_nil
  occurs k := by simp
  own k := rfl
  tokens := rfl
  requests := rfl

/-- **Counting an entry** under its name takes it into account. -/
theorem Tallied.count (h : Tallied name es us) (e : CostEntry) :
    Tallied name (es ++ [e]) (count (name e) e us) where
  distinct := Store.nodup_put h.distinct
  occurs k := by
    rw [CostBreakdown.count, Store.mem_map_fst_put, h.occurs]
    simp only [List.mem_append, List.mem_singleton, or_and_right, exists_or, exists_eq_left]
    rw [or_comm, eq_comm]
  own k := by
    rw [CostBreakdown.count, named_concat]
    split_ifs with hk
    · rw [← hk, Store.lookup_put_self, Option.getD_some, h.own, Usage.ofEntries_concat]
    · rw [Store.lookup_put_of_ne (Ne.symm hk), h.own]
  tokens := by
    rw [sum_count Usage.tokens rfl fun _ => rfl, h.tokens, List.map_append, List.sum_append,
      List.map_singleton, List.sum_singleton]
  requests := by
    rw [sum_count Usage.requests rfl fun _ => rfl, h.requests, List.length_append,
      List.length_singleton]

/-- A row of the table has the use of its own entries. -/
theorem Tallied.eq_of_mem (h : Tallied name es us) {u : Usage} (hu : (k, u) ∈ us) :
    u = Usage.ofEntries (named name k es) := by
  rw [← h.own, (Store.mem_iff_lookup h.distinct).1 hu, Option.getD_some]

/-! ## Breakdowns -/

theorem ofEntries_concat (es : List CostEntry) (e : CostEntry) :
    ofEntries (es ++ [e]) = (ofEntries es).add e := by
  rw [ofEntries, List.foldl_append]
  rfl

/-- **The tokens of a breakdown** are those of its entries. -/
theorem tokens_ofEntries (es : List CostEntry) :
    (ofEntries es).tokens = (es.map CostEntry.tokens).sum := by
  rw [ofEntries, measure_foldl tokens fun _ _ => rfl]
  exact zero_add _

/-- Both tables take every entry into account. -/
theorem tallied_ofEntries (es : List CostEntry) :
    Tallied CostEntry.provider es (ofEntries es).byProvider ∧
      Tallied CostEntry.model es (ofEntries es).byModel := by
  induction es using List.reverseRecOn with
  | nil => exact ⟨tallied_nil _, tallied_nil _⟩
  | append_singleton es e ih =>
    rw [ofEntries_concat]
    exact ⟨ih.1.count e, ih.2.count e⟩

/-- A table by name and a total of tokens agree with each other and with the
entries: the rows sum up to the total and to the number of entries, the
names of the rows are those that occur, each once, and a row has the tokens
and the number of the entries of its name. -/
structure AddsUp (name : CostEntry → String) (es : List CostEntry) (total : Int)
    (us : List (String × Usage)) : Prop where
  tokens : total = (us.map (·.2.tokens)).sum
  requests : (us.map (·.2.requests)).sum = es.length
  distinct : (us.map (·.1)).Nodup
  names : ∀ k, k ∈ us.map (·.1) ↔ ∃ e ∈ es, name e = k
  ownTokens : ∀ k u, (k, u) ∈ us → u.tokens = ((named name k es).map CostEntry.tokens).sum
  ownRequests : ∀ k u, (k, u) ∈ us → u.requests = (named name k es).length

theorem Tallied.addsUp (h : Tallied name es us) : AddsUp name es (ofEntries es).tokens us where
  tokens := by rw [tokens_ofEntries, h.tokens]
  requests := h.requests
  distinct := h.distinct
  names := h.occurs
  ownTokens k u hu := by rw [h.eq_of_mem hu, Usage.tokens_ofEntries]
  ownRequests k u hu := by rw [h.eq_of_mem hu, Usage.requests_ofEntries]

end CostBreakdown

/-- **The breakdown of costs adds up**, for every ledger and every span of
time: by provider and by model it accounts for the entries that the query
finds, and for the same total of tokens. -/
theorem CostLedger.breakdown_adds_up (l : CostLedger) (now : DateTime) (q : CostQuery) :
    CostBreakdown.AddsUp CostEntry.provider (l.entries now q) (l.breakdown now q).tokens
        (l.breakdown now q).byProvider ∧
      CostBreakdown.AddsUp CostEntry.model (l.entries now q) (l.breakdown now q).tokens
        (l.breakdown now q).byModel := by
  obtain ⟨hprovider, hmodel⟩ := CostBreakdown.tallied_ofEntries (l.entries now q)
  exact ⟨hprovider.addsUp, hmodel.addsUp⟩

end SecureReview
