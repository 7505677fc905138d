import Mathlib.Algebra.Order.Field.Rat
import Mathlib.Data.List.Induction
import Mathlib.Data.Rat.Cast.Order
import Mathlib.Tactic.Linarith
import Mathlib.Tactic.Ring
import SecureReview.Limit.Bucket
/-!
# How much a bucket grants

A run of requests on one bucket, with exact quotients. Before it is asked,
a bucket has filled up to its `level`, and a request is granted if that is
a token at least (`acquire_eq`). The level is told by the requests granted
so far (`le_level_afterAll_iff`): it is **the least that any window of time
ending now has left over** of what the rate allows in it. So a bucket grants
no more than the rate allows in any window, and **refuses only what would
be more** (`window_bound`).
-/

namespace SecureReview.Bucket

/-- A request in a run: when it was made, its answer, and the bucket it left. -/
structure Request (α : Type) where
  time : α
  answer : Except Failure Bool
  after : Bucket α

namespace Request

variable {α : Type}

/-- The request got its token. -/
def isGranted (q : Request α) : Bool :=
  match q.answer with
  | .ok granted => granted
  | .error _ => false

theorem isGranted_iff {q : Request α} : q.isGranted = true ↔ q.answer = .ok true := by
  rcases q with ⟨_, _ | _, _⟩ <;> simp [isGranted]

end Request

section Runs

variable {α : Type} [Quantity α] {b : Bucket α} {t : α} {ts us : List α}

/-- The bucket after requests at some times. -/
def afterAll (b : Bucket α) (ts : List α) : Bucket α :=
  ts.foldl (fun b t => (b.acquire t).2) b

/-- The requests at some times, one after the other. -/
def requests (b : Bucket α) : List α → List (Request α)
  | [] => []
  | t :: ts => ⟨t, (b.acquire t).1, (b.acquire t).2⟩ :: requests (b.acquire t).2 ts

theorem afterAll_append : b.afterAll (ts ++ us) = (b.afterAll ts).afterAll us :=
  List.foldl_append

theorem afterAll_concat : b.afterAll (ts ++ [t]) = ((b.afterAll ts).acquire t).2 :=
  afterAll_append

theorem requests_append : b.requests (ts ++ us) = b.requests ts ++ (b.afterAll ts).requests us := by
  induction ts generalizing b with
  | nil => rfl
  | cons t ts ih =>
    rw [List.cons_append, requests, ih]
    rfl

/-- The requests have the times of the run. -/
theorem time_mem_of_mem_requests {q : Request α} (h : q ∈ b.requests ts) : q.time ∈ ts := by
  induction ts generalizing b with
  | nil => cases h
  | cons t ts ih =>
    obtain rfl | h := List.mem_cons.1 h
    · exact List.mem_cons_self
    · exact List.mem_cons_of_mem t (ih h)

end Runs

variable {b : Bucket Rat} {rate per made s t : Rat} {ts : List Rat}

/-! ## One request -/

/-- The tokens of a bucket at some time, before one is taken. -/
def level (b : Bucket Rat) (t : Rat) : Rat :=
  min b.rate (b.allowance + (t - b.lastCheck) * (b.rate / b.per))

/-- **All that a request does.** It is granted if there is a token, and takes it. -/
theorem acquire_eq (hper : b.per ≠ 0) (t : Rat) : b.acquire t =
    (.ok (decide (1 ≤ b.level t)),
      { b with lastCheck := t, allowance := b.level t - if 1 ≤ b.level t then 1 else 0 }) := by
  have hrefill : ({ b with lastCheck := t } : Bucket Rat).refilled (t - b.lastCheck) =
      .ok (b.level t) := by
    simp only [refilled, Quantity.div, if_neg hper, Quantity.mul, Quantity.add, Quantity.lt, level,
      decide_eq_true_eq, bind, Except.bind, pure, Except.pure]
    by_cases hfull : b.rate < b.allowance + (t - b.lastCheck) * (b.rate / b.per)
    · rw [if_pos hfull, min_eq_left hfull.le]
    · rw [if_neg hfull, min_eq_right (not_lt.1 hfull)]
  by_cases h : 1 ≤ b.level t
  · have hlt : ¬ b.level t < 1 := not_lt.2 h
    simp [acquire, hrefill, take, Quantity.sub, Quantity.lt, Quantity.one, h, hlt, bind, Except.bind,
      pure, Except.pure]
  · have hlt : b.level t < 1 := not_le.1 h
    simp [acquire, hrefill, take, Quantity.sub, Quantity.lt, Quantity.one, h, hlt, pure, Except.pure]

/-- What holds of a bucket along a run: its rate and period make sense, and it has no
debts and no more tokens than its rate. -/
structure Sound (b : Bucket Rat) : Prop where
  rate_nonneg : 0 ≤ b.rate
  per_pos : 0 < b.per
  allowance_nonneg : 0 ≤ b.allowance
  allowance_le : b.allowance ≤ b.rate

theorem sound_create (hrate : 0 ≤ rate) (hper : 0 < per) : (create rate per made).Sound :=
  ⟨hrate, hper, hrate, le_refl rate⟩

theorem Sound.fill_nonneg (h : b.Sound) : 0 ≤ b.rate / b.per :=
  div_nonneg h.rate_nonneg h.per_pos.le

theorem Sound.level_nonneg (h : b.Sound) (ht : b.lastCheck ≤ t) : 0 ≤ b.level t :=
  le_min h.rate_nonneg
    (add_nonneg h.allowance_nonneg (mul_nonneg (sub_nonneg.2 ht) h.fill_nonneg))

/-- **A request keeps a bucket sound**, if the clock does not go back. -/
theorem Sound.acquire (h : b.Sound) (ht : b.lastCheck ≤ t) : (b.acquire t).2.Sound := by
  have hlevel := h.level_nonneg ht
  have hle : b.level t ≤ b.rate := min_le_left _ _
  rw [acquire_eq h.per_pos.ne']
  refine ⟨h.rate_nonneg, h.per_pos, ?_, ?_⟩
  · change 0 ≤ b.level t - _
    split <;> linarith
  · change b.level t - _ ≤ b.rate
    split <;> linarith

theorem lastCheck_acquire (h : b.Sound) : (b.acquire t).2.lastCheck = t := by
  rw [acquire_eq h.per_pos.ne']

/-- Along a run in which the clock does not go back every request is answered,
and leaves a sound bucket. -/
theorem Sound.requests (h : b.Sound) (hts : (b.lastCheck :: ts).Pairwise (· ≤ ·)) :
    ∀ q ∈ b.requests ts, (∃ granted, q.answer = .ok granted) ∧ q.after.Sound ∧
      q.after.rate = b.rate := by
  induction ts generalizing b with
  | nil => exact fun q hq => absurd hq List.not_mem_nil
  | cons t ts ih =>
    obtain ⟨hle, hts⟩ := List.pairwise_cons.1 hts
    have hafter : (b.acquire t).2.Sound := h.acquire (hle t List.mem_cons_self)
    have hrate : (b.acquire t).2.rate = b.rate := by rw [acquire_eq h.per_pos.ne']
    intro q hq
    obtain rfl | hq := List.mem_cons.1 hq
    · exact ⟨⟨_, by rw [acquire_eq h.per_pos.ne']⟩, hafter, hrate⟩
    · rw [← hrate]
      exact ih hafter (by rwa [lastCheck_acquire h]) q hq

/-! ## Windows of time -/

/-- How many of some requests got a token, from a time on. -/
def grantedSince (s : Rat) (qs : List (Request Rat)) : Nat :=
  qs.countP fun q => q.isGranted && decide (s ≤ q.time)

/-- How many of some requests got a token in a window of time. -/
def grantedWithin (s t : Rat) (qs : List (Request Rat)) : Nat :=
  qs.countP fun q => q.isGranted && decide (s ≤ q.time ∧ q.time ≤ t)

theorem grantedWithin_le_grantedSince (qs : List (Request Rat)) :
    grantedWithin s t qs ≤ grantedSince s qs := by
  refine List.countP_mono_left fun q _ hq => ?_
  rw [Bool.and_eq_true, decide_eq_true_eq] at hq ⊢
  exact ⟨hq.1, hq.2.1⟩

/-- A window that ends after the last request is open. -/
theorem grantedWithin_eq_grantedSince {qs : List (Request Rat)} (h : ∀ q ∈ qs, q.time ≤ t) :
    grantedWithin s t qs = grantedSince s qs :=
  List.countP_congr fun q hq => by simp [h q hq]

theorem grantedSince_eq_zero {qs : List (Request Rat)} (h : ∀ q ∈ qs, q.time < s) :
    grantedSince s qs = 0 := by
  refine List.countP_eq_zero.2 fun q hq hcount => ?_
  rw [Bool.and_eq_true, decide_eq_true_eq] at hcount
  exact absurd hcount.2 (not_le.2 (h q hq))

theorem isGranted_acquire (hper : b.per ≠ 0) :
    (⟨t, (b.acquire t).1, (b.acquire t).2⟩ : Request Rat).isGranted = decide (1 ≤ b.level t) := by
  rw [acquire_eq hper, Request.isGranted]

/-- A further request counts if there is a token for it. -/
theorem grantedSince_concat (hper : (b.afterAll ts).per ≠ 0) :
    grantedSince s (b.requests (ts ++ [t])) = grantedSince s (b.requests ts) +
      if s ≤ t ∧ 1 ≤ (b.afterAll ts).level t then 1 else 0 := by
  rw [requests_append, grantedSince, grantedSince, List.countP_append]
  congr 1
  rw [requests, requests, List.countP_singleton, isGranted_acquire hper]
  simp only [Bool.and_eq_true, decide_eq_true_eq, and_comm]

/-! ## The level of a bucket -/

/-- Requests do not change what a bucket was made for. -/
theorem rate_per_afterAll_create (rate made : Rat) (hper : 0 < per) (ts : List Rat) :
    ((create rate per made).afterAll ts).rate = rate ∧
      ((create rate per made).afterAll ts).per = per := by
  induction ts using List.reverseRecOn with
  | nil => exact ⟨rfl, rfl⟩
  | append_singleton ts t ih =>
    rw [afterAll_concat, acquire_eq (by rw [ih.2]; exact hper.ne')]
    exact ih

theorem level_acquire (hper : b.per ≠ 0) {u : Rat} : (b.acquire u).2.level t =
    min b.rate (b.level u - (if 1 ≤ b.level u then 1 else 0) + (t - u) * (b.rate / b.per)) := by
  rw [acquire_eq hper, level]

theorem times_le_of_concat {u : Rat} (hts : (made :: (ts ++ [u])).Pairwise (· ≤ ·)) :
    (made :: ts).Pairwise (· ≤ ·) ∧ ∀ v ∈ made :: ts, v ≤ u := by
  rw [← List.cons_append, List.pairwise_append] at hts
  exact ⟨hts.1, fun v hv => hts.2.2 v hv u List.mem_cons_self⟩

/-- **What a bucket has is what every window has left over.** A number of
tokens is there at some time exactly if, in each window that ends then,
the tokens granted and these are together no more than the rate allows. -/
theorem le_level_afterAll_iff (hrate : 0 ≤ rate) (hper : 0 < per)
    (hts : (made :: ts).Pairwise (· ≤ ·)) (ht : ∀ u ∈ made :: ts, u ≤ t) (x : Rat) :
    x ≤ ((create rate per made).afterAll ts).level t ↔
      ∀ s ≤ t, (grantedSince s ((create rate per made).requests ts) : Rat) + x ≤
        rate + (t - s) * (rate / per) := by
  have hfill : 0 ≤ rate / per := div_nonneg hrate hper.le
  induction ts using List.reverseRecOn generalizing t x with
  | nil =>
    -- a full bucket, and nothing granted: the window of no length decides
    have hfull : (create rate per made).level t = rate :=
      min_eq_left (le_add_of_nonneg_right
        (mul_nonneg (sub_nonneg.2 (ht made List.mem_cons_self)) hfill))
    change x ≤ (create rate per made).level t ↔ ∀ s ≤ t, ((0 : Nat) : Rat) + x ≤ _
    rw [hfull]
    constructor
    · intro hx s hs
      have := mul_nonneg (sub_nonneg.2 hs) hfill
      push_cast
      linarith
    · intro h
      have := h t le_rfl
      push_cast at this
      linarith
  | append_singleton ts u ih =>
    obtain ⟨hts, hbefore⟩ := times_le_of_concat hts
    have hut : u ≤ t := ht u (by simp)
    obtain ⟨hr, hp⟩ := rate_per_afterAll_create rate made hper ts
    have hper' : ((create rate per made).afterAll ts).per ≠ 0 := by
      rw [hp]
      exact hper.ne'
    -- what the request at `u` takes, in the bucket and in the count
    obtain ⟨g, hg⟩ : ∃ g : Rat,
        g = if 1 ≤ ((create rate per made).afterAll ts).level u then 1 else 0 := ⟨_, rfl⟩
    have hcount : ∀ s ≤ u, (grantedSince s ((create rate per made).requests (ts ++ [u])) : Rat) =
        grantedSince s ((create rate per made).requests ts) + g := by
      intro s hs
      rw [grantedSince_concat hper', hg]
      simp [hs]
    have hsplit : ∀ s, (t - s) * (rate / per) =
        (t - u) * (rate / per) + (u - s) * (rate / per) := fun s => by ring
    have ih := ih hts hbefore (x + g - (t - u) * (rate / per))
    rw [afterAll_concat, level_acquire hper', hr, hp, ← hg, le_min_iff]
    constructor
    · rintro ⟨hx, hlevel⟩ s hs
      by_cases hsu : s ≤ u
      · have := ih.1 (by linarith) s hsu
        rw [hcount s hsu, hsplit]
        linarith
      · -- nothing was asked since
        have hnone : grantedSince s ((create rate per made).requests (ts ++ [u])) = 0 := by
          refine grantedSince_eq_zero fun q hq => lt_of_le_of_lt ?_ (not_le.1 hsu)
          obtain hq | hq := List.mem_append.1 (time_mem_of_mem_requests hq)
          · exact hbefore q.time (List.mem_cons_of_mem made hq)
          · exact (List.mem_singleton.1 hq).le
        have := mul_nonneg (sub_nonneg.2 hs) hfill
        rw [hnone, Nat.cast_zero]
        linarith
    · intro h
      have hnow := h t le_rfl
      have hcast : (0 : Rat) ≤ grantedSince t ((create rate per made).requests (ts ++ [u])) :=
        Nat.cast_nonneg _
      refine ⟨by linarith, ?_⟩
      have := ih.2 fun s hs => by
        have := h s (hs.trans hut)
        rw [hcount s hs, hsplit] at this
        linarith
      linarith

/-! ## The bound -/

/-- **When a request is granted**: if no window that ends with it would
then have more than the rate allows. -/
theorem acquire_eq_granted_iff (hrate : 0 ≤ rate) (hper : 0 < per)
    (hts : (made :: (ts ++ [t])).Pairwise (· ≤ ·)) :
    (((create rate per made).afterAll ts).acquire t).1 = .ok true ↔
      ∀ s ≤ t, (grantedWithin s t ((create rate per made).requests ts) : Rat) + 1 ≤
        rate + (t - s) * rate / per := by
  obtain ⟨hts, ht⟩ := times_le_of_concat hts
  have hper' : ((create rate per made).afterAll ts).per ≠ 0 := by
    rw [(rate_per_afterAll_create rate made hper ts).2]
    exact hper.ne'
  have hwindow : ∀ s, grantedWithin s t ((create rate per made).requests ts) =
      grantedSince s ((create rate per made).requests ts) := fun s =>
    grantedWithin_eq_grantedSince fun q hq =>
      ht q.time (List.mem_cons_of_mem made (time_mem_of_mem_requests hq))
  simp only [acquire_eq hper', Except.ok.injEq, decide_eq_true_eq, hwindow, mul_div_assoc]
  exact le_level_afterAll_iff hrate hper hts ht 1

/-- **No window has more than the rate allows.** -/
theorem grantedWithin_le (hrate : 0 ≤ rate) (hper : 0 < per)
    (hts : (made :: ts).Pairwise (· ≤ ·)) (hst : s ≤ t) :
    (grantedWithin s t ((create rate per made).requests ts) : Rat) ≤ rate + (t - s) * rate / per := by
  have hfill : 0 ≤ rate / per := div_nonneg hrate hper.le
  induction ts using List.reverseRecOn with
  | nil =>
    have := mul_nonneg (sub_nonneg.2 hst) hfill
    rw [mul_div_assoc]
    change ((0 : Nat) : Rat) ≤ _
    push_cast
    linarith
  | append_singleton ts u ih =>
    obtain ⟨hbefore, hle⟩ := times_le_of_concat hts
    have ih := ih hbefore
    rw [requests_append, grantedWithin, List.countP_append, requests, requests,
      List.countP_singleton, ← grantedWithin]
    split
    · next hlast =>
      -- the last request counts: it was granted within the bound of its own window
      rw [Bool.and_eq_true, decide_eq_true_eq, Request.isGranted_iff] at hlast
      obtain ⟨hgranted, hsu, hut⟩ := hlast
      have hown := (acquire_eq_granted_iff hrate hper hts).1 hgranted s hsu
      have hsame : grantedWithin s t ((create rate per made).requests ts) ≤
          grantedWithin s u ((create rate per made).requests ts) := by
        rw [grantedWithin_eq_grantedSince fun q hq =>
          hle q.time (List.mem_cons_of_mem made (time_mem_of_mem_requests hq))]
        exact grantedWithin_le_grantedSince _
      have hsame : (grantedWithin s t ((create rate per made).requests ts) : Rat) ≤
          grantedWithin s u ((create rate per made).requests ts) := by exact_mod_cast hsame
      have hlater := mul_nonneg (sub_nonneg.2 hut) hfill
      rw [mul_div_assoc] at hown ⊢
      push_cast
      linarith
    · exact ih

/-- **A bucket grants what its rate allows.** Along a run in which the clock
does not go back, every request is answered and leaves no debts and no more
tokens than the rate; in a window of time there are no more grants than the
rate and what comes in during the window; and a request is refused only if
granting it would be too much for some window that ends with it. -/
theorem window_bound (rate per made : Rat) (hrate : 0 ≤ rate) (hper : 0 < per) (times : List Rat)
    (htimes : (made :: times).Pairwise (· ≤ ·)) :
    (∀ q ∈ (create rate per made).requests times, (∃ granted, q.answer = .ok granted) ∧
      0 ≤ q.after.allowance ∧ q.after.allowance ≤ rate) ∧
    (∀ s t, s ≤ t → (grantedWithin s t ((create rate per made).requests times) : Rat) ≤
      rate + (t - s) * rate / per) ∧
    ∀ done t rest, times = done ++ t :: rest →
      ((((create rate per made).afterAll done).acquire t).1 = .ok true ↔
        ∀ s ≤ t, (grantedWithin s t ((create rate per made).requests done) : Rat) + 1 ≤
          rate + (t - s) * rate / per) := by
  refine ⟨fun q hq => ?_, fun s t => grantedWithin_le hrate hper htimes, fun done t rest heq => ?_⟩
  · obtain ⟨hanswer, hsound, hsame⟩ := (sound_create hrate hper).requests htimes q hq
    exact ⟨hanswer, hsound.allowance_nonneg, hsound.allowance_le.trans hsame.le⟩
  · refine acquire_eq_granted_iff hrate hper ?_
    have hprefix : (made :: (done ++ [t])).Sublist (made :: times) := by
      rw [heq]
      simp
    exact htimes.sublist hprefix

/-- Two requests a minute: a third one is refused, and after half a minute
the next is granted. The window that begins with the first has what it may. -/
theorem window_bound_two_a_minute :
    ([1000, 1000, 1000, 1000, 1030] : List Rat).Pairwise (· ≤ ·) ∧
    ((create (2 : Rat) 60 1000).requests [1000, 1000, 1000, 1030]).map Request.isGranted =
      [true, true, false, true] ∧
    (grantedWithin 1000 1030 ((create 2 60 1000).requests [1000, 1000, 1000, 1030]) : Rat) ≤
      2 + (1030 - 1000) * 2 / 60 :=
  have htimes : ([1000, 1000, 1000, 1000, 1030] : List Rat).Pairwise (· ≤ ·) := by decide
  ⟨htimes, by decide +kernel,
    (window_bound 2 60 1000 (by decide) (by decide) _ htimes).2.1 1000 1030 (by decide)⟩

end SecureReview.Bucket
