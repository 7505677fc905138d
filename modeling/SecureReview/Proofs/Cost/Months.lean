import SecureReview.Proofs.Cost.Queries
import SecureReview.Proofs.Time.Days
/-!
# Costs by month

The costs of a month are those of the span from its first moment to its
last whole second (`monthSpan_eq`). Only the entries of that month are
looked at, so that **no entry is counted in another month**. But the
last second of a month is cut off where it begins: what is recorded in
the rest of it is counted in **no month at all** (`Uncounted`), and the
same holds of all that is recorded in the first or the last month of the
calendar. Everything else is counted in its own month
(`mem_summed_iff`).
-/

namespace SecureReview.CostLedger

open DateTime

variable {l : CostLedger} {s : Store} {rs : List Recording} {e : CostEntry}
variable {t now : DateTime} {y m : ℕ}

/-- A month of the calendar. -/
def IsMonth (y m : ℕ) : Prop :=
  (1 ≤ y ∧ y ≤ 9999) ∧ 1 ≤ m ∧ m ≤ 12

/-- The entries that are summed up for a month. There are none for a month
that cannot be asked for. -/
def summed (l : CostLedger) (now : DateTime) (y m : ℕ) : List CostEntry :=
  match monthSpan y m with
  | .ok q => l.entries now q
  | .error _ => []

/-! ## The span of a month -/

theorem firstOfMonth_eq (h : IsMonth y m) : firstOfMonth y m = .ok (opening y m) := by
  obtain ⟨⟨hy, hy'⟩, hm, hm'⟩ := h
  have hyear : ¬ ((decide ((y : ℤ) < 1) || decide (9999 < (y : ℤ))) = true) := by
    simp only [Bool.or_eq_true, decide_eq_true_eq]
    omega
  have hmonth : ¬ ((decide ((m : ℤ) < 1) || decide (12 < (m : ℤ))) = true) := by
    simp only [Bool.or_eq_true, decide_eq_true_eq]
    omega
  rw [firstOfMonth, if_neg hyear, if_neg hmonth]
  rfl

theorem exists_firstOfMonth_error (h : ¬ IsMonth y m) : ∃ e, firstOfMonth y m = .error e := by
  unfold firstOfMonth
  split_ifs with hyear hmonth
  · exact ⟨_, rfl⟩
  · exact ⟨_, rfl⟩
  · -- a year and a month that are let through make a month
    simp only [Bool.or_eq_true, decide_eq_true_eq, not_or] at hyear hmonth
    exact absurd ⟨⟨by omega, by omega⟩, by omega, by omega⟩ h

/-- **The span of a month** ends with its last whole second. -/
theorem monthSpan_eq (h : IsMonth y m) (hlast : 12 * y + m ≠ 120000) :
    monthSpan y m = .ok { start := some (opening y m), stop := some (closing y m) } := by
  obtain ⟨hy, hm⟩ := h
  by_cases hdecember : m = 12
  · have hnext : firstOfMonth ((y : ℤ) + 1) 1 = .ok (opening (y + 1) 1) := by
      exact_mod_cast firstOfMonth_eq (y := y + 1) (m := 1) ⟨⟨by omega, by omega⟩, by omega, by omega⟩
    have hclose := addSeconds_neg_one hy hm (z := y + 1) (k := 1) ⟨by omega, by omega⟩ (by omega)
    have htwelve : ((m : ℤ) == 12) = true := by
      rw [beq_iff_eq]
      omega
    simp only [monthSpan, firstOfMonth_eq ⟨hy, hm⟩, bind, Except.bind, if_pos htwelve, hnext, hclose]
    rfl
  · have hnext : firstOfMonth y ((m : ℤ) + 1) = .ok (opening y (m + 1)) := by
      exact_mod_cast firstOfMonth_eq (y := y) (m := m + 1) ⟨hy, by omega, by omega⟩
    have hclose := addSeconds_neg_one hy hm (z := y) (k := m + 1) ⟨by omega, by omega⟩ (by omega)
    have htwelve : ¬ ((m : ℤ) == 12) = true := by
      rw [beq_iff_eq]
      omega
    simp only [monthSpan, firstOfMonth_eq ⟨hy, hm⟩, bind, Except.bind, if_neg htwelve, hnext, hclose]
    rfl

/-- The last month of the calendar has no next one to end before. -/
theorem monthSpan_last : monthSpan 9999 12 = .error (.badValue "year 10000 is out of range") := by
  rfl

theorem summed_eq (h : IsMonth y m) (hlast : 12 * y + m ≠ 120000) (l : CostLedger)
    (now : DateTime) :
    summed l now y m = l.entries now ⟨some (opening y m), some (closing y m), .null⟩ := by
  rw [summed, monthSpan_eq h hlast]

theorem summed_of_not_month (h : ¬ IsMonth y m) (l : CostLedger) (now : DateTime) :
    summed l now y m = [] := by
  obtain ⟨e, he⟩ := exists_firstOfMonth_error h
  rw [summed, monthSpan, he]
  rfl

theorem summed_last (hlast : 12 * y + m = 120000) (l : CostLedger) (now : DateTime) :
    summed l now y m = [] := by
  by_cases hmonth : IsMonth y m
  · obtain ⟨hy, hm⟩ := hmonth
    obtain rfl : y = 9999 := by omega
    obtain rfl : m = 12 := by omega
    have hspan : monthSpan (9999 : ℕ) (12 : ℕ) = .error (.badValue "year 10000 is out of range") :=
      monthSpan_last
    rw [summed, hspan]
  · exact summed_of_not_month hmonth l now

theorem datePart_eq {n : ℕ} (hpos : 1 ≤ n) (hsmall : n ≤ 9999) (current : ℕ) :
    datePart (.int n) current = .ok n := by
  have htruthy : (Json.int n).truthy = true := by
    change ((n : ℤ) != 0) = true
    rw [bne_iff_ne]
    omega
  have hbound : ((n : ℤ).natAbs < Number.twoTo 31) := by
    rw [Int.natAbs_natCast]
    exact hsmall.trans_lt (by decide)
  rw [datePart, htruthy]
  simp only [Bool.not_true, Bool.false_eq_true, if_false, if_pos hbound]

/-- **The cost of a month** is the sum of its entries. -/
theorem monthly_eq (h : IsMonth y m) (hlast : 12 * y + m ≠ 120000) (l : CostLedger)
    (now : DateTime) : l.monthly now (.int y) (.int m) = .ok (sum (summed l now y m)) := by
  obtain ⟨hy, hm⟩ := h
  rw [monthly, datePart_eq hy.1 hy.2, datePart_eq hm.1 (by omega), summed_eq ⟨hy, hm⟩ hlast]
  simp only [bind, Except.bind, monthSpan_eq ⟨hy, hm⟩ hlast]
  rfl

/-! ## What is counted -/

/-- **No month has the time.** The span of its month ends with the last
whole second, and its own number of seconds is larger; or its month is
the first or the last of the calendar. -/
def Uncounted (t : DateTime) : Prop :=
  t.month12 = 13 ∨ t.month12 = 120000 ∨ (closing t.year t.month).score < t.score

/-- The time is in the last second of its month, after it began. -/
def InLastSecond (t : DateTime) : Prop :=
  t.day = daysInMonth t.year t.month ∧ t.hour = 23 ∧ t.minute = 59 ∧ t.second = 59 ∧ 0 < t.micro

theorem isMonth_of_plain (h : t.Plain) : IsMonth t.year t.month := by
  obtain ⟨hyear, hmonth, -⟩ := isValid_iff.1 h.valid
  exact ⟨hyear, hmonth⟩

theorem month12_eq_iff (h : t.Plain) (hmonth : IsMonth y m) :
    t.month12 = 12 * y + m ↔ t.year = y ∧ t.month = m := by
  obtain ⟨-, htime, -⟩ := isValid_iff.1 h.valid
  obtain ⟨-, hm⟩ := hmonth
  unfold month12
  omega

theorem opening_le (h : t.Plain) : (opening t.year t.month).ordinal ≤ t.ordinal := by
  obtain ⟨hyear, hmonth⟩ := isMonth_of_plain h
  rw [ordinal_le_iff_of_same_month (plain_opening hyear hmonth) h rfl]
  have hday := h.day_le
  have hclock := clock_opening t.year t.month
  have hfirst : (opening t.year t.month).day = 1 := rfl
  omega

/-- **What comes after the last whole second of a month** is in the rest of
that second. -/
theorem closing_lt_iff (h : t.Plain) :
    (closing t.year t.month).ordinal < t.ordinal ↔ InLastSecond t := by
  obtain ⟨hyear, hmonth⟩ := isMonth_of_plain h
  obtain ⟨-, -, ⟨-, hday⟩, hhour, hminute, hsecond, hmicro⟩ := isValid_iff.1 h.valid
  have hle := ordinal_le_iff_of_same_month h (plain_closing hyear hmonth) rfl
  have hlast : (closing t.year t.month).day = daysInMonth t.year t.month := rfl
  rw [← not_le, hle, hlast, clock_closing]
  unfold clock InLastSecond
  omega

/-- After the first month of the calendar every time can be told. -/
theorem told_of_month (h : t.Plain) (hmonth : t.month12 ≠ 13) : firstTold ≤ t.localSeconds := by
  have htold : firstTold = -62135510400 := by decide
  have hbegin : monthStart 13 = 1 := by decide
  have hdays : monthDays 13 = 31 := by decide
  have hstart : 32 ≤ monthStart t.month12 := by
    have hlt := Nat.lt_of_le_of_ne h.thirteen_le hmonth.symm
    have := monthStart_add_le le_rfl hlt
    omega
  have hnumber := h.dayNumber_eq
  have hday := h.day_le
  unfold localSeconds
  omega

/-- The times near to 1970 are not in the first or the last month. -/
theorem month12_of_near (h : t.Plain) (hnear : t.Near) : t.month12 ≠ 13 ∧ t.month12 ≠ 120000 := by
  have hbegin : monthStart 13 = 1 := by decide
  have hdays : monthDays 13 = 31 := by decide
  have hend : monthStart 120000 = 3652029 := by decide
  have hnumber := h.dayNumber_eq
  have hday := h.day_le
  have hclock := h.clock_lt
  unfold Near at hnear
  rw [ordinal_eq h.offset] at hnear
  constructor
  · intro hmonth
    rw [hmonth] at hnumber hday
    omega
  · intro hmonth
    rw [hmonth] at hnumber
    omega

/-- **What near to 1970 is not counted**: the times in the last second of a
month. -/
theorem uncounted_iff_of_near (h : t.Plain) (hnear : t.Near) : Uncounted t ↔ InLastSecond t := by
  obtain ⟨hfirst, hlast⟩ := month12_of_near h hnear
  obtain ⟨hyear, hmonth⟩ := isMonth_of_plain h
  have hplain := plain_closing hyear hmonth
  have htold := told_of_month h hfirst
  have htold' := told_of_month hplain hfirst
  have hscore := score_le_iff h hplain htold htold' (Or.inl hnear)
  rw [← closing_lt_iff h, ← not_le, ← hscore, not_le]
  unfold Uncounted
  tauto

/-- A month whose costs can be asked for. The number of seconds of its start
can be told, and there is a month after it. -/
def IsInner (y m : ℕ) : Prop :=
  IsMonth y m ∧ 12 * y + m ≠ 13 ∧ 12 * y + m ≠ 120000

theorem opening_le_closing (h : IsMonth y m) : (opening y m).ordinal ≤ (closing y m).ordinal := by
  obtain ⟨hy, hm⟩ := h
  rw [ordinal_le_iff_of_same_month (plain_opening hy hm) (plain_closing hy hm) rfl]
  exact Or.inl (one_lt_daysInMonth y m)

/-- The span of a month has this month only. -/
theorem monthsEnd_eq (y m : ℕ) : monthsEnd (opening y m) (closing y m) = 12 * y + m + 1 := by
  rw [monthsEnd, clock_opening, if_neg fun h => absurd h.2 (Nat.not_lt_zero _)]
  rfl

theorem summed_of_not_inner (hl : l.store = some s) (h : ¬ IsInner y m) (now : DateTime) :
    summed l now y m = [] := by
  by_cases hmonth : IsMonth y m
  · by_cases hlast : 12 * y + m = 120000
    · exact summed_last hlast l now
    · have hfirst : 12 * y + m = 13 := by
        by_contra hfirst
        exact h ⟨hmonth, hfirst, hlast⟩
      obtain ⟨hy, hm⟩ := hmonth
      have huntold : (opening y m).localSeconds < firstTold := by
        obtain rfl : y = 1 := by omega
        obtain rfl : m = 1 := by omega
        decide
      have hend := monthsEnd_eq y m
      rw [summed_eq ⟨hy, hm⟩ hlast]
      exact entries_of_early hl (plain_opening hy hm) (plain_closing hy hm) huntold
        (opening_le_closing ⟨hy, hm⟩) (by omega) now .null
  · exact summed_of_not_month hmonth l now

/-- **The entries of a month** up to its last whole second. -/
theorem mem_summed_of_inner (hl : l.store = some s) (h : Keeps s rs) (hinner : IsInner y m)
    (now : DateTime) :
    (summed l now y m).Nodup ∧ ∀ e, e ∈ summed l now y m ↔
      Kept rs e ∧ (e.timestamp.year = y ∧ e.timestamp.month = m) ∧
        e.timestamp.score ≤ (closing y m).score := by
  obtain ⟨⟨hy, hm⟩, hfirst, hlast⟩ := hinner
  have hopen := plain_opening hy hm
  have htold := told_of_month hopen hfirst
  have hend := monthsEnd_eq y m
  obtain ⟨hnodup, hmem⟩ := entries_spec_of_end hl h hopen (plain_closing hy hm) htold
    (opening_le_closing ⟨hy, hm⟩) (by omega) now .null
  rw [summed_eq ⟨hy, hm⟩ hlast]
  refine ⟨hnodup, fun e => ?_⟩
  rw [hmem, hend]
  constructor
  · rintro ⟨⟨hkept, -⟩, ⟨-, hscore⟩, hlow, hhigh⟩
    have hmonth : e.timestamp.month12 = 12 * y + m := Nat.le_antisymm (by omega) hlow
    exact ⟨hkept, (month12_eq_iff hkept.plain ⟨hy, hm⟩).1 hmonth, hscore⟩
  · rintro ⟨hkept, ⟨rfl, rfl⟩, hscore⟩
    -- no entry of the month is before its first moment
    have hafter := score_mono hopen hkept.plain htold (opening_le hkept.plain)
    exact ⟨⟨hkept, rfl⟩, ⟨hafter, hscore⟩, le_rfl, Nat.lt_succ_self _⟩

/-- **An entry is counted in its month**, or in none. -/
theorem mem_summed_iff (hl : l.store = some s) (h : Keeps s rs) (now : DateTime) (y m : ℕ) :
    (summed l now y m).Nodup ∧ ∀ e, e ∈ summed l now y m ↔
      Kept rs e ∧ (e.timestamp.year = y ∧ e.timestamp.month = m) ∧ ¬ Uncounted e.timestamp := by
  by_cases hinner : IsInner y m
  · obtain ⟨hnodup, hmem⟩ := mem_summed_of_inner hl h hinner now
    refine ⟨hnodup, fun e => ?_⟩
    rw [hmem]
    constructor
    · rintro ⟨hkept, ⟨rfl, rfl⟩, hscore⟩
      refine ⟨hkept, ⟨rfl, rfl⟩, ?_⟩
      rintro (hfirst | hlast | hlate)
      · exact hinner.2.1 hfirst
      · exact hinner.2.2 hlast
      · exact absurd hscore (not_le.2 hlate)
    · rintro ⟨hkept, ⟨rfl, rfl⟩, hcounted⟩
      refine ⟨hkept, ⟨rfl, rfl⟩, ?_⟩
      by_contra hlate
      exact hcounted (Or.inr (Or.inr (not_le.1 hlate)))
  · rw [summed_of_not_inner hl hinner]
    refine ⟨List.nodup_nil, fun e => ⟨fun he => absurd he List.not_mem_nil, ?_⟩⟩
    rintro ⟨hkept, ⟨rfl, rfl⟩, hcounted⟩
    refine absurd ⟨isMonth_of_plain hkept.plain, ?_, ?_⟩ hinner
    · exact fun hfirst => hcounted (Or.inl hfirst)
    · exact fun hlast => hcounted (Or.inr (Or.inl hlast))

/-- The end of January: its last second, and so many microseconds. -/
def januaryEnds (micro : ℕ) : DateTime :=
  { year := 2024, month := 1, day := 31, hour := 23, minute := 59, second := 59, micro }

end SecureReview.CostLedger
