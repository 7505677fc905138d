import Mathlib.Tactic.Linarith
import Mathlib.Tactic.Tauto
import SecureReview.Time.Date
/-!
# The order of the calendar

Times without an offset are ordered by their fields: by month, then by
day, then by the time of day. Months are told by one number, twelve for
each year, and each begins when the days of the one before are over
(`monthStart_succ`). So **a time of an earlier month is earlier**
(`ordinal_lt_of_month_lt`), and within a month the days and the clock
decide (`ordinal_le_iff_of_same_month`).
-/

namespace SecureReview.DateTime

variable {a b t : DateTime} {y m k l : ℕ}

/-- A time of the calendar that is given without an offset. -/
structure Plain (t : DateTime) : Prop where
  valid : t.isValid = true
  offset : t.offset = none

/-- The number of the month of a time. -/
def month12 (t : DateTime) : ℕ :=
  12 * t.year + t.month

/-- The microseconds since midnight. -/
def clock (t : DateTime) : ℕ :=
  (t.hour * 3600 + t.minute * 60 + t.second) * 1000000 + t.micro

theorem isValid_iff : t.isValid = true ↔
    (1 ≤ t.year ∧ t.year ≤ 9999) ∧ (1 ≤ t.month ∧ t.month ≤ 12) ∧
      (1 ≤ t.day ∧ t.day ≤ daysInMonth t.year t.month) ∧
      (t.hour < 24 ∧ t.minute < 60 ∧ t.second < 60 ∧ t.micro < 1000000) := by
  simp only [isValid, Bool.and_eq_true, decide_eq_true_eq]
  tauto

theorem Plain.clock_lt (h : t.Plain) : t.clock < 86400000000 := by
  obtain ⟨-, -, -, hhour, hminute, hsecond, hmicro⟩ := isValid_iff.1 h.valid
  unfold clock
  omega

/-! ## Days and months -/

theorem daysBeforeMonth_succ (y : ℕ) (hm : 1 ≤ m) :
    daysBeforeMonth y (m + 1) = daysBeforeMonth y m + daysInMonth y m := by
  obtain ⟨n, rfl⟩ : ∃ n, m = n + 1 := ⟨m - 1, by omega⟩
  simp only [daysBeforeMonth, Nat.add_sub_cancel, List.range_succ, List.map_append, List.map_cons,
    List.map_nil, Number.total_append, Number.total_cons, Number.total_nil, Nat.add_zero]

theorem daysBeforeMonth_december (y : ℕ) : daysBeforeMonth y 12 = 306 + daysInMonth y 2 := by
  have hdays : daysBeforeMonth y 12 = 31 + (daysInMonth y 2 +
      (31 + (30 + (31 + (30 + (31 + (31 + (30 + (31 + (30 + 0)))))))))) := rfl
  omega

theorem daysInMonth_february (y : ℕ) :
    daysInMonth y 2 = if y % 4 = 0 ∧ (y % 100 ≠ 0 ∨ y % 400 = 0) then 29 else 28 := by
  have hdays : daysInMonth y 2 = if isLeap y then 29 else 28 := rfl
  simp only [hdays, isLeap, Bool.and_eq_true, Bool.or_eq_true, beq_iff_eq, bne_iff_ne, ne_eq]

/-- A leap year has the day that the fourth, but not the hundredth, but
the four hundredth year adds. -/
theorem leapDays_succ (z : ℕ) :
    (z + 1) / 4 + z / 100 + (z + 1) / 400 + (if (z + 1) % 4 = 0 ∧ ((z + 1) % 100 ≠ 0 ∨ (z + 1) % 400 = 0)
      then 0 else 1) = z / 4 + (z + 1) / 100 + z / 400 + 1 := by
  have hfour : (z + 1) / 4 = z / 4 + if (z + 1) % 4 = 0 then 1 else 0 := by
    split_ifs <;> omega
  have hhundred : (z + 1) / 100 = z / 100 + if (z + 1) % 100 = 0 then 1 else 0 := by
    split_ifs <;> omega
  have hfourHundred : (z + 1) / 400 = z / 400 + if (z + 1) % 400 = 0 then 1 else 0 := by
    split_ifs <;> omega
  have hdivides : (z + 1) % 400 = 0 → (z + 1) % 100 = 0 := by omega
  have hdivides' : (z + 1) % 100 = 0 → (z + 1) % 4 = 0 := by omega
  rw [hfour, hhundred, hfourHundred]
  clear hfour hhundred hfourHundred
  by_cases h4 : (z + 1) % 4 = 0
  · by_cases h100 : (z + 1) % 100 = 0
    · by_cases h400 : (z + 1) % 400 = 0
      · simp only [h4, h100, h400, if_true, ne_eq, not_true_eq_false, or_true, and_true]
        omega
      · simp only [h4, h100, h400, if_true, if_false, ne_eq, not_true_eq_false, or_false, and_false]
        omega
    · have h400 : ¬ (z + 1) % 400 = 0 := mt hdivides h100
      simp only [h4, h100, h400, if_true, if_false, ne_eq, not_false_eq_true, true_or, and_true]
      omega
  · have h100 : ¬ (z + 1) % 100 = 0 := mt hdivides' h4
    have h400 : ¬ (z + 1) % 400 = 0 := mt hdivides h100
    simp only [h4, h100, h400, if_false, false_and]
    omega

/-- The year is over after the days of December. -/
theorem daysBeforeYear_succ (hy : 1 ≤ y) :
    daysBeforeYear (y + 1) = daysBeforeYear y + daysBeforeMonth y 12 + 31 := by
  obtain ⟨z, rfl⟩ : ∃ z, y = z + 1 := ⟨y - 1, by omega⟩
  have hleap := leapDays_succ z
  have hfew : z / 100 ≤ z := Nat.div_le_self z 100
  have hfew' : (z + 1) / 100 ≤ z + 1 := Nat.div_le_self (z + 1) 100
  rw [daysBeforeMonth_december, daysInMonth_february]
  simp only [daysBeforeYear, Nat.add_sub_cancel]
  generalize z / 4 = a, (z + 1) / 4 = a', z / 100 = b, (z + 1) / 100 = b', z / 400 = c,
    (z + 1) / 400 = c' at *
  split_ifs at * <;> omega

/-- The number of the first day of a month. -/
def monthStart (k : ℕ) : ℕ :=
  dayNumber ((k - 1) / 12) ((k - 1) % 12 + 1) 1

/-- The days of a month by its number. -/
def monthDays (k : ℕ) : ℕ :=
  daysInMonth ((k - 1) / 12) ((k - 1) % 12 + 1)

/-- **A month begins when the one before is over.** -/
theorem monthStart_succ (hk : 13 ≤ k) : monthStart (k + 1) = monthStart k + monthDays k := by
  unfold monthStart monthDays dayNumber
  by_cases hlast : k % 12 = 0
  · have hyear : (k + 1 - 1) / 12 = (k - 1) / 12 + 1 := by omega
    have hmonth : (k + 1 - 1) % 12 + 1 = 1 := by omega
    have hdecember : (k - 1) % 12 + 1 = 12 := by omega
    rw [hyear, hmonth, hdecember, daysBeforeYear_succ (by omega)]
    have hfirst : daysBeforeMonth ((k - 1) / 12 + 1) 1 = 0 := rfl
    have hdays : daysInMonth ((k - 1) / 12) 12 = 31 := rfl
    omega
  · have hyear : (k + 1 - 1) / 12 = (k - 1) / 12 := by omega
    have hmonth : (k + 1 - 1) % 12 + 1 = (k - 1) % 12 + 1 + 1 := by omega
    rw [hyear, hmonth, daysBeforeMonth_succ _ (by omega)]
    omega

theorem monthStart_add_le (hk : 13 ≤ k) (h : k < l) : monthStart k + monthDays k ≤ monthStart l := by
  induction l with
  | zero => omega
  | succ l ih =>
    have hstep := monthStart_succ (k := l) (by omega)
    obtain rfl | hlt : k = l ∨ k < l := by omega
    · omega
    · have := ih hlt
      omega

/-! ## Times -/

theorem ordinal_eq (h : t.offset = none) : t.ordinal =
    ((dayNumber t.year t.month t.day : ℤ) - 719163) * 86400000000 + t.clock := by
  simp only [ordinal, localSeconds, clock, h, Option.getD_none]
  push_cast
  omega

theorem Plain.month12_pred (h : t.Plain) :
    (t.month12 - 1) / 12 = t.year ∧ (t.month12 - 1) % 12 + 1 = t.month := by
  obtain ⟨-, hmonth, -⟩ := isValid_iff.1 h.valid
  unfold month12
  omega

theorem Plain.thirteen_le (h : t.Plain) : 13 ≤ t.month12 := by
  obtain ⟨hyear, hmonth, -⟩ := isValid_iff.1 h.valid
  unfold month12
  omega

/-- The number of the day of a time, from the first of its month. -/
theorem Plain.dayNumber_eq (h : t.Plain) :
    dayNumber t.year t.month t.day + 1 = monthStart t.month12 + t.day := by
  obtain ⟨hyear, hmonth⟩ := h.month12_pred
  rw [monthStart, hyear, hmonth]
  unfold dayNumber
  omega

theorem Plain.day_le (h : t.Plain) : 1 ≤ t.day ∧ t.day ≤ monthDays t.month12 := by
  obtain ⟨hyear, hmonth⟩ := h.month12_pred
  rw [monthDays, hyear, hmonth]
  exact (isValid_iff.1 h.valid).2.2.1

/-- **A time of an earlier month is earlier.** -/
theorem ordinal_lt_of_month_lt (ha : a.Plain) (hb : b.Plain) (h : a.month12 < b.month12) :
    a.ordinal < b.ordinal := by
  have hstart := monthStart_add_le ha.thirteen_le h
  have hday := ha.day_le
  have hday' := hb.day_le
  have := ha.dayNumber_eq
  have := hb.dayNumber_eq
  have := ha.clock_lt
  rw [ordinal_eq ha.offset, ordinal_eq hb.offset]
  omega

theorem month_le_of_ordinal_le (ha : a.Plain) (hb : b.Plain) (h : a.ordinal ≤ b.ordinal) :
    a.month12 ≤ b.month12 := by
  by_contra hlt
  have := ordinal_lt_of_month_lt hb ha (by omega)
  omega

/-- **Within a month** the day decides, and on one day the clock. -/
theorem ordinal_le_iff_of_same_month (ha : a.Plain) (hb : b.Plain) (h : a.month12 = b.month12) :
    a.ordinal ≤ b.ordinal ↔ a.day < b.day ∨ a.day = b.day ∧ a.clock ≤ b.clock := by
  have hnumber := ha.dayNumber_eq
  have hnumber' := hb.dayNumber_eq
  have := ha.clock_lt
  have := hb.clock_lt
  rw [h] at hnumber
  rw [ordinal_eq ha.offset, ordinal_eq hb.offset]
  omega

end SecureReview.DateTime
