import SecureReview.Proofs.Time.Calendar
/-!
# Days back to dates

The number of a day tells its date: the year is the last one that begins
before the day (`yearAtMost_eq`), and the months of that year are taken
off one by one (`monthOf_eq`). So **counting seconds and reading them
back gives the time again** (`ofSeconds_localSeconds`), and one second
before a month begins is the last second of the month before
(`addSeconds_neg_one`).
-/

namespace SecureReview.DateTime

variable {t : DateTime} {y z m d n k l : ℕ}

/-! ## Years -/

theorem daysBeforeYear_le (hy : 1 ≤ y) (h : y ≤ z) : daysBeforeYear y ≤ daysBeforeYear z := by
  induction z, h using Nat.le_induction with
  | base => exact le_rfl
  | succ z hz ih =>
    have hstep := daysBeforeYear_succ (y := z) (by omega)
    omega

/-- **The year of a day** is found below every bound that it does not
exceed. -/
theorem yearAtMost_eq (hy : 1 ≤ y) (hlow : daysBeforeYear y < n) (hhigh : n ≤ daysBeforeYear (y + 1))
    (hbound : y ≤ k) : yearAtMost n k = y := by
  induction k with
  | zero => omega
  | succ k ih =>
    rw [yearAtMost]
    rcases Nat.lt_or_ge y (k + 1) with hlt | hge
    · -- the years after it begin too late
      have hlate : daysBeforeYear (y + 1) ≤ daysBeforeYear (k + 1) :=
        daysBeforeYear_le (by omega) (by omega)
      rw [if_neg (by omega)]
      exact ih (by omega)
    · have hsame : y = k + 1 := by omega
      rw [← hsame, if_pos hlow]

/-- A year has at least 365 days, so the search for it begins late enough. -/
theorem year_le_of_daysBeforeYear_lt (hy : 1 ≤ y) (h : daysBeforeYear y < n) : y ≤ n / 365 + 1 := by
  obtain ⟨z, rfl⟩ : ∃ z, y = z + 1 := ⟨y - 1, by omega⟩
  have hfew : z / 100 ≤ z / 4 := by omega
  have hdays : z * 365 ≤ daysBeforeYear (z + 1) := by
    simp only [daysBeforeYear, Nat.add_sub_cancel]
    omega
  omega

/-! ## Months -/

theorem daysBeforeMonth_le (y : ℕ) (hm : 1 ≤ m) (h : m < l) :
    daysBeforeMonth y m + daysInMonth y m ≤ daysBeforeMonth y l := by
  induction l, h using Nat.le_induction with
  | base => rw [daysBeforeMonth_succ y hm]
  | succ l hl ih =>
    have hstep := daysBeforeMonth_succ y (m := l) (by omega)
    omega

/-- **The month of a day** is found among the months from `l` on, by the
days since the first of them. -/
theorem monthOf_eq (hl : 1 ≤ l) (hlow : l ≤ m) (hhigh : m < l + k) (hd : 1 ≤ d)
    (hd' : d ≤ daysInMonth y m) :
    monthOf y (List.range' l k) (daysBeforeMonth y m - daysBeforeMonth y l + d) = (m, d) := by
  induction k generalizing l with
  | zero => omega
  | succ k ih =>
    rw [List.range'_succ, monthOf]
    rcases Nat.eq_or_lt_of_le hlow with rfl | hlt
    · rw [Nat.sub_self, Nat.zero_add, if_pos hd']
    · -- the day lies beyond this month, whose days are taken off
      have hbeyond := daysBeforeMonth_le y hl hlt
      have hnext := daysBeforeMonth_succ y hl
      have hrest : daysBeforeMonth y m - daysBeforeMonth y l + d - daysInMonth y l =
          daysBeforeMonth y m - daysBeforeMonth y (l + 1) + d := by
        omega
      rw [if_neg (by omega), hrest]
      exact ih (by omega) hlt (by omega)

theorem daysBeforeMonth_add_le (hm : 1 ≤ m) (hm' : m ≤ 12) :
    daysBeforeMonth y m + daysInMonth y m ≤ daysBeforeMonth y 12 + 31 := by
  have hdecember : daysInMonth y 12 = 31 := rfl
  rcases Nat.eq_or_lt_of_le hm' with rfl | hlt
  · rw [hdecember]
  · have := daysBeforeMonth_le y hm hlt
    omega

/-- **The number of a day tells its date.** -/
theorem dateOf_dayNumber (hy : 1 ≤ y) (hm : 1 ≤ m) (hm' : m ≤ 12) (hd : 1 ≤ d)
    (hd' : d ≤ daysInMonth y m) : dateOf (dayNumber y m d) = (y, m, d) := by
  have hwithin := daysBeforeMonth_add_le (y := y) hm hm'
  have hnext := daysBeforeYear_succ hy
  have hlow : daysBeforeYear y < dayNumber y m d := by
    unfold dayNumber
    omega
  have hyear : yearAtMost (dayNumber y m d) (dayNumber y m d / 365 + 1) = y := by
    refine yearAtMost_eq hy hlow ?_ (year_le_of_daysBeforeYear_lt hy hlow)
    unfold dayNumber
    omega
  have hrest : dayNumber y m d - daysBeforeYear y = daysBeforeMonth y m - daysBeforeMonth y 1 + d := by
    have hjanuary : daysBeforeMonth y 1 = 0 := rfl
    unfold dayNumber
    omega
  have hmonths : (List.range 12).map (· + 1) = List.range' 1 12 := rfl
  have hmonth := monthOf_eq (k := 12) le_rfl hm (by omega) hd hd'
  simp only [dateOf, hyear, hrest, hmonths, hmonth]

/-! ## Seconds -/

theorem Plain.dayNumber_pos (h : t.Plain) : 1 ≤ dayNumber t.year t.month t.day := by
  have := h.day_le
  unfold dayNumber
  omega

/-- **Counting seconds and reading them back** gives the time again. -/
theorem ofSeconds_localSeconds (h : t.Plain) : ofSeconds t.localSeconds t.micro = t := by
  obtain ⟨hyear, hmonth, hday, hhour, hminute, hsecond, -⟩ := isValid_iff.1 h.valid
  have hpos := h.dayNumber_pos
  have hdate := dateOf_dayNumber hyear.1 hmonth.1 hmonth.2 hday.1 hday.2
  have hdays : t.localSeconds.fdiv 86400 = (dayNumber t.year t.month t.day : ℤ) - 719163 := by
    rw [Int.fdiv_eq_ediv_of_nonneg _ (by norm_num), localSeconds]
    omega
  have hrest : t.localSeconds.fmod 86400 = (t.hour * 3600 + t.minute * 60 + t.second : ℕ) := by
    rw [Int.fmod_eq_emod_of_nonneg _ (by norm_num), localSeconds]
    omega
  have hnumber : ((dayNumber t.year t.month t.day : ℤ) - 719163 + 719163).toNat =
      dayNumber t.year t.month t.day := by
    omega
  simp only [ofSeconds, hdays, hrest, hnumber, hdate, Int.toNat_natCast]
  obtain ⟨year, month, day, hour, minute, second, micro, offset⟩ := t
  obtain rfl : offset = none := h.offset
  simp only at hhour hminute hsecond
  simp only [DateTime.mk.injEq, true_and, and_true]
  omega

/-! ## The ends of a month -/

/-- The first moment of a month. -/
def opening (y m : ℕ) : DateTime :=
  { year := y, month := m, day := 1 }

/-- The last whole second of a month. -/
def closing (y m : ℕ) : DateTime :=
  { year := y, month := m, day := daysInMonth y m, hour := 23, minute := 59, second := 59 }

theorem clock_opening (y m : ℕ) : (opening y m).clock = 0 := by
  norm_num [clock, opening]

theorem clock_closing (y m : ℕ) : (closing y m).clock = 86399000000 := by
  norm_num [clock, closing]

theorem one_lt_daysInMonth (y m : ℕ) : 1 < daysInMonth y m := by
  unfold daysInMonth
  split_ifs <;> omega

theorem plain_opening (hy : 1 ≤ y ∧ y ≤ 9999) (hm : 1 ≤ m ∧ m ≤ 12) : (opening y m).Plain :=
  ⟨isValid_iff.2 ⟨hy, hm, ⟨le_rfl, (one_lt_daysInMonth y m).le⟩, by simp [opening]⟩, rfl⟩

theorem plain_closing (hy : 1 ≤ y ∧ y ≤ 9999) (hm : 1 ≤ m ∧ m ≤ 12) : (closing y m).Plain :=
  ⟨isValid_iff.2 ⟨hy, hm, ⟨(one_lt_daysInMonth y m).le, le_rfl⟩, by simp [closing]⟩, rfl⟩

/-- **One second before the next month** is the last second of the month. -/
theorem addSeconds_neg_one (hy : 1 ≤ y ∧ y ≤ 9999) (hm : 1 ≤ m ∧ m ≤ 12)
    (hk : 1 ≤ k ∧ k ≤ 12) (hnext : 12 * z + k = 12 * y + m + 1) :
    (opening z k).addSeconds (-1) = closing y m := by
  have hplain := plain_closing hy hm
  have hstart : monthStart (12 * y + m + 1) = dayNumber z k 1 := by
    rw [monthStart]
    congr 1 <;> omega
  have hdays : monthDays (12 * y + m) = daysInMonth y m := by
    obtain ⟨hyear, hmonth⟩ := hplain.month12_pred
    change (12 * y + m - 1) / 12 = y at hyear
    change (12 * y + m - 1) % 12 + 1 = m at hmonth
    rw [monthDays, hyear, hmonth]
  have hlast : dayNumber y m (daysInMonth y m) + 1 = monthStart (12 * y + m) + daysInMonth y m :=
    hplain.dayNumber_eq
  have hstep := monthStart_succ (k := 12 * y + m) (by omega)
  have hseconds : (opening z k).localSeconds + -1 = (closing y m).localSeconds := by
    simp only [localSeconds, opening, closing]
    omega
  rw [addSeconds, hseconds]
  exact ofSeconds_localSeconds hplain

end SecureReview.DateTime
