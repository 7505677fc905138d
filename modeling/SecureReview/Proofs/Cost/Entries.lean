import SecureReview.Cost.Ledger
import SecureReview.Proofs.Json.Reading
import SecureReview.Proofs.Time.Written
import SecureReview.Proofs.Validation.Checked
/-!
# Cost entries and months

An entry is kept as a text under the key of its month. The text **is
read as the entry** (`parse_print`), so that it tells the entry, and the
key tells the month (`monthKey_eq_iff`). The months of a span follow one
another, each at the time of day of its start, until one is past the end
(`monthsUntil_eq`). This is the month after the last one, but **the last
one itself** if the span ends on its first day, at an earlier time of day
than it began (`monthsEnd`).
-/

namespace SecureReview

namespace CostEntry

variable {e e' : CostEntry} {now : DateTime} {c : Charge}

/-- An entry has the time at which it was recorded. -/
theorem timestamp_of_ofCharge (h : ofCharge now c = .ok e) : e.timestamp = now := by
  simp only [ofCharge, check, Checked.get_eq_ok, Checked.seq_eq_ok, Checked.map_eq_ok] at h
  obtain ⟨_, _, ⟨_, _, ⟨_, _, ⟨_, _, ⟨_, _, ⟨_, _, ⟨_, _, ⟨t, ht, rfl⟩, -, rfl⟩, -, rfl⟩, -, rfl⟩, -,
    rfl⟩, -, rfl⟩, -, rfl⟩, -, rfl⟩ := h
  exact (Checked.ok.inj ht).symm

theorem time_iso {t : DateTime} (h : t.Plain) : time (.str t.iso) = .ok t := by
  simp only [time, DateTime.ofNumeral_iso h.offset, DateTime.readWritten_iso h]

theorem distinctKeys_toJson (e : CostEntry) : e.toJson.distinctKeys = true := by
  obtain ⟨_, _, _, _, _, _, scanId, findingId⟩ := e
  cases scanId <;> cases findingId <;> rfl

/-- The fields of an entry pass their checks. -/
theorem check_toJson {fs : Fields} (h : e.timestamp.Plain) (hfs : e.toJson = .obj fs) :
    check (fun fs => Checked.required fs "timestamp" time) fs = .ok e := by
  have hget : Fields.get? fs "timestamp" = some (.str e.timestamp.iso) := by
    rw [← Json.obj.inj hfs]
    rfl
  have htime : Checked.required fs "timestamp" time = .ok e.timestamp :=
    Checked.required_eq_ok.2 ⟨_, hget, (Checked.present_str time _).trans (time_iso h)⟩
  rw [check, htime, ← Json.obj.inj hfs]
  obtain ⟨_, _, _, _, _, _, scanId, findingId⟩ := e
  cases scanId <;> cases findingId <;> rfl

/-- **The text of an entry is read as the entry.** -/
theorem parse_print (h : e.timestamp.Plain) : parse e.print = .ok e := by
  obtain ⟨fs, hfs⟩ : ∃ fs, e.toJson = .obj fs := ⟨_, rfl⟩
  have hfields : Checked.fieldsOfText "CostEntry" (some e.print) = .ok fs := by
    rw [Checked.fieldsOfText, print, Json.parseString_compact (distinctKeys_toJson e), hfs]
    rfl
  rw [parse, hfields, Checked.andThen, check_toJson h hfs]
  rfl

theorem print_inj (h : e.timestamp.Plain) (h' : e'.timestamp.Plain) (heq : e.print = e'.print) :
    e = e' := by
  have hparse := parse_print h
  rw [heq, parse_print h', Except.ok.injEq] at hparse
  exact hparse.symm

end CostEntry

namespace CostLedger

open DateTime

variable {a b t stop : DateTime} {k l : ℕ}

/-! ## Months -/

theorem toList_monthKey (t : DateTime) : (monthKey t).toList =
    "llm_costs:".toList ++ (Nat.toDigits 10 t.year ++ ('-' :: pad 2 t.month)) := by
  have hkey : monthKey t = "llm_costs:" ++ t.monthText := rfl
  rw [hkey, String.toList_append, monthText, padded]
  simp

/-- **The key of a month tells the month.** -/
theorem monthKey_eq_iff (ha : a.Plain) (hb : b.Plain) :
    monthKey a = monthKey b ↔ a.month12 = b.month12 := by
  obtain ⟨-, hmonth, -⟩ := isValid_iff.1 ha.valid
  obtain ⟨-, hmonth', -⟩ := isValid_iff.1 hb.valid
  constructor
  · intro h
    have htail := congrArg String.toList h
    rw [toList_monthKey, toList_monthKey, List.append_cancel_left_eq] at htail
    obtain ⟨hyears, hmonths⟩ := List.append_inj' htail (by simp)
    have hyear : a.year = b.year := by
      rw [← Nat.ofDigitChars_ten_toDigits (n := a.year), hyears, Nat.ofDigitChars_ten_toDigits]
    have hpads : digitsUpTo 2 (pad 2 a.month ++ []) = digitsUpTo 2 (pad 2 b.month ++ []) := by
      rw [List.tail_eq_of_cons_eq hmonths]
    rw [digitsUpTo_pad (by decide) (by omega), digitsUpTo_pad (by decide) (by omega)] at hpads
    have hmonth : a.month = b.month := (Prod.mk.inj (Option.some.inj hpads)).1
    rw [month12, month12, hyear, hmonth]
  · intro h
    unfold month12 at h
    have hyear : a.year = b.year := by omega
    have hmonth : a.month = b.month := by omega
    rw [monthKey, monthKey, monthText, monthText, hyear, hmonth]

/-- The first day of a month, at the time of day of `t`. -/
def atMonth (t : DateTime) (k : ℕ) : DateTime :=
  { t with year := (k - 1) / 12, month := (k - 1) % 12 + 1, day := 1 }

theorem month12_atMonth (t : DateTime) (hk : 1 ≤ k) : (atMonth t k).month12 = k := by
  simp only [month12, atMonth]
  omega

theorem plain_atMonth (h : t.Plain) (hk : 13 ≤ k) (hlast : k ≤ 120000) : (atMonth t k).Plain := by
  obtain ⟨-, -, -, hclock⟩ := isValid_iff.1 h.valid
  refine ⟨isValid_iff.2 ⟨?_, ?_, ⟨le_rfl, ?_⟩, hclock⟩, h.offset⟩
  · simp only [atMonth]
    omega
  · simp only [atMonth]
    omega
  · unfold daysInMonth
    split_ifs <;> simp only [atMonth] <;> omega

theorem atMonth_month12 (h : t.Plain) : atMonth t t.month12 = { t with day := 1 } := by
  obtain ⟨hyear, hmonth⟩ := h.month12_pred
  rw [atMonth, hyear, hmonth]

theorem plain_first (h : t.Plain) : ({ t with day := 1 } : DateTime).Plain := by
  obtain ⟨hyear, hmonth, -⟩ := isValid_iff.1 h.valid
  rw [← atMonth_month12 h]
  refine plain_atMonth h h.thirteen_le ?_
  unfold month12
  omega

theorem nextMonth_eq (h : t.Plain) (hday : t.day = 1) : nextMonth t = atMonth t (t.month12 + 1) := by
  obtain ⟨-, hmonth, -⟩ := isValid_iff.1 h.valid
  unfold nextMonth atMonth month12
  by_cases hlast : t.month = 12
  · rw [if_pos (by simpa using hlast), ← hday]
    congr 1 <;> omega
  · rw [if_neg (by simpa using hlast), ← hday]
    congr 1 <;> omega

/-- The month before which a span ends that goes from month to month at
the time of day of `t`. -/
def monthsEnd (t stop : DateTime) : ℕ :=
  if stop.day = 1 ∧ stop.clock < t.clock then stop.month12 else stop.month12 + 1

/-- The first of a month is in the span if it comes before its end. -/
theorem ordinal_le_iff_lt_monthsEnd (h : t.Plain) (hday : t.day = 1) (hstop : stop.Plain) :
    t.ordinal ≤ stop.ordinal ↔ t.month12 < monthsEnd t stop := by
  have hfirst := hstop.day_le
  unfold monthsEnd
  obtain hlt | heq | hgt := lt_trichotomy t.month12 stop.month12
  · have := ordinal_lt_of_month_lt h hstop hlt
    split_ifs <;> omega
  · rw [ordinal_le_iff_of_same_month h hstop heq]
    split_ifs <;> omega
  · have := ordinal_lt_of_month_lt hstop h hgt
    split_ifs <;> omega

theorem notAfter_eq (h : t.Plain) (hday : t.day = 1) (hstop : stop.Plain) :
    t.notAfter stop = .ok (decide (t.month12 < monthsEnd t stop)) := by
  have hsame : (t.offset.isSome == stop.offset.isSome) = true := by rw [h.offset, hstop.offset]; rfl
  rw [notAfter, if_pos hsame, decide_eq_decide.2 (ordinal_le_iff_lt_monthsEnd h hday hstop)]

theorem monthsEnd_le (hstop : stop.Plain) (hyear : stop.year < 9999) : monthsEnd t stop ≤ 119989 := by
  obtain ⟨-, hmonth, -⟩ := isValid_iff.1 hstop.valid
  unfold monthsEnd month12
  split_ifs <;> omega

/-- **The months that are gone through**, from the one of `t` on, unless
the calendar ends before. -/
theorem monthsUntil_eq (h : t.Plain) (hday : t.day = 1) (hstop : stop.Plain)
    (hbound : monthsEnd t stop ≤ 120000) :
    monthsUntil stop t =
      .ok ((List.range' t.month12 (monthsEnd t stop - t.month12)).map (atMonth t)) := by
  generalize hn : monthsEnd t stop - t.month12 = n
  induction n generalizing t with
  | zero =>
    rw [monthsUntil, notAfter_eq h hday hstop, decide_eq_false (by omega)]
    rfl
  | succ n ih =>
    -- the next month is gone through at the same time of day
    have hplain := plain_atMonth h (k := t.month12 + 1) (by have := h.thirteen_le; omega) (by omega)
    have hmonth := month12_atMonth t (k := t.month12 + 1) (by omega)
    have hend : monthsEnd (atMonth t (t.month12 + 1)) stop = monthsEnd t stop := rfl
    have hrest := ih hplain rfl (by rw [hend]; exact hbound) (by rw [hend, hmonth]; omega)
    have hindex : monthIndex t < 120000 := by
      change t.month12 < 120000
      omega
    rw [monthsUntil, notAfter_eq h hday hstop, decide_eq_true (by omega), nextMonth_eq h hday, hrest,
      hmonth, List.range'_succ, List.map_cons, atMonth_month12 h, ← hday]
    simp only [bind, Except.bind, if_true, dif_pos hindex]
    rfl

/-- A span that reaches the last month of the calendar cannot be gone
through: there is no month after it to look at. -/
theorem exists_monthsUntil_error (h : t.Plain) (hday : t.day = 1) (hstop : stop.Plain)
    (hbound : 120000 < monthsEnd t stop) : ∃ e, monthsUntil stop t = .error e := by
  have hlast : t.month12 ≤ 120000 := by
    obtain ⟨hyear, hmonth, -⟩ := isValid_iff.1 h.valid
    unfold month12
    omega
  generalize hn : 120000 - t.month12 = n
  induction n generalizing t with
  | zero =>
    have hindex : ¬ monthIndex t < 120000 := by
      change ¬ t.month12 < 120000
      omega
    rw [monthsUntil, notAfter_eq h hday hstop, decide_eq_true (by omega)]
    simp only [bind, Except.bind, if_true, dif_neg hindex]
    exact ⟨_, rfl⟩
  | succ n ih =>
    have hplain := plain_atMonth h (k := t.month12 + 1) (by have := h.thirteen_le; omega) (by omega)
    have hmonth := month12_atMonth t (k := t.month12 + 1) (by omega)
    have hend : monthsEnd (atMonth t (t.month12 + 1)) stop = monthsEnd t stop := rfl
    obtain ⟨e, hrest⟩ := ih hplain rfl (by rw [hend]; exact hbound) (by omega) (by omega)
    have hindex : monthIndex t < 120000 := by
      change t.month12 < 120000
      omega
    rw [monthsUntil, notAfter_eq h hday hstop, decide_eq_true (by omega), nextMonth_eq h hday, hrest]
    simp only [bind, Except.bind, if_true, dif_pos hindex]
    exact ⟨e, rfl⟩

end CostLedger

end SecureReview
