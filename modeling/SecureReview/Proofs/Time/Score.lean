import SecureReview.Proofs.Number.Arithmetic
import SecureReview.Proofs.Time.Calendar
import SecureReview.Time.Stamp
/-!
# Times as numbers of seconds

The number of seconds of a time is a double, and it is rounded twice:
the fraction of a second, and its sum with the whole seconds (`Stamped`).
Both keep the order, so **a later time has no smaller number**
(`score_mono`). But there are only so many doubles. Up to 2³³ seconds from
1970, from the year 1697 to the year 2242, a time has a number that no
other time has (`score_le_iff`); further away a number stands for several
times.
-/

namespace SecureReview

namespace Number

variable {w : ℚ} {n : ℤ}

/-- The double of a whole number is the one nearest to it. -/
theorem ofInt?_spec (h : n.natAbs < 2 ^ 53) : ∃ x, ofInt? n = some x ∧ value? x = some (n : ℚ) := by
  obtain ⟨b, hround, hbits⟩ := nearestBits_spec n.natAbs Nat.one_pos
  have habs : ((n.natAbs : ℕ) : ℚ) / (1 : ℕ) = |(n : ℚ)| := by
    rw [Nat.cast_one, div_one, Nat.cast_natAbs, Int.cast_abs]
  rw [habs] at hround
  have hb : b < 2047 * 2 ^ 52 := by
    refine hround.finite ?_
    rw [← habs, Nat.cast_one, div_one]
    exact_mod_cast (h.trans (by norm_num)).le
  have hself : RoundsTo n (if (n : ℚ) < 0 then -magnitude b else magnitude b) := ⟨b, hround, rfl⟩
  refine ⟨signed (n < 0) b, ?_, ?_⟩
  · rw [ofInt?, ofQuotient, hbits, if_pos hb]
    rfl
  · rw [value?_signed hb, ← hself.eq_of_int h]
    simp only [decide_eq_true_eq, Int.cast_lt_zero]

/-- The divisor of microseconds. -/
theorem million_eq : (1e6 : Float) = signed false (1042 * 2 ^ 52 + 4086334964629504) := by
  refine Number.toBits_injective ?_
  decide +kernel

theorem magnitude_million : magnitude (1042 * 2 ^ 52 + 4086334964629504) = 1000000 := by
  have hmantissa : mantissaOf (1042 * 2 ^ 52 + 4086334964629504) = 1000000 * 2 ^ 33 := by
    rw [mantissaOf, if_neg (by norm_num)]
    norm_num
  have hexponent : exponentOf (1042 * 2 ^ 52 + 4086334964629504) = -33 := by
    rw [exponentOf, if_neg (by norm_num)]
    norm_num
  rw [magnitude, hmantissa, hexponent]
  norm_num

theorem value?_million : value? 1e6 = some 1000000 := by
  rw [million_eq, value?_signed (by norm_num), magnitude_million]
  rfl

/-- The fraction of a second in microseconds. -/
theorem div_million_spec {u : ℕ} (h : u < 1000000) :
    ∃ x w, Num.div (.int u) (.float 1e6) = .ok (.float x) ∧ value? x = some w ∧
      RoundsTo (u / 1000000) w := by
  obtain ⟨y, hy, hvalue⟩ := ofInt?_spec (n := u) (by omega)
  rw [Int.cast_natCast] at hvalue
  have hsmall : |(u : ℚ) / 1000000| ≤ 2 ^ 64 := by
    have hu : (u : ℚ) < 1000000 := by exact_mod_cast h
    rw [abs_of_nonneg (by positivity), div_le_iff₀ (by norm_num)]
    linarith
  obtain ⟨w, hw, hround⟩ := div_spec hvalue value?_million (by norm_num) hsmall
  refine ⟨y / 1e6, w, ?_, hw, hround⟩
  have hzero : (Num.float 1e6).isZero = false := by decide +kernel
  simp only [Num.div, hzero, Bool.false_eq_true, if_false, Num.toFloat, hy]
  rfl

/-! ## Microseconds as doubles -/

/-- `z` is the value of the number of seconds of so many microseconds. -/
def Stamped (n : ℤ) (z : ℚ) : Prop :=
  ∃ w, RoundsTo ((n % 1000000 : ℤ) / 1000000) w ∧ RoundsTo ((n / 1000000 : ℤ) + w) z

variable {k : ℤ} {z z' : ℚ}

theorem exists_stamped (n : ℤ) : ∃ z, Stamped n z := by
  obtain ⟨w, hw⟩ := exists_roundsTo ((n % 1000000 : ℤ) / 1000000)
  obtain ⟨z, hz⟩ := exists_roundsTo ((n / 1000000 : ℤ) + w)
  exact ⟨z, w, hw, hz⟩

/-- A fraction stays one when it is rounded. -/
theorem fraction_bounds (hw : RoundsTo ((n % 1000000 : ℤ) / 1000000) w) :
    0 ≤ w ∧ w < 1 ∧ |((n % 1000000 : ℤ) : ℚ) / 1000000 - w| ≤ 2 ^ (-53 : ℤ) / 2 := by
  have hlow : (0 : ℚ) ≤ (n % 1000000 : ℤ) := by exact_mod_cast Int.emod_nonneg n (by norm_num)
  have hhigh : ((n % 1000000 : ℤ) : ℚ) + 1 ≤ 1000000 := by
    exact_mod_cast Int.emod_lt_of_pos n (by norm_num)
  generalize ((n % 1000000 : ℤ) : ℚ) = u at *
  have hnonneg : 0 ≤ u / 1000000 := by positivity
  have hless : u / 1000000 ≤ 1 - 1 / 1000000 := by
    rw [div_le_iff₀ (by norm_num)]
    linarith
  have herror := hw.error (q := -53) (by norm_num) (by rw [abs_of_nonneg hnonneg]; norm_num; linarith)
  obtain ⟨b, -, hb⟩ := hw.nonneg hnonneg
  refine ⟨hb ▸ magnitude_nonneg b, ?_, herror⟩
  have := (abs_le.1 herror).1
  norm_num at this
  linarith

/-- **More microseconds have no smaller number of seconds.** -/
theorem Stamped.mono (h : Stamped n z) (h' : Stamped k z') (hle : n ≤ k) : z ≤ z' := by
  obtain ⟨w, hfraction, hsum⟩ := h
  obtain ⟨w', hfraction', hsum'⟩ := h'
  obtain ⟨-, hone, -⟩ := fraction_bounds hfraction
  obtain ⟨hnonneg, -, -⟩ := fraction_bounds hfraction'
  refine hsum.mono hsum' ?_
  obtain heq | hlt : n / 1000000 = k / 1000000 ∨ n / 1000000 < k / 1000000 := by omega
  · have hmicros : ((n % 1000000 : ℤ) : ℚ) ≤ (k % 1000000 : ℤ) := by
      exact_mod_cast (by omega : n % 1000000 ≤ k % 1000000)
    have hw : w ≤ w' := hfraction.mono hfraction' (by linarith)
    rw [heq]
    linarith
  · -- a fraction does not reach the next second
    have hstep : ((n / 1000000 : ℤ) : ℚ) + 1 ≤ (k / 1000000 : ℤ) := by exact_mod_cast hlt
    linarith

/-- Up to 2³³ seconds the number is off by less than half a microsecond. -/
theorem Stamped.error (h : Stamped n z) (hn : n.natAbs ≤ 2 ^ 33 * 1000000) :
    |(n : ℚ) / 1000000 - z| < 1 / 2000000 := by
  obtain ⟨w, hfraction, hsum⟩ := h
  obtain ⟨hnonneg, hone, herror⟩ := fraction_bounds hfraction
  have hsplit : (n : ℚ) / 1000000 = (n / 1000000 : ℤ) + ((n % 1000000 : ℤ) : ℚ) / 1000000 := by
    have := Int.mul_ediv_add_emod n 1000000
    field_simp
    exact_mod_cast this.symm
  rw [hsplit]
  by_cases hwhole : n % 1000000 = 0
  · -- whole seconds are not rounded
    have hzero : w = (0 : ℤ) := RoundsTo.eq_of_int (by simpa [hwhole] using hfraction) (by norm_num)
    rw [hzero, Int.cast_zero, add_zero] at hsum
    rw [hsum.eq_of_int (by omega), hwhole]
    norm_num
  · have hlow : (-2 ^ 33 : ℚ) ≤ (n / 1000000 : ℤ) := by
      exact_mod_cast (by omega : -2 ^ 33 ≤ n / 1000000)
    have hhigh : ((n / 1000000 : ℤ) : ℚ) ≤ 2 ^ 33 - 1 := by
      exact_mod_cast (by omega : n / 1000000 ≤ 2 ^ 33 - 1)
    have hpos : (1 : ℚ) ≤ (n % 1000000 : ℤ) := by exact_mod_cast (by omega : 1 ≤ n % 1000000)
    rw [abs_le] at herror
    norm_num at herror hlow hhigh
    have hmagnitude : |((n / 1000000 : ℤ) : ℚ) + w| < 2 ^ ((-20 : ℤ) + 53) := by
      norm_num
      rw [abs_lt]
      constructor <;> linarith
    have herror' := abs_le.1 (hsum.error (q := -20) (by norm_num) hmagnitude)
    norm_num at herror'
    rw [abs_lt]
    constructor <;> linarith

/-- **Where the doubles are dense enough**, more microseconds have a
larger number. One of the two being so is enough: its neighbour is
between them. -/
theorem Stamped.lt_of_lt (h : Stamped n z) (h' : Stamped k z') (hlt : n < k)
    (hnear : n.natAbs < 2 ^ 33 * 1000000 ∨ k.natAbs < 2 ^ 33 * 1000000) : z < z' := by
  have hneighbour : ∀ {n k : ℤ} {z z' : ℚ}, Stamped n z → Stamped k z' → n + 1 = k →
      n.natAbs ≤ 2 ^ 33 * 1000000 → k.natAbs ≤ 2 ^ 33 * 1000000 → z < z' := by
    intro n k z z' h h' hnext hn hk
    have herror := abs_lt.1 (h.error hn)
    have herror' := abs_lt.1 (h'.error hk)
    have hstep : (n : ℚ) + 1 = k := by exact_mod_cast hnext
    linarith
  obtain hnear | hnear := hnear
  · obtain ⟨c, hc⟩ := exists_stamped (n + 1)
    exact (hneighbour h hc rfl (by omega) (by omega)).trans_le (hc.mono h' (by omega))
  · obtain ⟨c, hc⟩ := exists_stamped (k - 1)
    exact (h.mono hc (by omega)).trans_lt (hneighbour hc h' (by omega) (by omega) (by omega))

end Number

namespace DateTime

variable {a b t : DateTime}

/-- The value of the number of seconds of a time; zero for the times that
have none. -/
def score (t : DateTime) : ℚ :=
  match t.stamp with
  | .ok n => n.value?.getD 0
  | .error _ => 0

/-- The calendar goes from the year one to the year 9999. -/
theorem Plain.localSeconds_bounds (h : t.Plain) :
    -62135596800 ≤ t.localSeconds ∧ t.localSeconds < 253402300800 := by
  obtain ⟨hyear, hmonth, -, hclock⟩ := isValid_iff.1 h.valid
  have hend : monthStart 120001 = 3652060 := by decide
  have hbegin : monthStart 13 = 1 := by decide
  have hlast := monthStart_add_le h.thirteen_le (l := 120001) (by unfold month12; omega)
  have hfirst : 1 ≤ monthStart t.month12 := by
    obtain heq | hlt := Nat.eq_or_lt_of_le h.thirteen_le
    · rw [← heq, hbegin]
    · have := monthStart_add_le le_rfl hlt
      omega
  have := h.day_le
  have := h.dayNumber_eq
  unfold localSeconds
  omega

/-- Whole seconds and microseconds of a time. -/
theorem Plain.ordinal_split (h : t.Plain) :
    t.ordinal / 1000000 = t.localSeconds ∧ t.ordinal % 1000000 = t.micro := by
  obtain ⟨-, -, -, -, -, -, hmicro⟩ := isValid_iff.1 h.valid
  have hordinal : t.ordinal = t.localSeconds * 1000000 + t.micro := by
    rw [ordinal, h.offset, Option.getD_none, sub_zero]
  omega

/-- **The number of seconds of a time** that can be told. -/
theorem stamp_spec (h : t.Plain) (htold : firstTold ≤ t.localSeconds) :
    ∃ n, t.stamp = .ok n ∧ n.value? = some t.score ∧ Number.Stamped t.ordinal t.score := by
  obtain ⟨-, -, -, -, -, -, hmicro⟩ := isValid_iff.1 h.valid
  obtain ⟨hseconds, hmicros⟩ := h.ordinal_split
  obtain ⟨hlow, hhigh⟩ := h.localSeconds_bounds
  obtain ⟨f, w, hf, hvalue, hfraction⟩ := Number.div_million_spec hmicro
  have hfraction : Number.RoundsTo ((t.ordinal % 1000000 : ℤ) / 1000000) w := by
    rwa [hmicros, Int.cast_natCast]
  obtain ⟨hnonneg, hone, -⟩ := Number.fraction_bounds hfraction
  obtain ⟨y, hy, hwhole⟩ := Number.ofInt?_spec (n := t.localSeconds) (by omega)
  have hsmall : |(t.localSeconds : ℚ) + w| ≤ 2 ^ 64 := by
    have hlow' : (-62135596800 : ℚ) ≤ t.localSeconds := by exact_mod_cast hlow
    have hhigh' : (t.localSeconds : ℚ) < 253402300800 := by exact_mod_cast hhigh
    rw [abs_le]
    constructor <;> linarith
  obtain ⟨z, hz, hsum⟩ := Number.add_spec hwhole hvalue hsmall
  have hstamp : t.stamp = .ok (.float (y + f)) := by
    simp only [stamp, h.offset, if_neg (not_lt.2 htold), hf, Num.add]
    simp only [bind, Except.bind, Num.combine, Num.toFloat, hy]
    rfl
  have hscore : t.score = z := by
    rw [score, hstamp]
    simp [Num.value?, hz]
  refine ⟨.float (y + f), hstamp, hscore ▸ hz, w, hfraction, ?_⟩
  rwa [hseconds, hscore]

theorem stamp_of_untold (h : t.Plain) (huntold : t.localSeconds < firstTold) :
    t.stamp = .error (.badValue "year 0 is out of range") := by
  simp only [stamp, h.offset, if_pos huntold]

/-- What can be told of a time can be told of a later one. -/
theorem told_of_le (ha : a.Plain) (hb : b.Plain) (h : a.ordinal ≤ b.ordinal)
    (htold : firstTold ≤ a.localSeconds) : firstTold ≤ b.localSeconds := by
  have := ha.ordinal_split
  have := hb.ordinal_split
  omega

/-- **A later time has no smaller number of seconds.** -/
theorem score_mono (ha : a.Plain) (hb : b.Plain) (htold : firstTold ≤ a.localSeconds)
    (h : a.ordinal ≤ b.ordinal) : a.score ≤ b.score := by
  obtain ⟨-, -, -, hstamped⟩ := stamp_spec ha htold
  obtain ⟨-, -, -, hstamped'⟩ := stamp_spec hb (told_of_le ha hb h htold)
  exact hstamped.mono hstamped' h

/-- The time is so close to 1970 that its number of seconds tells the
microsecond. -/
def Near (t : DateTime) : Prop :=
  t.ordinal.natAbs < 2 ^ 33 * 1000000

/-- **A number of seconds tells the order** of two times of which one is
near to 1970. -/
theorem score_le_iff (ha : a.Plain) (hb : b.Plain) (htold : firstTold ≤ a.localSeconds)
    (htold' : firstTold ≤ b.localSeconds) (hnear : a.Near ∨ b.Near) :
    a.score ≤ b.score ↔ a.ordinal ≤ b.ordinal := by
  refine ⟨fun h => ?_, score_mono ha hb htold⟩
  by_contra hlt
  obtain ⟨-, -, -, hstamped⟩ := stamp_spec ha htold
  obtain ⟨-, -, -, hstamped'⟩ := stamp_spec hb htold'
  exact absurd (hstamped'.lt_of_lt hstamped (not_le.1 hlt) hnear.symm) (not_lt.2 h)

end DateTime

end SecureReview
