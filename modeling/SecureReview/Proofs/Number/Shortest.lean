import SecureReview.Number.Decimal
import SecureReview.Proofs.Number.Double
/-!
# The shortest decimal reads back

A decimal is read as the double nearest to it (`ofDecimal_eq`). The
decimal that is searched for lies between the halfway points around the
double (`rounds_of_holds`), and the search finds one, because with
**seventeen digits** the decimals are closer together than the doubles
(`holds_of_seventeen`). So the shortest decimal is read as the double it
was made from (`ofDecimal_shortest`).
-/

namespace SecureReview.Number

variable {v : ℚ} {m n b c num den : ℕ} {q e : ℤ} {i : Interval}

theorem ten_zpow_pos (e : ℤ) : (0 : ℚ) < 10 ^ e :=
  zpow_pos (by norm_num) e

theorem ten_zpow_add (e f : ℤ) : (10 : ℚ) ^ (e + f) = 10 ^ e * 10 ^ f :=
  zpow_add₀ (by norm_num) e f

theorem quotient_pos : 0 < (quotient m q).2 := by
  cases q with
  | ofNat k => exact Nat.one_pos
  | negSucc k => exact Nat.two_pow_pos (k + 1)

theorem quotient_ratio : ((quotient m q).1 : ℚ) / (quotient m q).2 = m * 2 ^ q := by
  cases q with
  | ofNat k => simp [quotient, twoTo_eq]
  | negSucc k => simp [quotient, twoTo_eq, zpow_negSucc, div_eq_mul_inv]

theorem decimalQuotient_pos : 0 < (decimalQuotient c e).2 := by
  cases e with
  | ofNat k => exact Nat.one_pos
  | negSucc k => exact Nat.pow_pos (by omega)

theorem decimalQuotient_ratio :
    ((decimalQuotient c e).1 : ℚ) / (decimalQuotient c e).2 = c * 10 ^ e := by
  cases e with
  | ofNat k => simp [decimalQuotient, tenTo_eq]
  | negSucc k => simp [decimalQuotient, tenTo_eq, zpow_negSucc, div_eq_mul_inv]

/-! ## Reading a decimal -/

/-- Past the largest power of two there is no finite double. -/
theorem Rounds.le_of_large {k : ℤ} (h : Rounds v b) (hk : 1024 ≤ k) (hv : (2 : ℚ) ^ k ≤ v) :
    2047 * 2 ^ 52 ≤ b := by
  obtain ⟨q, m, hq, hm, hb⟩ := h
  have hexp : k < q + 53 :=
    (zpow_lt_zpow_iff_right₀ (by norm_num : (1 : ℚ) < 2)).1 (hv.trans_lt hq.below)
  have := hm.ge_of_ge (hq.le_div (by omega))
  omega

/-- Below half of the least double everything rounds to zero. -/
theorem Rounds.eq_zero_of_small (h : Rounds v b) (hv : v < 2 ^ (-1075 : ℤ)) : b = 0 := by
  obtain ⟨q, m, hq, hm, hb⟩ := h
  have hleast : q = -1074 := by
    obtain habove | habove := hq.above
    · exact habove
    · have := (zpow_lt_zpow_iff_right₀ (by norm_num : (1 : ℚ) < 2)).1 (habove.trans_lt hv)
      have := hq.least
      omega
  subst hleast
  have hunits : v / 2 ^ (-1074 : ℤ) < 1 / 2 := by
    rw [div_lt_iff₀ (two_zpow_pos _)]
    calc v < 2 ^ (-1075 : ℤ) := hv
      _ = 1 / 2 * 2 ^ (-1074 : ℤ) := by
        rw [show (-1075 : ℤ) = -1 + -1074 by norm_num, two_zpow_add]
        norm_num
  have hm1 : (m : ℚ) < 1 := by linarith [hm.bounds.1]
  have : m < 1 := by exact_mod_cast hm1
  omega

/-- **A decimal is read as the double nearest to it**, or as infinity.
Powers of ten that are far outside the range are not computed. -/
theorem ofDecimal_eq (negative : Bool) (h : Rounds (c * 10 ^ e) b) :
    ofDecimal negative c e = signed negative (min b (2047 * 2 ^ 52)) := by
  -- what `nearestBits` says of the decimal as a quotient
  have hquotient : ∀ num den : ℕ, 0 < den → (num : ℚ) / den = c * 10 ^ e →
      nearestBits num den = if b < 2047 * 2 ^ 52 then some b else none := by
    intro num den hden hvalue
    obtain ⟨b', hb', hbits⟩ := nearestBits_spec num hden
    rw [hvalue] at hb'
    rw [hbits, h.unique hb']
  have hfinite : b < 2047 * 2 ^ 52 → signed negative b = signed negative (min b (2047 * 2 ^ 52)) := by
    intro hb
    rw [Nat.min_eq_left hb.le]
  have hinfinite : ¬ b < 2047 * 2 ^ 52 →
      signed negative (2047 * twoTo 52) = signed negative (min b (2047 * 2 ^ 52)) := by
    intro hb
    rw [Nat.min_eq_right (by omega), twoTo_eq]
  unfold ofDecimal
  cases e with
  | ofNat k =>
    rw [Int.ofNat_eq_natCast, zpow_natCast] at h hquotient
    dsimp only
    split_ifs with hzero hlarge
    · have hc : c = 0 := by simpa using hzero
      have hb : b = 0 := h.unique (by simpa [hc] using rounds_zero)
      rw [hb]
      rfl
    · have hc : (1 : ℚ) ≤ c := by
        exact_mod_cast Nat.one_le_iff_ne_zero.2 (by simpa using hzero)
      have hb : 2047 * 2 ^ 52 ≤ b := by
        apply h.le_of_large (k := ((3 * k : ℕ) : ℤ)) (by omega)
        calc (2 : ℚ) ^ ((3 * k : ℕ) : ℤ) = (2 ^ 3) ^ k := by rw [zpow_natCast, pow_mul]
          _ ≤ 10 ^ k := pow_le_pow_left₀ (by norm_num) (by norm_num) k
          _ ≤ c * 10 ^ k := le_mul_of_one_le_left (by positivity) hc
      rw [Nat.min_eq_right hb]
      rfl
    · rw [hquotient (c * tenTo k) 1 Nat.one_pos (by push_cast [tenTo_eq]; ring)]
      split_ifs with hb
      · exact hfinite hb
      · exact hinfinite hb
  | negSucc k =>
    rw [zpow_negSucc] at h hquotient
    dsimp only
    split_ifs with hsmall
    · have hb : b = 0 := by
        apply h.eq_zero_of_small
        have hc : (c : ℚ) < 2 ^ (c.log2 + 1) := by exact_mod_cast Nat.lt_log2_self
        rw [← div_eq_mul_inv, div_lt_iff₀ (by positivity)]
        calc (c : ℚ) < 2 ^ (c.log2 + 1) := hc
          _ ≤ 2 ^ ((-1075 : ℤ) + (3 * (k + 1) : ℕ)) := by
            rw [← zpow_natCast]
            exact two_zpow_le (by push_cast; omega)
          _ = 2 ^ (-1075 : ℤ) * (2 ^ 3) ^ (k + 1) := by rw [two_zpow_add, zpow_natCast, pow_mul]
          _ ≤ 2 ^ (-1075 : ℤ) * 10 ^ (k + 1) :=
            mul_le_mul_of_nonneg_left (pow_le_pow_left₀ (by norm_num) (by norm_num) _) (two_zpow_pos _).le
      rw [hb]
      rfl
    · rw [hquotient c (tenTo (k + 1)) (Nat.pow_pos (by omega))
        (by push_cast [tenTo_eq]; rw [div_eq_mul_inv])]
      split_ifs with hb
      · exact hfinite hb
      · exact hinfinite hb

/-! ## The interval -/

/-- The lower halfway point, in quarters of the spacing. -/
def quartersBelow (m : ℕ) (q : ℤ) : ℕ :=
  if m == twoTo 52 && q != -1074 then 1 else 2

theorem quartersBelow_le : quartersBelow m q ≤ 2 := by
  unfold quartersBelow
  split <;> omega

/-- An end of the interval, against the quotient in units of the spacing. -/
theorem cross_le_iff (num : ℕ) (hden : 0 < den) {k : ℕ} :
    (k * (quotient 1 (q - 2)).1 * den ≤ num * (quotient 1 (q - 2)).2 ↔
      (k : ℚ) / 4 ≤ num / den / 2 ^ q) ∧
    (num * (quotient 1 (q - 2)).2 ≤ k * (quotient 1 (q - 2)).1 * den ↔
      (num : ℚ) / den / 2 ^ q ≤ k / 4) := by
  have hd : (0 : ℚ) < den := by exact_mod_cast hden
  have hp : (0 : ℚ) < (quotient 1 (q - 2)).2 := by exact_mod_cast quotient_pos
  have hunit : ((quotient 1 (q - 2)).1 : ℚ) / (quotient 1 (q - 2)).2 = 2 ^ q / 4 := by
    rw [quotient_ratio, zpow_sub₀ (by norm_num)]
    norm_num
  have hend : (k : ℚ) / 4 * 2 ^ q = k * (quotient 1 (q - 2)).1 / (quotient 1 (q - 2)).2 := by
    rw [mul_div_assoc, hunit]
    ring
  constructor
  · rw [le_div_iff₀ (two_zpow_pos q), hend, div_le_div_iff₀ hp hd]
    exact_mod_cast Iff.rfl
  · rw [div_le_iff₀ (two_zpow_pos q), hend, div_le_div_iff₀ hd hp]
    exact_mod_cast Iff.rfl

/-- Both ends of the interval, against the quotient in units of the
spacing. -/
theorem ends_iff (num : ℕ) (hm : 0 < m) (hden : 0 < den) :
    ((4 * m - quartersBelow m q) * (quotient 1 (q - 2)).1 * den ≤ num * (quotient 1 (q - 2)).2 ↔
      (m : ℚ) - quartersBelow m q / 4 ≤ num / den / 2 ^ q) ∧
    (num * (quotient 1 (q - 2)).2 ≤ (4 * m - quartersBelow m q) * (quotient 1 (q - 2)).1 * den ↔
      (num : ℚ) / den / 2 ^ q ≤ m - quartersBelow m q / 4) ∧
    ((4 * m + 2) * (quotient 1 (q - 2)).1 * den ≤ num * (quotient 1 (q - 2)).2 ↔
      (m : ℚ) + 1 / 2 ≤ num / den / 2 ^ q) ∧
    (num * (quotient 1 (q - 2)).2 ≤ (4 * m + 2) * (quotient 1 (q - 2)).1 * den ↔
      (num : ℚ) / den / 2 ^ q ≤ m + 1 / 2) := by
  have hquarters := quartersBelow_le (m := m) (q := q)
  have hlowend : (m : ℚ) - quartersBelow m q / 4 = ((4 * m - quartersBelow m q : ℕ) : ℚ) / 4 := by
    rw [Nat.cast_sub (by omega)]
    push_cast
    ring
  have hhighend : (m : ℚ) + 1 / 2 = ((4 * m + 2 : ℕ) : ℚ) / 4 := by
    push_cast
    ring
  rw [hlowend, hhighend]
  obtain ⟨hlow, hlow'⟩ := cross_le_iff (q := q) num hden (k := 4 * m - quartersBelow m q)
  obtain ⟨hhigh, hhigh'⟩ := cross_le_iff (q := q) num hden (k := 4 * m + 2)
  exact ⟨hlow, hlow', hhigh, hhigh'⟩

theorem roundingInterval_eq (m : ℕ) (q : ℤ) : roundingInterval m q =
    { low := (4 * m - quartersBelow m q) * (quotient 1 (q - 2)).1
      high := (4 * m + 2) * (quotient 1 (q - 2)).1
      den := (quotient 1 (q - 2)).2
      closed := m % 2 == 0 } :=
  rfl

/-- **What lies in the interval rounds to the double.** -/
theorem rounds_of_holds (h : Canonical m q) (hm : 0 < m) (hden : 0 < den)
    (hb : (b : ℤ) = (q + 1074) * 2 ^ 52 + m) (hin : (roundingInterval m q).holds num den = true) :
    Rounds (num / den) b := by
  rw [roundingInterval_eq, Interval.holds] at hin
  have hfar : (quartersBelow m q : ℚ) ≤ 2 := by exact_mod_cast quartersBelow_le
  have hpower : m = 2 ^ 52 → q ≠ -1074 → (quartersBelow m q : ℚ) = 1 := by
    intro hm hq
    simp [quartersBelow, hm, hq, twoTo_eq]
  obtain ⟨hlow, hlow', hhigh, hhigh'⟩ := ends_iff (q := q) num hm hden
  by_cases heven : m % 2 = 0
  · simp only [heven, BEq.rfl, ↓reduceIte, Bool.and_eq_true, decide_eq_true_eq] at hin
    have hl := hlow.1 hin.1
    have hh := hhigh'.1 hin.2
    refine rounds_of_between h hb (by linarith) hh ?_ (Or.inl heven)
    intro hm hq
    rw [hpower hm hq] at hl
    exact hl
  · simp only [beq_iff_eq, heven, ↓reduceIte, Bool.and_eq_true, decide_eq_true_eq, ← not_le] at hin
    have hl := not_le.1 (mt hlow'.2 hin.1)
    have hh := not_le.1 (mt hhigh.2 hin.2)
    refine rounds_of_between h hb (by linarith) hh.le ?_ (Or.inr ⟨by linarith, hh⟩)
    intro hm hq
    rw [hpower hm hq] at hl
    exact hl.le

/-- What is close enough to the double lies in the interval. -/
theorem holds_of_close (hm : 0 < m) (hden : 0 < den)
    (hlow : (m : ℚ) - quartersBelow m q / 4 < num / den / 2 ^ q)
    (hhigh : (num : ℚ) / den / 2 ^ q < m + 1 / 2) :
    (roundingInterval m q).holds num den = true := by
  obtain ⟨-, hlow', hhigh', -⟩ := ends_iff (q := q) num hm hden
  have hl := mt hlow'.1 (not_le.2 hlow)
  have hh := mt hhigh'.1 (not_le.2 hhigh)
  rw [not_le] at hl hh
  rw [roundingInterval_eq, Interval.holds]
  split
  · simp only [Bool.and_eq_true, decide_eq_true_eq]
    exact ⟨hl.le, hh.le⟩
  · simp only [Bool.and_eq_true, decide_eq_true_eq]
    exact ⟨hl, hh⟩

/-! ## The search -/

theorem length_digits_pos : 0 < (digits n).length :=
  Nat.length_toDigits_pos

theorem lt_of_digits : n < 10 ^ (digits n).length :=
  (Nat.length_toDigits_le_iff (by omega) length_digits_pos).1 le_rfl

theorem digits_le (hn : 0 < n) : 10 ^ ((digits n).length - 1) ≤ n := by
  by_contra hlt
  by_cases hone : (digits n).length - 1 = 0
  · rw [hone] at hlt
    omega
  · have := (Nat.length_toDigits_le_iff (b := 10) (by omega) (Nat.pos_of_ne_zero hone)).2
      (not_le.1 hlt)
    have hpos := length_digits_pos (n := n)
    unfold digits at *
    omega

/-- The decimal logarithm is not too large. -/
theorem floorLog10_le (hnum : 0 < num) (hden : 0 < den) :
    (10 : ℚ) ^ floorLog10 num den ≤ num / den := by
  have hd : (0 : ℚ) < den := by exact_mod_cast hden
  have hnumlow : (10 : ℚ) ^ ((digits num).length - 1) ≤ num := by exact_mod_cast digits_le hnum
  have hdenhigh : (den : ℚ) < 10 ^ (digits den).length := by exact_mod_cast lt_of_digits
  have hlow : (10 : ℚ) ^ (((digits num).length : ℤ) - (digits den).length - 1) ≤ num / den := by
    rw [le_div_iff₀ hd]
    calc (10 : ℚ) ^ (((digits num).length : ℤ) - (digits den).length - 1) * den
        ≤ 10 ^ (((digits num).length : ℤ) - (digits den).length - 1) * 10 ^ (digits den).length :=
          mul_le_mul_of_nonneg_left hdenhigh.le (ten_zpow_pos _).le
      _ = 10 ^ ((digits num).length - 1) := by
          rw [← zpow_natCast, ← ten_zpow_add, ← zpow_natCast]
          congr 1
          have := length_digits_pos (n := num)
          omega
      _ ≤ num := hnumlow
  unfold floorLog10
  generalize ((digits num).length : ℤ) - (digits den).length = guess at *
  cases guess with
  | ofNat k =>
    dsimp only
    split_ifs with h
    · exact hlow
    · rw [le_div_iff₀ hd, Int.ofNat_eq_natCast, zpow_natCast, mul_comm]
      exact_mod_cast not_lt.1 h
  | negSucc k =>
    dsimp only
    split_ifs with h
    · exact hlow
    · rw [le_div_iff₀ hd, zpow_negSucc, ← div_eq_inv_mul, div_le_iff₀ (by positivity)]
      exact_mod_cast not_lt.1 h

/-- The coefficient in units of `10 ^ e`, rounded. -/
def tenths (num den : ℕ) : ℤ → ℕ
  | .ofNat k => roundHalfEven num (den * tenTo k)
  | .negSucc k => roundHalfEven (num * tenTo (k + 1)) den

theorem nearest_tenths (num : ℕ) (hden : 0 < den) (e : ℤ) :
    Nearest ((num : ℚ) / den / 10 ^ e) (tenths num den e) := by
  cases e with
  | ofNat k =>
    have hscale : (num : ℚ) / den / 10 ^ Int.ofNat k = num / (den * tenTo k : ℕ) := by
      rw [Int.ofNat_eq_natCast, zpow_natCast, div_div]
      push_cast [tenTo_eq]
      rfl
    rw [hscale]
    exact nearest_roundHalfEven (Nat.mul_pos hden (Nat.pow_pos (by omega)))
  | negSucc k =>
    have hscale : (num : ℚ) / den / 10 ^ Int.negSucc k = (num * tenTo (k + 1) : ℕ) / den := by
      rw [zpow_negSucc, div_inv_eq_mul, div_mul_eq_mul_div]
      push_cast [tenTo_eq]
      rfl
    rw [hscale]
    exact nearest_roundHalfEven hden

/-- A coefficient that is found lies in the interval. -/
theorem holds_of_coefficient? (h : i.coefficient? num den e = some c) :
    i.holds (decimalQuotient c e).1 (decimalQuotient c e).2 = true := by
  unfold Interval.coefficient? at h
  dsimp only at h
  split_ifs at h with h₁ h₂ h₃
  all_goals
    cases h
    assumption

/-- One is found if the nearest one lies there. -/
theorem coefficient?_isSome
    (h : i.holds (decimalQuotient (tenths num den e) e).1 (decimalQuotient (tenths num den e) e).2 = true) :
    (i.coefficient? num den e).isSome = true := by
  cases e with
  | ofNat k =>
    have hfound : i.coefficient? num den (Int.ofNat k) = some (tenths num den (Int.ofNat k)) :=
      if_pos h
    rw [hfound]
    rfl
  | negSucc k =>
    have hfound : i.coefficient? num den (Int.negSucc k) = some (tenths num den (Int.negSucc k)) :=
      if_pos h
    rw [hfound]
    rfl

/-- The search ends in the interval if there is something to be found in
one of the places that are tried. -/
theorem holds_of_fewest {places : ℕ}
    (h : ∃ j < places, (i.coefficient? num den (e - j)).isSome = true) :
    i.holds (decimalQuotient (i.fewest num den places e).1 (i.fewest num den places e).2).1
      (decimalQuotient (i.fewest num den places e).1 (i.fewest num den places e).2).2 = true := by
  induction places generalizing e with
  | zero =>
    obtain ⟨j, hj, -⟩ := h
    omega
  | succ places ih =>
    rw [Interval.fewest]
    split
    · next c hc => exact holds_of_coefficient? hc
    · next hnone =>
      obtain ⟨j, hj, hsome⟩ := h
      apply ih
      cases j with
      | zero =>
        rw [Int.ofNat_zero, sub_zero, hnone] at hsome
        cases hsome
      | succ j =>
        refine ⟨j, by omega, ?_⟩
        rwa [show e - 1 - (j : ℤ) = e - ((j + 1 : ℕ) : ℤ) by push_cast; ring]

/-- **Seventeen digits are enough.** The last of the places is so small
that the nearest decimal is closer than the halfway points. -/
theorem holds_of_seventeen (h : Canonical m q) (hm : 0 < m) (he : (10 : ℚ) ^ (e + 16) ≤ m * 2 ^ q) :
    (roundingInterval m q).holds
      (decimalQuotient (tenths (quotient m q).1 (quotient m q).2 e) e).1
      (decimalQuotient (tenths (quotient m q).1 (quotient m q).2 e) e).2 = true := by
  have hnear := (nearest_tenths (quotient m q).1 (quotient_pos (m := m) (q := q)) e).bounds
  rw [quotient_ratio] at hnear
  generalize tenths (quotient m q).1 (quotient m q).2 e = best at *
  have hten := ten_zpow_pos e
  have htwo := two_zpow_pos q
  rw [le_div_iff₀ hten, div_le_iff₀ hten] at hnear
  have hmq : (0 : ℚ) < m := by exact_mod_cast hm
  have hm53 : (m : ℚ) < 9007199254740992 := by exact_mod_cast h.mantissa
  -- a half unit of the last place, in units of the spacing
  have hhalf : (10 : ℚ) ^ e / 2 ≤ m / 20000000000000000 * 2 ^ q := by
    rw [ten_zpow_add] at he
    norm_num at he
    linarith
  have hquarters : (m : ℚ) / 20000000000000000 < quartersBelow m q / 4 := by
    unfold quartersBelow
    split_ifs with hpower
    · obtain ⟨hm52, -⟩ : m = twoTo 52 ∧ q ≠ -1074 := by simpa using hpower
      rw [hm52, twoTo_eq]
      norm_num
    · push_cast
      linarith
  apply holds_of_close hm decimalQuotient_pos
  · rw [decimalQuotient_ratio, lt_div_iff₀ htwo]
    have := mul_lt_mul_of_pos_right hquarters htwo
    linarith
  · rw [decimalQuotient_ratio, div_lt_iff₀ htwo]
    have : (m : ℚ) / 20000000000000000 * 2 ^ q < 1 / 2 * 2 ^ q :=
      mul_lt_mul_of_pos_right (by linarith) htwo
    linarith

theorem shortest_eq (m : ℕ) (q : ℤ) : shortest m q =
    (roundingInterval m q).fewest (quotient m q).1 (quotient m q).2 17
      (floorLog10 (quotient m q).1 (quotient m q).2) :=
  rfl

/-- **The shortest decimal rounds to the double it was made from.** -/
theorem shortest_rounds (h : Canonical m q) (hm : 0 < m) (hb : (b : ℤ) = (q + 1074) * 2 ^ 52 + m) :
    Rounds ((shortest m q).1 * 10 ^ (shortest m q).2) b := by
  rw [shortest_eq, ← decimalQuotient_ratio]
  apply rounds_of_holds h hm decimalQuotient_pos hb
  apply holds_of_fewest
  refine ⟨16, by omega, coefficient?_isSome (holds_of_seventeen h hm ?_)⟩
  have hnum : 0 < (quotient m q).1 := by
    cases q with
    | ofNat k => exact Nat.mul_pos hm (Nat.two_pow_pos k)
    | negSucc k => exact hm
  rw [← quotient_ratio, show ∀ k : ℤ, k - ((16 : ℕ) : ℤ) + 16 = k by intro k; push_cast; ring]
  exact floorLog10_le hnum quotient_pos

/-- **A decimal with the value of the shortest one reads back** as the
double. -/
theorem ofDecimal_shortest {negative : Bool} {x : Float} (hx : parts x = .finite negative m q) (hm : 0 < m)
    (hvalue : (c : ℚ) * 10 ^ e = (shortest m q).1 * 10 ^ (shortest m q).2) :
    ofDecimal negative c e = x := by
  obtain rfl | ⟨negative', b, hb, rfl⟩ := exists_signed x
  · rw [parts_nan] at hx
    cases hx
  obtain hlt | rfl := Nat.lt_or_eq_of_le hb
  · rw [parts_signed hlt] at hx
    obtain ⟨rfl, rfl, rfl⟩ := Parts.finite.inj hx
    have hrounds := shortest_rounds (canonical_pattern b) hm (pattern_eq b)
    rw [← hvalue] at hrounds
    rw [ofDecimal_eq negative' hrounds, Nat.min_eq_left hb]
  · rw [parts_infinite] at hx
    cases hx

end SecureReview.Number
