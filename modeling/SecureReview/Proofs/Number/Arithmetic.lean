import SecureReview.Proofs.Number.Exact
/-!
# Sums and quotients of doubles

The arithmetic of doubles is exact but for one rounding at the end. A
result is known by a mantissa, an exponent and two residual bits, which
say where between two neighbours the exact value lies (`Locates`).
Shifting the mantissa keeps that (`Locates.shift`), and so **the double
that is packed is the one nearest to the exact value**
(`exists_pack_eq`). From it follow the sum (`add_spec`) and the quotient
(`div_spec`) of two finite doubles. Rounding a value keeps the order
(`RoundsTo.mono`) and moves it by half the distance of two doubles at
most (`RoundsTo.error`).
-/

namespace SecureReview.Number

open Float.Model Float.Model.UnpackedFloat

variable {v w x : ℚ} {m n b c : ℕ} {q e : ℤ} {s : Sign} {negative negative' : Bool}

/-! ## Residual bits -/

/-- Where `x` lies from `m` on, before the next whole number. -/
def Places (m : ℕ) (x : ℚ) : Accuracy → Prop
  | .exact => x = m
  | .inexact .lt => m < x ∧ x < m + 1 / 2
  | .inexact .eq => x = m + 1 / 2
  | .inexact .gt => m + 1 / 2 < x ∧ x < m + 1

/-- The mantissa and its residual bits say where `x` lies. -/
def Locates (em : ExtendedMantissa) (x : ℚ) : Prop :=
  Places em.mantissa x em.accuracy

variable {em : ExtendedMantissa} {a : Accuracy}

theorem locates_ofMantissaAndAccuracy (h : Places m x a) :
    Locates (.ofMantissaAndAccuracy m a) x := by
  obtain _ | (_ | _ | _) := a
  all_goals exact h

theorem Locates.bounds (h : Locates em x) : (em.mantissa : ℚ) ≤ x ∧ x < em.mantissa + 1 := by
  unfold Locates at h
  generalize em.accuracy = a at h
  obtain _ | (_ | _ | _) := a
  all_goals
    simp only [Places] at h
    constructor <;> linarith

/-- Half of the value is half of the mantissa, and the bit that is lost
is the new round bit. -/
theorem Locates.half (h : Locates em x) : Locates em.shiftRightOne (x / 2) := by
  obtain ⟨m, round, sticky⟩ := em
  have hsplit : (m : ℚ) = (m % 2 : ℕ) + 2 * (m / 2 : ℕ) := by exact_mod_cast (Nat.mod_add_div m 2).symm
  obtain hmod | hmod := Nat.mod_two_eq_zero_or_one m
  all_goals
    rw [hmod] at hsplit
    push_cast at hsplit
    cases round <;> cases sticky <;>
      simp only [Locates, ExtendedMantissa.accuracy, ExtendedMantissa.shiftRightOne, hmod,
        Places, bne_self_eq_false, Bool.or_self, Bool.or_true, Bool.true_or, Nat.reduceBNe] at h ⊢ <;>
      and_intros <;> linarith

theorem Locates.shift (h : Locates em x) (k : ℕ) : Locates (em >>> k) (x / 2 ^ k) := by
  change Locates (k.repeat ExtendedMantissa.shiftRightOne em) _
  induction k with
  | zero => simpa [Nat.repeat] using h
  | succ k ih =>
    rw [Nat.repeat, pow_succ, ← div_div]
    exact ih.half

/-- **The residual bits decide the rounding.** -/
theorem Locates.nearest (h : Locates em x) : Nearest x em.roundedMantissa := by
  unfold Locates at h
  unfold ExtendedMantissa.roundedMantissa
  generalize em.accuracy = a at h ⊢
  obtain _ | (_ | _ | _) := a
  · left
    simp only [Places] at h
    simp [Accuracy.roundToNearestEven, h]
  · left
    simp only [Places] at h
    rw [Accuracy.roundToNearestEven, abs_lt]
    constructor <;> linarith
  · right
    simp only [Places] at h
    rw [Accuracy.roundToNearestEven, h]
    obtain heven | hodd := Nat.mod_two_eq_zero_or_one em.mantissa
    · refine ⟨?_, by omega⟩
      rw [heven]
      norm_num
    · refine ⟨?_, by omega⟩
      rw [hodd]
      push_cast
      rw [abs_of_nonpos] <;> linarith
  · left
    simp only [Places] at h
    rw [Accuracy.roundToNearestEven, abs_lt]
    push_cast
    constructor <;> linarith

/-! ## Rounding and packing -/

/-- The exponent that a mantissa is brought to. -/
def target (m : ℕ) (e : ℤ) : ℤ :=
  max (m.log2 + e - 52) (-1074)

theorem targetExponent_eq (m : ℕ) (e : ℤ) :
    Format.binary64.targetExponent (totalExponent m e) = target m e := by
  have hbits : Format.binary64.mantissaBits = 53 := rfl
  have hleast : Format.binary64.minExponent = -1074 := rfl
  rw [Format.targetExponent, totalExponent, hbits, hleast, target]
  push_cast
  congr 1
  omega

/-- The target is the spacing of the doubles around the value. -/
theorem spaced_target (hlow : (m : ℚ) ≤ v / 2 ^ e) (hhigh : v / 2 ^ e < m + 1)
    (he : e ≤ target m e) : Spaced v (target m e) := by
  rw [le_div_iff₀ (two_zpow_pos e)] at hlow
  rw [div_lt_iff₀ (two_zpow_pos e)] at hhigh
  have hbelow : v < 2 ^ ((m.log2 : ℤ) + 1 + e) := by
    have hm : (m : ℚ) + 1 ≤ 2 ^ ((m.log2 : ℤ) + 1) := by
      exact_mod_cast Nat.lt_log2_self (n := m)
    rw [two_zpow_add]
    exact hhigh.trans_le (mul_le_mul_of_nonneg_right hm (two_zpow_pos e).le)
  refine ⟨by unfold target; omega, hbelow.trans_le (two_zpow_le (by unfold target; omega)), ?_⟩
  by_cases hleast : target m e = -1074
  · exact Or.inl hleast
  · right
    have htarget : target m e + 52 = m.log2 + e := by
      unfold target at *
      omega
    have hne : m ≠ 0 := by
      rintro rfl
      unfold target at *
      simp only [Nat.log2_zero, Nat.cast_zero] at *
      omega
    have hm : (2 : ℚ) ^ (m.log2 : ℤ) ≤ m := by exact_mod_cast Nat.log2_self_le hne
    rw [htarget, two_zpow_add]
    exact (mul_le_mul_of_nonneg_right hm (two_zpow_pos e).le).trans hlow

/-- The first shift brings a value to its spacing. -/
theorem shift_to_target (h : Places m (v / 2 ^ e) a) (he : e ≤ target m e) :
    ∃ em, shiftToTargetExponent Format.binary64 m e a = (em, target m e) ∧
      Locates em (v / 2 ^ target m e) := by
  refine ⟨ExtendedMantissa.ofMantissaAndAccuracy m a >>> (target m e - e).toNat, ?_, ?_⟩
  · rw [shiftToTargetExponent, targetExponent_eq, shiftToExponent]
    simp only [Prod.mk.injEq, true_and]
    omega
  · have hshift := (locates_ofMantissaAndAccuracy h).shift (target m e - e).toNat
    have hexp : (2 : ℚ) ^ target m e = 2 ^ e * 2 ^ (target m e - e).toNat := by
      rw [← zpow_natCast, ← two_zpow_add]
      congr 1
      omega
    rwa [div_div, ← hexp] at hshift

/-- The second shift is for a mantissa that was rounded up to one more
digit; the pattern stays the same. -/
theorem shift_rounded (hn : n ≤ 2 ^ 53) (hq : -1074 ≤ q) (hfull : q = -1074 ∨ 2 ^ 52 ≤ n) :
    ∃ em r, shiftToTargetExponent Format.binary64 n q .exact = (em, r) ∧
      Canonical em.mantissa r ∧ (r + 1074) * 2 ^ 52 + em.mantissa = (q + 1074) * 2 ^ 52 + n := by
  obtain hlt | rfl := Nat.lt_or_eq_of_le hn
  · have hlog : (n.log2 : ℤ) + q - 52 ≤ q := by
      by_cases hzero : n = 0
      · simp [hzero]
      · have := (Nat.log2_lt hzero).2 hlt
        omega
    have htarget : (target n q - q).toNat = 0 := by
      unfold target
      omega
    refine ⟨⟨n, false, false⟩, q, ?_, ⟨hlt, hq, hfull⟩, rfl⟩
    rw [shiftToTargetExponent, targetExponent_eq, shiftToExponent, htarget]
    simp [HShiftRight.hShiftRight, Nat.repeat, ExtendedMantissa.ofMantissaAndAccuracy]
  · have htarget : (target (2 ^ 53) q - q).toNat = 1 := by
      rw [target, Nat.log2_two_pow]
      omega
    refine ⟨⟨2 ^ 52, false, false⟩, q + 1, ?_, ⟨by norm_num, by omega, Or.inr le_rfl⟩, ?_⟩
    · rw [shiftToTargetExponent, targetExponent_eq, shiftToExponent, htarget]
      rfl
    · push_cast
      ring

/-- **What is packed is the double nearest to the exact value.** -/
theorem exists_pack_eq (s : Sign) (h : Places m (v / 2 ^ e) a) (he : e ≤ target m e) :
    ∃ b, Rounds v b ∧
      (UnpackedFloat.pack Format.binary64 (roundWithAccuracy Format.binary64 s m e a)).toNat =
        signDigit s * 2 ^ 63 + min b (2047 * 2 ^ 52) := by
  obtain ⟨em, hshift, hlocates⟩ := shift_to_target h he
  have hbounds := (locates_ofMantissaAndAccuracy h).bounds
  have hmantissa : (ExtendedMantissa.ofMantissaAndAccuracy m a).mantissa = m := by
    obtain _ | (_ | _ | _) := a
    all_goals rfl
  rw [hmantissa] at hbounds
  have hspaced := spaced_target hbounds.1 hbounds.2 he
  have hnearest := hlocates.nearest
  have hn : em.roundedMantissa ≤ 2 ^ 53 := hnearest.le_of_le hspaced.div_lt.le
  have hfull : target m e = -1074 ∨ 2 ^ 52 ≤ em.roundedMantissa := by
    by_cases hleast : target m e = -1074
    · exact Or.inl hleast
    · exact Or.inr (hnearest.ge_of_ge (hspaced.le_div hleast))
  obtain ⟨em', r, hshift', hcanonical, hpattern⟩ := shift_rounded hn hspaced.least hfull
  obtain ⟨b, hb⟩ := Int.eq_ofNat_of_zero_le
    (a := (r + 1074) * 2 ^ 52 + em'.mantissa) (by have := hcanonical.least; omega)
  refine ⟨b, ⟨target m e, em.roundedMantissa, hspaced, hnearest, by rw [← hpattern, hb]⟩, ?_⟩
  have hround : roundWithAccuracy Format.binary64 s m e a = ofParts s em'.mantissa r := by
    rw [roundWithAccuracy, hshift]
    dsimp only
    rw [hshift']
    rfl
  rw [hround, toNat_pack_ofParts hcanonical hb.symm]

/-- A mantissa that is exact may have any exponent. -/
theorem exists_round_eq (s : Sign) (hm : 0 < m) (e : ℤ) :
    ∃ b, Rounds (m * 2 ^ e) b ∧
      (UnpackedFloat.pack Format.binary64 (round Format.binary64 s m e)).toNat =
        signDigit s * 2 ^ 63 + min b (2047 * 2 ^ 52) := by
  rw [UnpackedFloat.round, targetExponent_eq, decreaseExponent]
  dsimp only
  generalize hk : (e - target m e).toNat = k
  have hvalue : (m : ℚ) * 2 ^ e / 2 ^ (e - k) = (m <<< k : ℕ) := by
    rw [Nat.shiftLeft_eq, mul_div_assoc, ← zpow_sub₀ two_ne_zero]
    push_cast
    rw [← zpow_natCast]
    congr 2
    omega
  have hlog : (m <<< k).log2 = m.log2 + k := by
    rw [Nat.shiftLeft_eq, Nat.log2_eq_iff (by positivity), pow_add, pow_succ, pow_add, Nat.mul_right_comm]
    have hlow := Nat.log2_self_le hm.ne'
    have hhigh := Nat.lt_log2_self (n := m)
    exact ⟨Nat.mul_le_mul_right _ hlow, Nat.mul_lt_mul_of_pos_right hhigh (by positivity)⟩
  refine exists_pack_eq s (a := .exact) hvalue ?_
  unfold target at *
  omega

/-! ## Values -/

/-- A value that is not huge rounds to a finite double. -/
theorem Rounds.finite (h : Rounds v b) (hv : v ≤ 2 ^ 64) : b < 2047 * 2 ^ 52 := by
  have hlimit : Rounds ((2 : ℚ) ^ 64) (1087 * 2 ^ 52) := by
    have hcanonical : Canonical (2 ^ 52) 12 := ⟨by norm_num, by norm_num, Or.inr le_rfl⟩
    have hself := rounds_self hcanonical (b := 1087 * 2 ^ 52) (by norm_num)
    norm_num at hself ⊢
    exact hself
  have := h.mono hlimit hv
  omega

theorem magnitude_le (h : b ≤ c) : magnitude b ≤ magnitude c := by
  by_contra hlt
  have hle := (rounds_magnitude c).mono (rounds_magnitude b) (not_le.1 hlt).le
  obtain rfl : b = c := by omega
  exact hlt le_rfl

/-- The magnitude by the units of its spacing, also where rounding up
took it to the next spacing. -/
theorem Rounds.exists_units (h : Rounds v b) :
    ∃ q m, Spaced v q ∧ Nearest (v / 2 ^ q) m ∧ magnitude b = m * 2 ^ q := by
  obtain ⟨q, m, hspaced, hnearest, hb⟩ := h
  refine ⟨q, m, hspaced, hnearest, ?_⟩
  have hm : m ≤ 2 ^ 53 := hnearest.le_of_le hspaced.div_lt.le
  obtain hlt | rfl := Nat.lt_or_eq_of_le hm
  · have hfull : q = -1074 ∨ 2 ^ 52 ≤ m := by
      by_cases hleast : q = -1074
      · exact Or.inl hleast
      · exact Or.inr (hnearest.ge_of_ge (hspaced.le_div hleast))
    obtain ⟨hmantissa, hexponent⟩ := Canonical.eq_of_pattern ⟨hlt, hspaced.least, hfull⟩ hb
    rw [magnitude, ← hmantissa, ← hexponent]
  · have hcanonical : Canonical (2 ^ 52) (q + 1) :=
      ⟨by norm_num, by have := hspaced.least; omega, Or.inr le_rfl⟩
    obtain ⟨hmantissa, hexponent⟩ := hcanonical.eq_of_pattern (b := b) (by push_cast at hb ⊢; omega)
    rw [magnitude, ← hmantissa, ← hexponent, two_zpow_add]
    push_cast
    ring

/-- `w` is the value of the double nearest to `v`. -/
def RoundsTo (v w : ℚ) : Prop :=
  ∃ b, Rounds |v| b ∧ w = if v < 0 then -magnitude b else magnitude b

/-- Every value has a nearest double. -/
theorem exists_roundsTo (v : ℚ) : ∃ w, RoundsTo v w := by
  obtain ⟨b, hb, -⟩ := nearestBits_spec v.num.natAbs v.den_pos
  have habs : (v.num.natAbs : ℚ) / v.den = |v| := by
    rw [Nat.cast_natAbs, Int.cast_abs, ← Nat.abs_cast v.den, ← abs_div, Rat.num_div_den]
  exact ⟨_, b, habs ▸ hb, rfl⟩

theorem RoundsTo.nonneg (h : RoundsTo v w) (hv : 0 ≤ v) : ∃ b, Rounds v b ∧ w = magnitude b := by
  obtain ⟨b, hb, rfl⟩ := h
  rw [abs_of_nonneg hv] at hb
  exact ⟨b, hb, if_neg (not_lt.2 hv)⟩

theorem RoundsTo.neg (h : RoundsTo v w) (hv : v < 0) : ∃ b, Rounds (-v) b ∧ w = -magnitude b := by
  obtain ⟨b, hb, rfl⟩ := h
  rw [abs_of_neg hv] at hb
  exact ⟨b, hb, if_pos hv⟩

/-- **Rounding keeps the order**, on both sides of zero. -/
theorem RoundsTo.mono {v' w' : ℚ} (h : RoundsTo v w) (h' : RoundsTo v' w') (hle : v ≤ v') :
    w ≤ w' := by
  obtain hneg | hnonneg := lt_or_ge v 0
  · obtain ⟨b, hb, rfl⟩ := h.neg hneg
    obtain hneg' | hnonneg' := lt_or_ge v' 0
    · obtain ⟨c, hc, rfl⟩ := h'.neg hneg'
      have := magnitude_le (hc.mono hb (by linarith))
      linarith
    · obtain ⟨c, hc, rfl⟩ := h'.nonneg hnonneg'
      have := magnitude_nonneg b
      have := magnitude_nonneg c
      linarith
  · obtain ⟨b, hb, rfl⟩ := h.nonneg hnonneg
    obtain ⟨c, hc, rfl⟩ := h'.nonneg (hnonneg.trans hle)
    exact magnitude_le (hb.mono hc hle)

/-- **Rounding moves a value by half a unit at most.** -/
theorem RoundsTo.error (h : RoundsTo v w) (hq : -1074 ≤ q) (hv : |v| < 2 ^ (q + 53)) :
    |v - w| ≤ 2 ^ q / 2 := by
  obtain ⟨b, hb, rfl⟩ := h
  obtain ⟨r, m, hspaced, hnearest, hmagnitude⟩ := hb.exists_units
  have hr : r ≤ q := by
    obtain hleast | habove := hspaced.above
    · omega
    · have := (zpow_lt_zpow_iff_right₀ (by norm_num : (1 : ℚ) < 2)).1 (habove.trans_lt hv)
      omega
  have hunit := two_zpow_pos r
  have hclose : |(|v|) - magnitude b| ≤ 2 ^ r / 2 := by
    obtain ⟨hlow, hhigh⟩ := hnearest.bounds
    rw [le_div_iff₀ hunit] at hlow
    rw [div_le_iff₀ hunit] at hhigh
    rw [hmagnitude, abs_le]
    constructor <;> linarith
  have hsign : |v - if v < 0 then -magnitude b else magnitude b| = |(|v|) - magnitude b| := by
    split_ifs with hneg
    · rw [abs_of_neg hneg, ← abs_neg]
      congr 1
      ring
    · rw [abs_of_nonneg (not_lt.1 hneg)]
  rw [hsign]
  have := two_zpow_le hr
  linarith

/-- Whole numbers of up to 53 binary digits are doubles. -/
theorem RoundsTo.eq_of_int {i : ℤ} (h : RoundsTo i w) (hi : i.natAbs < 2 ^ 53) : w = i := by
  obtain ⟨b, hb, rfl⟩ := h
  have habs : |(i : ℚ)| = (i.natAbs : ℕ) := by rw [Nat.cast_natAbs, Int.cast_abs]
  have hmagnitude : magnitude b = |(i : ℚ)| := by
    obtain ⟨q, m, hspaced, hnearest, hmagnitude⟩ := hb.exists_units
    have hq : q ≤ 0 := by
      obtain hleast | habove := hspaced.above
      · omega
      · have hlt : |(i : ℚ)| < 2 ^ (53 : ℤ) := by
          rw [habs]
          exact_mod_cast hi
        have := (zpow_lt_zpow_iff_right₀ (by norm_num : (1 : ℚ) < 2)).1 (habove.trans_lt hlt)
        omega
    -- in units of the spacing the number is whole, so nothing is rounded
    have hwhole : |(i : ℚ)| / 2 ^ q = (i.natAbs * 2 ^ (-q).toNat : ℕ) := by
      rw [habs, div_eq_mul_inv, ← zpow_neg]
      push_cast
      rw [← zpow_natCast]
      congr 2
      omega
    rw [hwhole] at hnearest
    rw [hmagnitude, hnearest.unique (nearest_self _), ← hwhole,
      div_mul_cancel₀ _ (two_zpow_pos q).ne']
  rw [hmagnitude]
  split_ifs with hneg
  · rw [abs_of_neg hneg, neg_neg]
  · rw [abs_of_nonneg (not_lt.1 hneg)]

/-! ## Doubles -/

/-- The sign is a minus. -/
def isMinus : Sign → Bool
  | .negative => true
  | .positive => false

/-- The sign that is a minus or none. -/
def signIf (negative : Bool) : Sign :=
  if negative then .negative else .positive

theorem eq_signed_of_toNat {x : Float}
    (h : x.toBits.toNat = signDigit s * 2 ^ 63 + min b (2047 * 2 ^ 52)) :
    x = signed (isMinus s) (min b (2047 * 2 ^ 52)) := by
  refine Number.toBits_injective (UInt64.toNat.inj ?_)
  rw [h, toNat_toBits_signed (Nat.min_le_right _ _)]
  cases s <;> simp [signDigit, word, isMinus]

theorem mantissaOf_eq_zero : mantissaOf b = 0 ↔ b = 0 := by
  unfold mantissaOf
  split <;> omega

theorem magnitude_zero : magnitude 0 = 0 := by
  simp [magnitude, mantissaOf]

/-- Both zeros are worth nothing. -/
theorem eq_zero_of_pattern (hv : (if negative then -magnitude 0 else magnitude 0) = v) : v = 0 := by
  rw [← hv, magnitude_zero, neg_zero, ite_self]

/-- The remainder of a division tells where the quotient lies. -/
theorem places_fraction (m : ℕ) (hn : 0 < n) :
    Places (m / n) (m / n : ℚ) (accuracyOfFraction (m % n) n) := by
  have hn' : (0 : ℚ) < n := by exact_mod_cast hn
  have hsplit : (m : ℚ) / n = (m / n : ℕ) + (m % n : ℕ) / n := by
    have := Nat.div_add_mod m n
    field_simp
    exact_mod_cast this.symm
  have hlt : ((m % n : ℕ) : ℚ) / n < 1 := by
    rw [div_lt_one hn']
    exact_mod_cast Nat.mod_lt m hn
  rw [hsplit]
  generalize m / n = whole
  generalize m % n = rest at *
  unfold accuracyOfFraction
  split
  · next hzero => simp [Places, hzero]
  · next hne =>
    have hpos : (0 : ℚ) < rest / n := by
      have : (0 : ℚ) < rest := by exact_mod_cast Nat.pos_of_ne_zero hne
      positivity
    -- twice the rest against the divisor is the fraction against a half
    have htwice : (2 : ℚ) * (rest / n) = ((2 * rest : ℕ) : ℚ) / n := by
      push_cast
      ring
    obtain hcompare | hcompare | hcompare := Nat.lt_trichotomy (2 * rest) n
    · have : ((2 * rest : ℕ) : ℚ) / n < 1 := by
        rw [div_lt_one hn']
        exact_mod_cast hcompare
      rw [Nat.compare_eq_lt.2 hcompare]
      exact ⟨by linarith, by linarith⟩
    · have : ((2 * rest : ℕ) : ℚ) / n = 1 := by
        rw [div_eq_one_iff_eq hn'.ne']
        exact_mod_cast hcompare
      rw [Nat.compare_eq_eq.2 hcompare]
      change _ = _
      linarith
    · have : 1 < ((2 * rest : ℕ) : ℚ) / n := by
        rw [one_lt_div hn']
        exact_mod_cast hcompare
      rw [Nat.compare_eq_gt.2 hcompare]
      exact ⟨by linarith, by linarith⟩

/-- A quotient is computed to enough digits. -/
theorem divCore_spec {m₁ m₂ : ℕ} (h₁ : 0 < m₁) (h₂ : 0 < m₂) (e₁ e₂ : ℤ) :
    ∃ m e a, divCore Format.binary64 m₁ e₁ m₂ e₂ = (m, e, a) ∧
      Places m (m₁ * 2 ^ e₁ / (m₂ * 2 ^ e₂) / 2 ^ e) a ∧ e ≤ target m e := by
  have hgoal : Format.binary64.targetExponent (totalExponent m₁ e₁ - totalExponent m₂ e₂) =
      max (m₁.log2 + e₁ - (m₂.log2 + e₂) - 53) (-1074) := by
    have hbits : Format.binary64.mantissaBits = 53 := rfl
    have hleast : Format.binary64.minExponent = -1074 := rfl
    rw [Format.targetExponent, totalExponent, totalExponent, hbits, hleast]
    push_cast
    congr 1
    omega
  rw [divCore, hgoal]
  generalize he : min (e₁ - e₂) (max (m₁.log2 + e₁ - (m₂.log2 + e₂) - 53) (-1074)) = e
  generalize hk : (e₁ - e₂ - e).toNat = k
  refine ⟨_, _, _, rfl, ?_, ?_⟩
  · have hvalue : (m₁ : ℚ) * 2 ^ e₁ / (m₂ * 2 ^ e₂) / 2 ^ e = (m₁ <<< k : ℕ) / m₂ := by
      have hpower : (2 : ℚ) ^ e₁ = 2 ^ e₂ * 2 ^ e * 2 ^ k := by
        rw [← two_zpow_add, ← zpow_natCast, ← two_zpow_add]
        congr 1
        omega
      have := two_zpow_pos e₂
      have := two_zpow_pos e
      have hm₂ : (0 : ℚ) < m₂ := by exact_mod_cast h₂
      rw [hpower, Nat.shiftLeft_eq]
      push_cast
      field_simp
    rw [hvalue]
    exact places_fraction _ h₂
  · by_cases hleast : e ≤ -1074
    · unfold target
      omega
    · -- the quotient has at least 53 digits
      have hdigits : 52 ≤ (m₁ <<< k / m₂).log2 := by
        have hlow := Nat.log2_self_le h₁.ne'
        have hhigh := Nat.lt_log2_self (n := m₂)
        have hlarge : 2 ^ 52 * m₂ ≤ m₁ <<< k := by
          calc 2 ^ 52 * m₂ ≤ 2 ^ 52 * 2 ^ (m₂.log2 + 1) := Nat.mul_le_mul_left _ hhigh.le
            _ = 2 ^ (52 + (m₂.log2 + 1)) := (Nat.pow_add _ _ _).symm
            _ ≤ 2 ^ (m₁.log2 + k) := Nat.pow_le_pow_right (by decide) (by omega)
            _ = 2 ^ m₁.log2 * 2 ^ k := Nat.pow_add _ _ _
            _ ≤ m₁ * 2 ^ k := Nat.mul_le_mul_right _ hlow
            _ = m₁ <<< k := (Nat.shiftLeft_eq _ _).symm
        have hquotient : 2 ^ 52 ≤ m₁ <<< k / m₂ := (Nat.le_div_iff_mul_le h₂).2 hlarge
        rw [Nat.le_log2 (by positivity)]
        exact hquotient
      unfold target
      omega

/-- A double is the one nearest to a value if it has its sign and the
nearest pattern. -/
theorem exists_value?_of_sign {y : Float} (hround : Rounds |v| b) (hv : |v| ≤ 2 ^ 64)
    (hy : y.toBits.toNat = signDigit s * 2 ^ 63 + min b (2047 * 2 ^ 52))
    (hneg : v < 0 → s = .negative) (hpos : 0 < v → s = .positive) :
    ∃ z, value? y = some z ∧ RoundsTo v z := by
  have hb := hround.finite hv
  refine ⟨_, ?_, b, hround, rfl⟩
  rw [eq_signed_of_toNat hy, Nat.min_eq_left hb.le, value?_signed hb]
  obtain hlt | rfl | hgt := lt_trichotomy v 0
  · rw [hneg hlt, if_pos hlt]
    rfl
  · -- both zeros are worth nothing
    obtain rfl : b = 0 := hround.unique (by simpa using rounds_zero)
    simp [magnitude_zero]
  · rw [hpos hgt, if_neg (not_lt.2 hgt.le)]
    rfl

/-- A double is the one nearest to its own value, and has its sign. -/
theorem sign_of_value (hv : (if negative then -magnitude b else magnitude b) = v) :
    Rounds |v| b ∧ (v < 0 → signIf negative = .negative) ∧ (0 < v → signIf negative = .positive) := by
  have hnonneg := magnitude_nonneg b
  subst hv
  cases negative with
  | true =>
    simp only [if_true, abs_neg, abs_of_nonneg hnonneg]
    exact ⟨rounds_magnitude b, fun _ => rfl, fun h => absurd h (by linarith)⟩
  | false =>
    simp only [Bool.false_eq_true, if_false, abs_of_nonneg hnonneg]
    exact ⟨rounds_magnitude b, fun h => absurd h (by linarith), fun _ => rfl⟩

/-- The sign of a quotient. -/
theorem sign_of_quotient (hv : (if negative then -magnitude b else magnitude b) = v)
    (hw : (if negative' then -magnitude c else magnitude c) = w) :
    |v / w| = magnitude b / magnitude c ∧
      (v / w < 0 → signIf negative / signIf negative' = .negative) ∧
      (0 < v / w → signIf negative / signIf negative' = .positive) := by
  have hnonneg : 0 ≤ magnitude b / magnitude c :=
    div_nonneg (magnitude_nonneg b) (magnitude_nonneg c)
  subst hv hw
  cases negative <;> cases negative' <;>
    simp only [Bool.false_eq_true, if_true, if_false, neg_div, div_neg, abs_neg,
      abs_of_nonneg hnonneg, true_and]
  case false.false => exact ⟨fun h => absurd h (by linarith), fun _ => rfl⟩
  case false.true => exact ⟨fun _ => rfl, fun h => absurd h (by linarith)⟩
  case true.false => exact ⟨fun _ => rfl, fun h => absurd h (by linarith)⟩
  case true.true => exact ⟨fun h => absurd h (by linarith), fun _ => rfl⟩

/-- **The quotient of two doubles** is the double nearest to the exact
quotient. -/
theorem div_spec {x y : Float} (hx : value? x = some v) (hy : value? y = some w) (hw : w ≠ 0)
    (hsmall : |v / w| ≤ 2 ^ 64) : ∃ z, value? (x / y) = some z ∧ RoundsTo (v / w) z := by
  obtain ⟨negative, b, hb, rfl⟩ := exists_signed_of_value hx
  obtain ⟨negative', c, hc, rfl⟩ := exists_signed_of_value hy
  rw [value?_signed hb, Option.some.injEq] at hx
  rw [value?_signed hc, Option.some.injEq] at hy
  obtain ⟨habs, hneg, hpos⟩ := sign_of_quotient hx hy
  have hc0 : mantissaOf c ≠ 0 := by
    rw [Ne, mantissaOf_eq_zero]
    rintro rfl
    exact hw (eq_zero_of_pattern hy)
  have hbits : (signed negative b / signed negative' c).toBits.toNat =
      (UnpackedFloat.pack Format.binary64 (UnpackedFloat.div Format.binary64
        (signed negative b).toModel.unpack (signed negative' c).toModel.unpack)).toNat := rfl
  rw [unpack_signed hb, unpack_signed hc] at hbits
  change _ = (UnpackedFloat.pack Format.binary64 (UnpackedFloat.div Format.binary64
    (ofParts (signIf negative) _ _) (ofParts (signIf negative') _ _))).toNat at hbits
  rw [ofParts, ofParts, dif_neg hc0] at hbits
  by_cases hb0 : mantissaOf b = 0
  · rw [dif_pos hb0] at hbits
    refine exists_value?_of_sign (b := 0) ?_ hsmall (hbits.trans ?_) hneg hpos
    · rw [habs, mantissaOf_eq_zero.1 hb0, magnitude_zero, zero_div]
      exact rounds_zero
    · exact toNat_pack_ofParts (canonical_pattern 0) (pattern_eq 0)
  · rw [dif_neg hb0] at hbits
    obtain ⟨m, e, a, hcore, hplaces, he⟩ := divCore_spec (Nat.pos_of_ne_zero hb0)
      (Nat.pos_of_ne_zero hc0) (exponentOf b) (exponentOf c)
    obtain ⟨d, hd, hpack⟩ := exists_pack_eq (signIf negative / signIf negative') hplaces he
    refine exists_value?_of_sign (by rw [habs]; exact hd) hsmall (hbits.trans ?_) hneg hpos
    delta UnpackedFloat.div
    dsimp only
    rw [hcore]
    exact hpack

/-- A sum is known by its sign and the double nearest to its magnitude. -/
theorem exists_normalize_eq (M : ℤ) (e : ℤ) (zero : Sign) :
    ∃ b s, Rounds |M * 2 ^ e| b ∧ (M < 0 → s = .negative) ∧ (0 < M → s = .positive) ∧
      (UnpackedFloat.pack Format.binary64 (normalize Format.binary64 M e zero)).toNat =
        signDigit s * 2 ^ 63 + min b (2047 * 2 ^ 52) := by
  have habs : |(M : ℚ) * 2 ^ e| = (M.natAbs : ℕ) * 2 ^ e := by
    rw [abs_mul, abs_of_pos (two_zpow_pos e), Nat.cast_natAbs, Int.cast_abs]
  rw [habs]
  unfold UnpackedFloat.normalize
  obtain hlt | rfl | hgt := lt_trichotomy M 0
  · obtain ⟨b, hb, hpack⟩ := exists_round_eq .negative (Int.natAbs_pos.2 hlt.ne) e
    refine ⟨b, .negative, hb, fun _ => rfl, fun h => absurd h (by omega), ?_⟩
    rw [Int.compare_eq_lt.2 hlt, show (-M).toNat = M.natAbs by omega]
    exact hpack
  · refine ⟨0, zero, ?_, fun h => absurd h (by omega), fun h => absurd h (by omega), ?_⟩
    · simpa using rounds_zero
    · exact toNat_pack_ofParts (canonical_pattern 0) (pattern_eq 0)
  · obtain ⟨b, hb, hpack⟩ := exists_round_eq .positive (Int.natAbs_pos.2 hgt.ne') e
    refine ⟨b, .positive, hb, fun h => absurd h (by omega), fun _ => rfl, ?_⟩
    rw [Int.compare_eq_gt.2 hgt, show M.toNat = M.natAbs by omega]
    exact hpack

/-- The value of a double by its mantissa. -/
theorem value_eq_apply (negative : Bool) (b : ℕ) :
    (if negative then -magnitude b else magnitude b) =
      ((signIf negative).apply (mantissaOf b) : ℤ) * 2 ^ exponentOf b := by
  cases negative <;> simp [magnitude, signIf, Sign.apply]

/-- Bringing a mantissa to a smaller exponent keeps the value. -/
theorem apply_shiftLeft (s : Sign) (m : ℕ) (h : q ≤ e) :
    ((s.apply (m <<< (e - q).toNat : ℕ) : ℤ) : ℚ) * 2 ^ q = (s.apply m : ℤ) * 2 ^ e := by
  have hpower : (2 : ℚ) ^ e = 2 ^ (e - q).toNat * 2 ^ q := by
    rw [← zpow_natCast, ← two_zpow_add]
    congr 1
    omega
  rw [hpower, Nat.shiftLeft_eq]
  cases s <;>
    · simp only [Sign.apply]
      push_cast
      ring

/-- The sum of two doubles of which none is zero: both mantissas are
brought to the smaller exponent and added exactly. -/
theorem add_finite_spec (hb0 : b ≠ 0) (hc0 : c ≠ 0)
    (hv : (if negative then -magnitude b else magnitude b) = v)
    (hw : (if negative' then -magnitude c else magnitude c) = w) :
    ∃ d s, Rounds |v + w| d ∧ (v + w < 0 → s = .negative) ∧ (0 < v + w → s = .positive) ∧
      (UnpackedFloat.pack Format.binary64 (UnpackedFloat.add Format.binary64
        (ofParts (signIf negative) (mantissaOf b) (exponentOf b))
        (ofParts (signIf negative') (mantissaOf c) (exponentOf c)))).toNat =
          signDigit s * 2 ^ 63 + min d (2047 * 2 ^ 52) := by
  rw [ofParts, ofParts, dif_neg (mt mantissaOf_eq_zero.1 hb0),
    dif_neg (mt mantissaOf_eq_zero.1 hc0)]
  delta UnpackedFloat.add
  dsimp only [decreaseExponent]
  generalize hq : min (exponentOf b) (exponentOf c) = q
  rw [value_eq_apply, ← apply_shiftLeft _ _ (by omega : q ≤ exponentOf b)] at hv
  rw [value_eq_apply, ← apply_shiftLeft _ _ (by omega : q ≤ exponentOf c)] at hw
  obtain ⟨d, s, hround, hneg, hpos, hpack⟩ := exists_normalize_eq
    ((signIf negative).apply (mantissaOf b <<< (exponentOf b - q).toNat : ℕ) +
      (signIf negative').apply (mantissaOf c <<< (exponentOf c - q).toNat : ℕ)) q .positive
  have hsum : (((signIf negative).apply (mantissaOf b <<< (exponentOf b - q).toNat : ℕ) +
      (signIf negative').apply (mantissaOf c <<< (exponentOf c - q).toNat : ℕ) : ℤ) : ℚ) * 2 ^ q =
        v + w := by
    rw [← hv, ← hw]
    push_cast
    ring
  have hunit := two_zpow_pos q
  refine ⟨d, s, hsum ▸ hround, fun h => hneg ?_, fun h => hpos ?_, hpack⟩
  · rw [← hsum] at h
    exact_mod_cast (neg_of_mul_neg_left h hunit.le)
  · rw [← hsum] at h
    exact_mod_cast (pos_of_mul_pos_left h hunit.le)

/-- **The sum of two doubles** is the double nearest to the exact sum. -/
theorem add_spec {x y : Float} (hx : value? x = some v) (hy : value? y = some w)
    (hsmall : |v + w| ≤ 2 ^ 64) : ∃ z, value? (x + y) = some z ∧ RoundsTo (v + w) z := by
  obtain ⟨negative, b, hb, rfl⟩ := exists_signed_of_value hx
  obtain ⟨negative', c, hc, rfl⟩ := exists_signed_of_value hy
  rw [value?_signed hb, Option.some.injEq] at hx
  rw [value?_signed hc, Option.some.injEq] at hy
  suffices h : ∃ d s, Rounds |v + w| d ∧ (v + w < 0 → s = .negative) ∧ (0 < v + w → s = .positive) ∧
      (signed negative b + signed negative' c).toBits.toNat =
        signDigit s * 2 ^ 63 + min d (2047 * 2 ^ 52) by
    obtain ⟨d, s, hround, hneg, hpos, hbits⟩ := h
    exact exists_value?_of_sign hround hsmall hbits hneg hpos
  have hbits : (signed negative b + signed negative' c).toBits.toNat =
      (UnpackedFloat.pack Format.binary64 (UnpackedFloat.add Format.binary64
        (signed negative b).toModel.unpack (signed negative' c).toModel.unpack)).toNat := rfl
  rw [unpack_signed hb, unpack_signed hc] at hbits
  change _ = (UnpackedFloat.pack Format.binary64 (UnpackedFloat.add Format.binary64
    (ofParts (signIf negative) _ _) (ofParts (signIf negative') _ _))).toNat at hbits
  rw [hbits]
  by_cases hb0 : b = 0
  · subst hb0
    rw [eq_zero_of_pattern hx, zero_add]
    by_cases hc0 : c = 0
    · -- of two zeros only the sign is in question
      subst hc0
      rw [eq_zero_of_pattern hy]
      cases negative <;> cases negative' <;>
        exact ⟨0, _, by simpa using rounds_zero, fun h => absurd h (lt_irrefl _),
          fun h => absurd h (lt_irrefl _),
          toNat_pack_ofParts (canonical_pattern 0) (pattern_eq 0)⟩
    · obtain ⟨hround, hneg, hpos⟩ := sign_of_value hy
      refine ⟨c, signIf negative', hround, hneg, hpos, ?_⟩
      rw [← toNat_pack_ofParts (canonical_pattern c) (pattern_eq c), ofParts, ofParts,
        dif_pos (mantissaOf_eq_zero.2 rfl), dif_neg (mt mantissaOf_eq_zero.1 hc0)]
      rfl
  · by_cases hc0 : c = 0
    · subst hc0
      obtain ⟨hround, hneg, hpos⟩ := sign_of_value hx
      rw [eq_zero_of_pattern hy, add_zero]
      refine ⟨b, signIf negative, hround, hneg, hpos, ?_⟩
      rw [← toNat_pack_ofParts (canonical_pattern b) (pattern_eq b), ofParts, ofParts,
        dif_pos (mantissaOf_eq_zero.2 rfl), dif_neg (mt mantissaOf_eq_zero.1 hb0)]
      rfl
    · exact add_finite_spec hb0 hc0 hx hy

end SecureReview.Number
