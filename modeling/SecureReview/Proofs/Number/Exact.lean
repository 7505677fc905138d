import SecureReview.Number.Num
import SecureReview.Proofs.Number.Shortest
/-!
# Exact values of numbers

A whole number and a finite double have an exact value, and numbers are
compared by it (`order_iff`). A finite double is told by its
**value**, but for zero, of which there are two (`eq_iff_value`).
-/

namespace SecureReview

variable {v w : ℚ}

namespace Number

variable {m b : ℕ} {q : ℤ} {negative : Bool} {x y : Float}

/-- The value of a sign and a magnitude. -/
def value (negative : Bool) (m : ℕ) (q : ℤ) : ℚ :=
  if negative then -(m * 2 ^ q) else m * 2 ^ q

/-- The value of a finite double. -/
def value? (x : Float) : Option ℚ :=
  match parts x with
  | .finite negative m q => some (value negative m q)
  | _ => none

/-- The double has a minus sign. -/
def isNegative (x : Float) : Bool :=
  match parts x with
  | .finite negative _ _ => negative
  | .infinite negative => negative
  | .notANumber => false

/-- The magnitude of a pattern. -/
def magnitude (b : ℕ) : ℚ :=
  mantissaOf b * 2 ^ exponentOf b

theorem rounds_magnitude (b : ℕ) : Rounds (magnitude b) b :=
  rounds_self (canonical_pattern b) (pattern_eq b)

theorem magnitude_inj {b c : ℕ} (h : magnitude b = magnitude c) : b = c :=
  (rounds_magnitude b).unique (h ▸ rounds_magnitude c)

theorem value?_signed (hb : b < 2047 * 2 ^ 52) :
    value? (signed negative b) = some (if negative then -magnitude b else magnitude b) := by
  simp only [value?, parts_signed hb, value, magnitude]

/-- A finite double by its sign and pattern. -/
theorem exists_signed_of_value (h : value? x = some v) :
    ∃ negative b, b < 2047 * 2 ^ 52 ∧ x = signed negative b := by
  obtain rfl | ⟨negative, b, hb, rfl⟩ := exists_signed x
  · rw [value?, parts_nan] at h
    cases h
  obtain hlt | rfl := Nat.lt_or_eq_of_le hb
  · exact ⟨negative, b, hlt, rfl⟩
  · rw [value?, parts_infinite] at h
    cases h

theorem magnitude_nonneg (b : ℕ) : 0 ≤ magnitude b :=
  mul_nonneg (Nat.cast_nonneg _) (two_zpow_pos _).le

/-- **A finite double is told by its value**, and zero by its sign too. -/
theorem eq_iff_value (hx : value? x = some v) (hy : value? y = some w) :
    x = y ↔ v = w ∧ (v = 0 → isNegative x = isNegative y) := by
  constructor
  · rintro rfl
    exact ⟨Option.some.inj (hx.symm.trans hy), fun _ => rfl⟩
  · rintro ⟨rfl, hsign⟩
    obtain ⟨negative, b, hb, rfl⟩ := exists_signed_of_value hx
    obtain ⟨negative', c, hc, rfl⟩ := exists_signed_of_value hy
    rw [value?_signed hb, Option.some.injEq] at hx
    rw [value?_signed hc, Option.some.injEq] at hy
    simp only [isNegative, parts_signed hb, parts_signed hc] at hsign
    have hb0 := magnitude_nonneg b
    have hc0 := magnitude_nonneg c
    -- a value of the other sign is zero, and there the signs are the same
    have hnegative : negative = negative' := by
      cases negative <;> cases negative' <;> simp at hx hy hsign ⊢ <;> exact hsign (by linarith)
    subst hnegative
    have hmagnitude : magnitude b = magnitude c := by
      cases negative <;> simp at hx hy <;> linarith
    rw [magnitude_inj hmagnitude]

end Number

namespace Num

variable {a b : Num}

/-- The value of a number; the special doubles have none. -/
def value? : Num → Option ℚ
  | .int n => some n
  | .float x => Number.value? x

/-- The value of the exact parts. -/
theorem parts_of_value (h : a.value? = some v) :
    ∃ negative m q, a.parts = .finite negative m q ∧ v = Number.value negative m q := by
  cases a with
  | int n =>
    refine ⟨decide (n < 0), n.natAbs, 0, rfl, ?_⟩
    obtain rfl : (n : ℚ) = v := by simpa [value?] using h
    unfold Number.value
    by_cases hn : n < 0
    · obtain ⟨k, rfl⟩ : ∃ k : ℕ, n = -k := ⟨n.natAbs, by omega⟩
      simp
    · obtain ⟨k, rfl⟩ : ∃ k : ℕ, n = k := ⟨n.natAbs, by omega⟩
      simp
  | float x =>
    simp only [value?, Number.value?] at h
    split at h
    · exact ⟨_, _, _, by assumption, (Option.some.inj h).symm⟩
    · cases h

/-- Quotients are compared by cross multiplication. -/
theorem cross_iff {m n : ℤ} {d e : ℕ} (hd : 0 < d) (he : 0 < e) :
    (m * (e : ℤ) < n * (d : ℤ) ↔ (m : ℚ) / d < n / e) ∧
      (m * (e : ℤ) = n * (d : ℤ) ↔ (m : ℚ) / d = n / e) := by
  have hd' : (0 : ℚ) < d := by exact_mod_cast hd
  have he' : (0 : ℚ) < e := by exact_mod_cast he
  constructor
  · rw [div_lt_div_iff₀ hd' he']
    exact_mod_cast Iff.rfl
  · rw [div_eq_div_iff hd'.ne' he'.ne']
    exact_mod_cast Iff.rfl

theorem compareParts_finite (s t : Bool) (m n : ℕ) (q r : ℤ) : ∃ i j : ℤ,
    compareParts (.finite s m q) (.finite t n r) = some (compare i j) ∧
      (i < j ↔ Number.value s m q < Number.value t n r) ∧
      (i = j ↔ Number.value s m q = Number.value t n r) := by
  have hvalue (s : Bool) (m : ℕ) (q : ℤ) : Number.value s m q =
      ((if s then -((Number.quotient m q).1 : ℤ) else ((Number.quotient m q).1 : ℤ) : ℤ) : ℚ) /
        (Number.quotient m q).2 := by
    rw [Number.value, ← Number.quotient_ratio]
    cases s <;> simp [neg_div]
  have hcross := @cross_iff (if s then -((Number.quotient m q).1 : ℤ) else (Number.quotient m q).1)
    (if t then -((Number.quotient n r).1 : ℤ) else (Number.quotient n r).1) _ _
    (@Number.quotient_pos m q) (@Number.quotient_pos n r)
  rw [← hvalue, ← hvalue] at hcross
  exact ⟨_, _, rfl, hcross.1, hcross.2⟩

/-- **Numbers are compared by value.** -/
theorem order_iff (ha : a.value? = some v) (hb : b.value? = some w) :
    (a.order b = some .lt ↔ v < w) ∧ (a.order b = some .eq ↔ v = w) := by
  obtain ⟨i, j, horder, hlt, heq⟩ : ∃ i j : ℤ, a.order b = some (compare i j) ∧
      (i < j ↔ v < w) ∧ (i = j ↔ v = w) := by
    obtain ⟨s, m, q, hparts, rfl⟩ := parts_of_value ha
    obtain ⟨t, n, r, hparts', rfl⟩ := parts_of_value hb
    have hvalues := compareParts_finite s t m n q r
    rw [← hparts, ← hparts'] at hvalues
    cases a with
    | float x => exact hvalues
    | int i =>
      cases b with
      | float y => exact hvalues
      | int j =>
        rw [← Option.some.inj ha, ← Option.some.inj hb]
        exact ⟨i, j, rfl, by exact_mod_cast Iff.rfl, by exact_mod_cast Iff.rfl⟩
  rw [horder, ← hlt, ← heq]
  simp [compare_lt_iff_lt]

theorem le_iff (ha : a.value? = some v) (hb : b.value? = some w) : a.le b = true ↔ v ≤ w := by
  rw [le, Bool.or_eq_true, beq_iff_eq, beq_iff_eq, (order_iff ha hb).1, (order_iff ha hb).2,
    le_iff_lt_or_eq]

end Num

end SecureReview
