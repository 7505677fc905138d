import Mathlib.Algebra.Order.Field.Power
import Mathlib.Algebra.Order.Field.Rat
import Mathlib.Tactic.FieldSimp
import Mathlib.Tactic.Linarith
import Mathlib.Tactic.NormNum
import Mathlib.Tactic.Positivity
import Mathlib.Tactic.Ring
import SecureReview.Number.Binary
/-!
# Rounding to the nearest double

What it means that a double is the one nearest to a magnitude. The bit
patterns of the finite magnitudes count the doubles from zero on, so
that the double is told by one number: with doubles `2 ^ q` apart and
`m` units of that size, it is `(q + 1074) * 2 ^ 52 + m`, for normal and
subnormal numbers alike. `Rounds` says so without any computation, it
**keeps the order** (`Rounds.mono`), and `nearestBits` computes it
(`nearestBits_spec`). A magnitude that lies between the halfway points
around a double rounds to that double (`rounds_of_between`).
-/

namespace SecureReview.Number

variable {x y v w : ℚ} {m n b c num den : ℕ} {q r : ℤ}

theorem twoTo_eq (k : ℕ) : twoTo k = 2 ^ k := rfl

theorem tenTo_eq (k : ℕ) : tenTo k = 10 ^ k := rfl

theorem two_zpow_pos (q : ℤ) : (0 : ℚ) < 2 ^ q :=
  zpow_pos (by norm_num) q

theorem two_zpow_le (h : q ≤ r) : (2 : ℚ) ^ q ≤ 2 ^ r :=
  zpow_le_zpow_right₀ (by norm_num) h

theorem two_zpow_add (q r : ℤ) : (2 : ℚ) ^ (q + r) = 2 ^ q * 2 ^ r :=
  zpow_add₀ (by norm_num) q r

/-! ## Whole numbers -/

/-- `m` is the whole number nearest to `x`, the even one of two. -/
def Nearest (x : ℚ) (m : ℕ) : Prop :=
  |x - m| < 1 / 2 ∨ |x - m| = 1 / 2 ∧ m % 2 = 0

theorem nearest_self (m : ℕ) : Nearest m m := by
  left
  simp

theorem Nearest.bounds (h : Nearest x m) : (m : ℚ) - 1 / 2 ≤ x ∧ x ≤ m + 1 / 2 := by
  have habs : |x - m| ≤ 1 / 2 := by
    obtain h | ⟨h, -⟩ := h
    · exact h.le
    · exact h.le
  rw [abs_le] at habs
  constructor <;> linarith

/-- **Rounding keeps the order.** -/
theorem Nearest.mono (hm : Nearest x m) (hn : Nearest y n) (h : x ≤ y) : m ≤ n := by
  by_contra hlt
  have hstep : (n : ℚ) + 1 ≤ m := by exact_mod_cast (by omega : n + 1 ≤ m)
  have hx := hm.bounds
  have hy := hn.bounds
  -- both are a half away: a tie between neighbours, of which both would be even
  have hxm : x - m = -(1 / 2) := by linarith
  have hyn : y - n = 1 / 2 := by linarith
  have hmn : m = n + 1 := by exact_mod_cast (by linarith : (m : ℚ) = n + 1)
  have hmeven : m % 2 = 0 := by
    obtain h | ⟨-, h⟩ := hm
    · rw [hxm, abs_neg, abs_of_pos (by norm_num)] at h
      exact absurd h (lt_irrefl _)
    · exact h
  have hneven : n % 2 = 0 := by
    obtain h | ⟨-, h⟩ := hn
    · rw [hyn, abs_of_pos (by norm_num)] at h
      exact absurd h (lt_irrefl _)
    · exact h
  omega

theorem Nearest.unique (hm : Nearest x m) (hn : Nearest x n) : m = n :=
  le_antisymm (hm.mono hn le_rfl) (hn.mono hm le_rfl)

theorem Nearest.le_of_le (h : Nearest x m) (hx : x ≤ n) : m ≤ n :=
  h.mono (nearest_self n) hx

theorem Nearest.ge_of_ge (h : Nearest x m) (hx : (n : ℚ) ≤ x) : n ≤ m :=
  (nearest_self n).mono h hx

/-- The remainder of a division decides on which side of the half it is. -/
theorem nearest_roundHalfEven (hden : 0 < den) :
    Nearest (num / den) (roundHalfEven num den) := by
  have hd : (0 : ℚ) < den := by exact_mod_cast hden
  have hsplit : (num : ℚ) / den = (num / den : ℕ) + (num % den : ℕ) / den := by
    have := Nat.div_add_mod num den
    field_simp
    exact_mod_cast this.symm
  have hfrac : ((num % den : ℕ) : ℚ) / den < 1 := by
    rw [div_lt_one hd]
    exact_mod_cast Nat.mod_lt num hden
  have hnonneg : (0 : ℚ) ≤ ((num % den : ℕ) : ℚ) / den := by positivity
  have htwice : (2 : ℚ) * ((num % den : ℕ) / den) = ((2 * (num % den) : ℕ) : ℚ) / den := by
    push_cast
    ring
  unfold Nearest roundHalfEven
  rw [hsplit]
  generalize num / den = whole at *
  generalize num % den = rest at *
  dsimp only
  split_ifs with hlow hhigh heven
  · left
    have : ((2 * rest : ℕ) : ℚ) / den < 1 := by
      rw [div_lt_one hd]
      exact_mod_cast hlow
    rw [abs_lt]
    constructor <;> linarith
  · left
    have : 1 < ((2 * rest : ℕ) : ℚ) / den := by
      rw [one_lt_div hd]
      exact_mod_cast hhigh
    push_cast
    rw [abs_lt]
    constructor <;> linarith
  all_goals
    right
    have htie : ((2 * rest : ℕ) : ℚ) / den = 1 := by
      rw [div_eq_one_iff_eq hd.ne']
      exact_mod_cast (by omega : 2 * rest = den)
  · refine ⟨?_, by simpa using heven⟩
    rw [abs_of_nonneg] <;> linarith
  · refine ⟨?_, by simp at heven; omega⟩
    push_cast
    rw [abs_of_nonpos] <;> linarith

/-! ## Doubles -/

/-- The doubles around the magnitude `v` are `2 ^ q` apart. -/
structure Spaced (v : ℚ) (q : ℤ) : Prop where
  least : -1074 ≤ q
  below : v < 2 ^ (q + 53)
  above : q = -1074 ∨ (2 : ℚ) ^ (q + 52) ≤ v

/-- The double with the bit pattern `b` is the one nearest to the
magnitude `v`, the even one of two. -/
def Rounds (v : ℚ) (b : ℕ) : Prop :=
  ∃ (q : ℤ) (m : ℕ), Spaced v q ∧ Nearest (v / 2 ^ q) m ∧ (b : ℤ) = (q + 1074) * 2 ^ 52 + m

theorem Spaced.mono (hv : Spaced v q) (hw : Spaced w r) (h : v ≤ w) : q ≤ r := by
  by_contra hlt
  obtain hq | hq := hv.above
  · have := hw.least
    omega
  · have := two_zpow_le (by omega : r + 53 ≤ q + 52)
    have := hw.below
    linarith

theorem Spaced.div_lt (h : Spaced v q) : v / 2 ^ q < (2 ^ 53 : ℕ) := by
  rw [div_lt_iff₀ (two_zpow_pos q)]
  have := h.below
  rw [two_zpow_add, mul_comm] at this
  exact_mod_cast this

theorem Spaced.le_div (h : Spaced v q) (hq : q ≠ -1074) : (2 ^ 52 : ℕ) ≤ v / 2 ^ q := by
  rw [le_div_iff₀ (two_zpow_pos q)]
  have := h.above.resolve_left hq
  rw [two_zpow_add, mul_comm] at this
  exact_mod_cast this

/-- **Rounding to a double keeps the order.** -/
theorem Rounds.mono (hv : Rounds v b) (hw : Rounds w c) (h : v ≤ w) : b ≤ c := by
  obtain ⟨q, m, hq, hm, hb⟩ := hv
  obtain ⟨r, n, hr, hn, hc⟩ := hw
  obtain rfl | hqr := eq_or_lt_of_le (hq.mono hr h)
  · have hmn : m ≤ n := hm.mono hn (div_le_div_of_nonneg_right h (two_zpow_pos q).le)
    omega
  · -- the smaller one stays below the end of its spacing, where the larger one begins
    have hm53 : m ≤ 2 ^ 53 := hm.le_of_le hq.div_lt.le
    have hn52 : 2 ^ 52 ≤ n := by
      have := hq.least
      exact hn.ge_of_ge (hr.le_div (by omega))
    omega

theorem Rounds.unique (hb : Rounds v b) (hc : Rounds v c) : b = c :=
  le_antisymm (hb.mono hc le_rfl) (hc.mono hb le_rfl)

theorem rounds_zero : Rounds 0 0 :=
  ⟨-1074, 0, ⟨le_rfl, two_zpow_pos _, Or.inl rfl⟩, by simpa using nearest_self 0, rfl⟩

/-! ## Mantissa and exponent -/

/-- `m * 2 ^ q` is how a double is kept: with all the bits of a mantissa,
or with the least exponent. -/
structure Canonical (m : ℕ) (q : ℤ) : Prop where
  mantissa : m < 2 ^ 53
  least : -1074 ≤ q
  full : q = -1074 ∨ 2 ^ 52 ≤ m

/-- **Between the halfway points around a double** everything rounds to
it, the halfway points themselves if the mantissa is even. Below a power
of two the next double is only half as far, and so is the halfway point. -/
theorem rounds_of_between (h : Canonical m q) (hb : (b : ℤ) = (q + 1074) * 2 ^ 52 + m)
    (hlow : (m : ℚ) - 1 / 2 ≤ v / 2 ^ q) (hhigh : v / 2 ^ q ≤ m + 1 / 2)
    (hpower : m = 2 ^ 52 → q ≠ -1074 → (m : ℚ) - 1 / 4 ≤ v / 2 ^ q)
    (heven : m % 2 = 0 ∨ (m : ℚ) - 1 / 2 < v / 2 ^ q ∧ v / 2 ^ q < m + 1 / 2) : Rounds v b := by
  have hm53 : (m : ℚ) + 1 ≤ 2 ^ 53 := by exact_mod_cast h.mantissa
  have hscale : v = v / 2 ^ q * 2 ^ q := (div_mul_cancel₀ v (two_zpow_pos q).ne').symm
  have hbelow : v < 2 ^ (q + 53) := by
    rw [two_zpow_add, mul_comm, hscale]
    exact mul_lt_mul_of_pos_right (by norm_num at hm53 ⊢; linarith) (two_zpow_pos q)
  by_cases habove : q = -1074 ∨ (2 : ℚ) ^ (q + 52) ≤ v
  · refine ⟨q, m, ⟨h.least, hbelow, habove⟩, ?_, hb⟩
    obtain heven | ⟨hlow, hhigh⟩ := heven
    · obtain htie | hlt := eq_or_lt_of_le (abs_le.2 ⟨by linarith, by linarith⟩ : |v / 2 ^ q - m| ≤ 1 / 2)
      · exact Or.inr ⟨htie, heven⟩
      · exact Or.inl hlt
    · exact Or.inl (abs_lt.2 ⟨by linarith, by linarith⟩)
  · -- just below a power of two, where the doubles are closer
    rw [not_or, not_le] at habove
    obtain ⟨hq, hlt⟩ := habove
    have hu : v / 2 ^ q < 2 ^ 52 := by
      rw [div_lt_iff₀ (two_zpow_pos q)]
      rw [two_zpow_add, mul_comm] at hlt
      exact_mod_cast hlt
    have hm52 := h.full.resolve_left hq
    have hm : m = 2 ^ 52 := by
      by_contra hne
      have : (2 : ℚ) ^ 52 + 1 ≤ m := by exact_mod_cast (by omega : 2 ^ 52 + 1 ≤ m)
      linarith
    have hclose := hpower hm hq
    have hhalf : v / 2 ^ (q - 1) = 2 * (v / 2 ^ q) := by
      rw [zpow_sub_one₀ (by norm_num)]
      field_simp
    subst hm
    have hleast := h.least
    refine ⟨q - 1, 2 ^ 53, ⟨by omega, by rwa [show q - 1 + 53 = q + 52 by ring], Or.inr ?_⟩, ?_, by omega⟩
    · rw [show q - 1 + 52 = q + 51 by ring, two_zpow_add, mul_comm, hscale]
      refine mul_le_mul_of_nonneg_right ?_ (two_zpow_pos q).le
      norm_num at hclose ⊢
      linarith
    · rw [hhalf]
      norm_num [Nearest] at hclose hu ⊢
      obtain htie | hlt := eq_or_lt_of_le
        (abs_le.2 ⟨by linarith, by linarith⟩ : |2 * (v / 2 ^ q) - 9007199254740992| ≤ 1 / 2)
      · exact Or.inr htie
      · exact Or.inl hlt

/-- **A double rounds to itself.** -/
theorem rounds_self (h : Canonical m q) (hb : (b : ℤ) = (q + 1074) * 2 ^ 52 + m) :
    Rounds (m * 2 ^ q) b := by
  have hunit : (m : ℚ) * 2 ^ q / 2 ^ q = m := mul_div_cancel_right₀ _ (two_zpow_pos q).ne'
  apply rounds_of_between h hb
  all_goals rw [hunit]
  · linarith
  · linarith
  · intro _ _
    linarith
  · right
    constructor <;> linarith

/-! ## The nearest double, computed -/

theorem floorLog2_spec (hnum : 0 < num) (hden : 0 < den) :
    (2 : ℚ) ^ floorLog2 num den ≤ num / den ∧ (num : ℚ) / den < 2 ^ (floorLog2 num den + 1) := by
  have hd : (0 : ℚ) < den := by exact_mod_cast hden
  have hnumlow : (2 : ℚ) ^ num.log2 ≤ num := by exact_mod_cast Nat.log2_self_le hnum.ne'
  have hnumhigh : (num : ℚ) < 2 ^ (num.log2 + 1) := by exact_mod_cast Nat.lt_log2_self
  have hdenlow : (2 : ℚ) ^ den.log2 ≤ den := by exact_mod_cast Nat.log2_self_le hden.ne'
  have hdenhigh : (den : ℚ) < 2 ^ (den.log2 + 1) := by exact_mod_cast Nat.lt_log2_self
  -- the difference of the logarithms is at most one too large
  have hlow : (2 : ℚ) ^ ((num.log2 : ℤ) - den.log2 - 1) ≤ num / den := by
    rw [le_div_iff₀ hd]
    calc (2 : ℚ) ^ ((num.log2 : ℤ) - den.log2 - 1) * den
        ≤ 2 ^ ((num.log2 : ℤ) - den.log2 - 1) * 2 ^ (den.log2 + 1) :=
          mul_le_mul_of_nonneg_left hdenhigh.le (two_zpow_pos _).le
      _ = 2 ^ num.log2 := by
          rw [← zpow_natCast, ← two_zpow_add, ← zpow_natCast]
          congr 1
          push_cast
          ring
      _ ≤ num := hnumlow
  have hhigh : (num : ℚ) / den < 2 ^ ((num.log2 : ℤ) - den.log2 + 1) := by
    rw [div_lt_iff₀ hd]
    calc (num : ℚ) < 2 ^ (num.log2 + 1) := hnumhigh
      _ = 2 ^ ((num.log2 : ℤ) - den.log2 + 1) * 2 ^ den.log2 := by
          rw [← zpow_natCast, ← zpow_natCast, ← two_zpow_add]
          congr 1
          push_cast
          ring
      _ ≤ 2 ^ ((num.log2 : ℤ) - den.log2 + 1) * den :=
          mul_le_mul_of_nonneg_left hdenlow (two_zpow_pos _).le
  unfold floorLog2
  generalize (num.log2 : ℤ) - den.log2 = guess at *
  cases guess with
  | ofNat k =>
    have hcmp : num < den * twoTo k ↔ (num : ℚ) / den < 2 ^ Int.ofNat k := by
      rw [div_lt_iff₀ hd, Int.ofNat_eq_natCast, zpow_natCast, mul_comm]
      exact_mod_cast Iff.rfl
    dsimp only
    split_ifs with h
    · exact ⟨hlow, by rw [sub_add_cancel]; exact hcmp.1 h⟩
    · exact ⟨not_lt.1 (mt hcmp.2 h), hhigh⟩
  | negSucc k =>
    have hcmp : num * twoTo (k + 1) < den ↔ (num : ℚ) / den < 2 ^ Int.negSucc k := by
      rw [div_lt_iff₀ hd, zpow_negSucc, ← div_eq_inv_mul, lt_div_iff₀ (by positivity)]
      exact_mod_cast Iff.rfl
    dsimp only
    split_ifs with h
    · exact ⟨hlow, by rw [sub_add_cancel]; exact hcmp.1 h⟩
    · exact ⟨not_lt.1 (mt hcmp.2 h), hhigh⟩

theorem spaced_floorLog2 (hnum : 0 < num) (hden : 0 < den) :
    Spaced (num / den) (max (-1074) (floorLog2 num den - 52)) := by
  obtain ⟨hlow, hhigh⟩ := floorLog2_spec hnum hden
  refine ⟨le_max_left _ _, ?_, ?_⟩
  · refine hhigh.trans_le (two_zpow_le ?_)
    have := le_max_right (-1074) (floorLog2 num den - 52)
    omega
  · obtain h | h := max_choice (-1074) (floorLog2 num den - 52)
    · exact Or.inl h
    · right
      rw [h, sub_add_cancel]
      exact hlow

/-- The units of `2 ^ q` in a quotient, rounded. -/
def units (num den : ℕ) : ℤ → ℕ
  | .ofNat k => roundHalfEven num (den * twoTo k)
  | .negSucc k => roundHalfEven (num * twoTo (k + 1)) den

theorem nearest_units (num : ℕ) (hden : 0 < den) (q : ℤ) :
    Nearest ((num : ℚ) / den / 2 ^ q) (units num den q) := by
  cases q with
  | ofNat k =>
    have hscale : (num : ℚ) / den / 2 ^ Int.ofNat k = num / (den * twoTo k : ℕ) := by
      rw [Int.ofNat_eq_natCast, zpow_natCast, div_div]
      push_cast [twoTo_eq]
      rfl
    rw [hscale]
    exact nearest_roundHalfEven (Nat.mul_pos hden (Nat.two_pow_pos k))
  | negSucc k =>
    have hscale : (num : ℚ) / den / 2 ^ Int.negSucc k = (num * twoTo (k + 1) : ℕ) / den := by
      rw [zpow_negSucc, div_inv_eq_mul, div_mul_eq_mul_div]
      push_cast [twoTo_eq]
      rfl
    rw [hscale]
    exact nearest_roundHalfEven hden

theorem nearestBits_eq (num den : ℕ) : nearestBits num den =
    if num == 0 then some 0 else
      let q := max (-1074) (floorLog2 num den - 52)
      let m := units num den q
      let bits := if m < twoTo 52 then m else (q + 1075).toNat * twoTo 52 + (m - twoTo 52)
      if bits < 2047 * twoTo 52 then some bits else none :=
  rfl

/-- **The computed double is the nearest one.** Past the finite range
there is none. -/
theorem nearestBits_spec (num : ℕ) (hden : 0 < den) : ∃ b, Rounds (num / den) b ∧
    nearestBits num den = if b < 2047 * 2 ^ 52 then some b else none := by
  by_cases hnum : num = 0
  · refine ⟨0, ?_, ?_⟩
    · simpa [hnum] using rounds_zero
    · simp [nearestBits, hnum]
  have hspaced := spaced_floorLog2 (Nat.pos_of_ne_zero hnum) hden
  have hnearest := nearest_units num hden (max (-1074) (floorLog2 num den - 52))
  rw [nearestBits_eq, if_neg (by simpa using hnum)]
  dsimp only
  generalize max (-1074) (floorLog2 num den - 52) = q at *
  generalize units num den q = m at *
  have hq := hspaced.least
  have hpattern : (((if m < twoTo 52 then m else (q + 1075).toNat * twoTo 52 + (m - twoTo 52)) : ℕ) : ℤ)
      = (q + 1074) * 2 ^ 52 + m := by
    rw [twoTo_eq]
    split_ifs with hm
    · -- fewer than `2 ^ 52` units are there only at the least spacing
      have : q = -1074 := by
        by_contra hne
        have := hnearest.ge_of_ge (hspaced.le_div hne)
        omega
      omega
    · omega
  exact ⟨_, ⟨q, m, hspaced, hnearest, hpattern⟩, rfl⟩

end SecureReview.Number
