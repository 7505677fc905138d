import SecureReview.Number.Decimal
import SecureReview.Proofs.Number.Rounding
/-!
# Doubles and their bit patterns

A double that is a number is told by its sign and the bit pattern of its
magnitude: `signed` makes it, and `parts` takes it apart again into the
mantissa and exponent that the pattern stands for (`parts_signed`).
**There are no other doubles**, but for the one that is not a number
(`exists_signed`). The difference of two finite doubles is never that one
(`isNaN_sub`).
-/

namespace SecureReview.Number

open Float.Model Float.Model.UnpackedFloat

variable {m b : ℕ} {q : ℤ} {s : Sign} {negative : Bool} {x : Float}

/-! ## Fields of a pattern -/

/-- The mantissa that a pattern stands for. -/
def mantissaOf (b : ℕ) : ℕ :=
  if b / 2 ^ 52 = 0 then b else 2 ^ 52 + b % 2 ^ 52

/-- The exponent that a pattern stands for. -/
def exponentOf (b : ℕ) : ℤ :=
  if b / 2 ^ 52 = 0 then -1074 else (b / 2 ^ 52 : ℕ) - 1075

theorem pattern_eq (b : ℕ) : (b : ℤ) = (exponentOf b + 1074) * 2 ^ 52 + mantissaOf b := by
  unfold exponentOf mantissaOf
  split <;> omega

theorem canonical_pattern (b : ℕ) : Canonical (mantissaOf b) (exponentOf b) := by
  unfold exponentOf mantissaOf
  split
  · next h => exact ⟨by omega, by omega, Or.inl rfl⟩
  · next h => exact ⟨by omega, by omega, Or.inr (by omega)⟩

/-- A pattern has only one mantissa and exponent. -/
theorem Canonical.eq_of_pattern (h : Canonical m q) (hb : (b : ℤ) = (q + 1074) * 2 ^ 52 + m) :
    m = mantissaOf b ∧ q = exponentOf b := by
  obtain ⟨hm, hq, hfull⟩ := h
  unfold exponentOf mantissaOf
  split
  · next h => omega
  · next h => omega

/-- The sign as a digit: one for negative. -/
def signDigit : Sign → ℕ
  | .negative => 1
  | .positive => 0

theorem toNat_unpackMantissa (B : BitVec 64) :
    (@unpackMantissa Format.binary64 B).toNat = B.toNat % 2 ^ 52 := by
  simp [unpackMantissa, BitVec.extractLsb, BitVec.extractLsb'_toNat]

theorem toNat_unpackExponent (B : BitVec 64) :
    (@unpackExponent Format.binary64 B).toNat = B.toNat / 2 ^ 52 % 2 ^ 11 := by
  simp [unpackExponent, BitVec.extractLsb, BitVec.extractLsb'_toNat, Nat.shiftRight_eq_div_pow]

theorem toNat_unpackSign (B : BitVec 64) :
    (@unpackSign Format.binary64 B).toNat = B.toNat / 2 ^ 63 := by
  have := B.isLt
  delta unpackSign
  simp only [BitVec.extractLsb, BitVec.toNat_cast, BitVec.extractLsb'_toNat,
    Nat.shiftRight_eq_div_pow]
  omega

theorem toNat_packComponents (s : Sign) (e : BitVec 11) (m : BitVec 52) :
    (packComponents Format.binary64 s e m).toNat =
      signDigit s * 2 ^ 63 + e.toNat * 2 ^ 52 + m.toNat := by
  have := e.isLt
  have := m.isLt
  simp only [packComponents, BitVec.toNat_append]
  rw [← Nat.shiftLeft_add_eq_or_of_lt (by exact m.isLt),
    ← Nat.shiftLeft_add_eq_or_of_lt (by exact e.isLt)]
  simp only [Nat.shiftLeft_eq]
  cases s with
  | negative =>
    simp [Sign.toBitVec, signDigit]
    omega
  | positive => simp [Sign.toBitVec, signDigit]

/-! ## Packing and unpacking -/

/-- The unpacked number with a mantissa that may be zero. -/
def ofParts (s : Sign) (m : ℕ) (q : ℤ) : UnpackedFloat :=
  if h : m = 0 then .zero s else .finite s m q (Nat.pos_of_ne_zero h)

theorem finite_congr {n : ℕ} {r : ℤ} {hm : 0 < m} {hn : 0 < n} (h : m = n) (h' : q = r) :
    UnpackedFloat.finite s m q hm = .finite s n r hn := by
  subst h h'
  rfl

theorem toNat_packedInfinity (s : Sign) :
    (packedInfinity Format.binary64 s).toNat = signDigit s * 2 ^ 63 + 2047 * 2 ^ 52 := by
  cases s <;> rfl

theorem pack_finite (h : 0 < m) : UnpackedFloat.pack Format.binary64 (.finite s m q h) =
    if 2 ^ 11 ≤ (q + 1075).toNat + 1 then packedInfinity Format.binary64 s
    else if m.log2 + 1 = 53 then
      packComponents Format.binary64 s (BitVec.ofNat 11 (q + 1075).toNat) (BitVec.ofNat 52 m)
    else packComponents Format.binary64 s 0#11 (BitVec.ofNat 52 m) := by
  have hbias : q + 1075 = q + (1023 : ℕ) + (52 : ℕ) := by omega
  rw [hbias]
  rfl

/-- **Packing writes the pattern**; one past the finite range is that of
infinity. -/
theorem toNat_pack_ofParts (h : Canonical m q) (hb : (b : ℤ) = (q + 1074) * 2 ^ 52 + m) :
    (UnpackedFloat.pack Format.binary64 (ofParts s m q)).toNat =
      signDigit s * 2 ^ 63 + min b (2047 * 2 ^ 52) := by
  obtain ⟨hm, hq, hfull⟩ := h
  by_cases hne : m = 0
  · have hb0 : b = 0 := by omega
    rw [ofParts, dif_pos hne]
    change (packedZero Format.binary64 s).toNat = _
    rw [packedZero, toNat_packComponents, hb0]
    simp
  · rw [ofParts, dif_neg hne, pack_finite]
    by_cases hlarge : 972 ≤ q
    · rw [if_pos (by omega), toNat_packedInfinity]
      omega
    · rw [if_neg (by omega)]
      by_cases hnormal : 2 ^ 52 ≤ m
      · have hlog : m.log2 = 52 := (Nat.log2_eq_iff hne).2 ⟨hnormal, hm⟩
        rw [if_pos (by omega), toNat_packComponents, BitVec.toNat_ofNat, BitVec.toNat_ofNat]
        omega
      · have hlog : m.log2 < 52 := (Nat.log2_lt hne).2 (by omega)
        rw [if_neg (by omega), toNat_packComponents, BitVec.toNat_ofNat, BitVec.toNat_ofNat]
        omega

/-- The sign of a word. -/
def signOf (n : ℕ) : Sign :=
  if n / 2 ^ 63 = 0 then .positive else .negative

theorem ofBitVec_unpackSign (B : BitVec 64) :
    Sign.ofBitVec (@unpackSign Format.binary64 B) = signOf B.toNat := by
  have htoNat := toNat_unpackSign B
  unfold Sign.ofBitVec signOf
  by_cases h : B.toNat / 2 ^ 63 = 0
  · rw [if_pos h, if_pos (BitVec.eq_of_toNat_eq (by rw [htoNat, h]; rfl))]
  · rw [if_neg h, if_neg]
    intro hzero
    rw [hzero] at htoNat
    exact h htoNat.symm

/-- **Unpacking a number** gives the mantissa and exponent of its pattern. -/
theorem unpack_eq_ofParts (B : BitVec 64) (h : B.toNat % 2 ^ 63 < 2047 * 2 ^ 52) :
    unpack Format.binary64 B =
      ofParts (signOf B.toNat) (mantissaOf (B.toNat % 2 ^ 63)) (exponentOf (B.toNat % 2 ^ 63)) := by
  have hmant := toNat_unpackMantissa B
  have hexp := toNat_unpackExponent B
  have hsign := ofBitVec_unpackSign B
  have hbias : ((Format.binary64.exponentBias : ℕ) : ℤ) = 1023 := rfl
  have hbits : ((Format.binary64.mantissaBitsWithoutImplicit : ℕ) : ℤ) = 52 := rfl
  have hfinite : @unpackExponent Format.binary64 B ≠ -1#_ := by
    intro hall
    rw [hall] at hexp
    change 2047 = _ at hexp
    omega
  delta UnpackedFloat.unpack
  dsimp only
  rw [hsign]
  rw [if_neg hfinite]
  unfold ofParts mantissaOf exponentOf
  by_cases hzero : B.toNat % 2 ^ 63 / 2 ^ 52 = 0
  · have hexp0 : @unpackExponent Format.binary64 B = 0#_ :=
      BitVec.eq_of_toNat_eq (by rw [hexp]; simp; omega)
    have hm : (@unpackMantissa Format.binary64 B).toNat = B.toNat % 2 ^ 63 := by
      rw [hmant]
      omega
    rw [if_pos hexp0, if_pos hzero, if_pos hzero]
    by_cases hm0 : B.toNat % 2 ^ 63 = 0
    · rw [dif_pos hm0, dif_pos (BitVec.eq_of_toNat_eq (by rw [hm, hm0]; rfl))]
    · rw [dif_neg hm0, dif_neg]
      · exact finite_congr hm (by rw [hexp0, hbias, hbits]; rfl)
      · intro hmzero
        rw [hmzero] at hm
        exact hm0 hm.symm
  · have hexp0 : @unpackExponent Format.binary64 B ≠ 0#_ := by
      intro hz
      rw [hz] at hexp
      change 0 = _ at hexp
      omega
    have hm : (1#1 ++ @unpackMantissa Format.binary64 B).toNat =
        2 ^ 52 + B.toNat % 2 ^ 63 % 2 ^ 52 := by
      rw [BitVec.toNat_append, ← Nat.shiftLeft_add_eq_or_of_lt
        (@unpackMantissa Format.binary64 B).isLt, hmant]
      simp only [Nat.shiftLeft_eq, BitVec.toNat_ofNat]
      omega
    have he : ((@unpackExponent Format.binary64 B).toNat : ℤ) -
        (Format.binary64.exponentBias + Format.binary64.mantissaBitsWithoutImplicit) =
        (B.toNat % 2 ^ 63 / 2 ^ 52 : ℕ) - 1075 := by
      rw [hexp, hbias, hbits]
      omega
    rw [if_neg hexp0, dif_neg (by rw [if_neg hzero]; omega)]
    exact finite_congr (hm.trans (if_neg hzero).symm) (he.trans (if_neg hzero).symm)

/-! ## Doubles -/

/-- The word of a sign and a pattern. -/
def word (negative : Bool) (b : ℕ) : ℕ :=
  if negative then 2 ^ 63 + b else b

theorem word_fields (negative : Bool) (hb : b ≤ 2047 * 2 ^ 52) :
    word negative b % 2 ^ 63 = b ∧ word negative b / 2 ^ 63 = negative.toNat ∧
      word negative b / 2 ^ 52 % 2 ^ 11 = b / 2 ^ 52 ∧ word negative b % 2 ^ 52 = b % 2 ^ 52 ∧
      word negative b < 2 ^ 64 := by
  cases negative with
  | true =>
    simp only [word, ↓reduceIte, Bool.toNat_true]
    omega
  | false =>
    simp only [word, Bool.false_eq_true, ↓reduceIte, Bool.toNat_false, true_and]
    omega

theorem signOf_word (hb : b ≤ 2047 * 2 ^ 52) :
    signOf (word negative b) = if negative then .negative else .positive := by
  unfold signOf
  rw [(word_fields negative hb).2.1]
  cases negative <;> rfl

theorem toNat_toBits_signed (hb : b ≤ 2047 * 2 ^ 52) :
    (signed negative b).toBits.toNat = word negative b := by
  obtain ⟨hmod, -, -, -, hlt⟩ := word_fields negative hb
  have hsigned : (signed negative b).toBits.toNat =
      (UnpackedFloat.pack Format.binary64 (unpack Format.binary64
        (UInt64.ofNat (word negative b)).toBitVec)).toNat := rfl
  have htoNat : (UInt64.ofNat (word negative b)).toBitVec.toNat = word negative b := by
    rw [UInt64.toNat_toBitVec, UInt64.toNat_ofNat']
    omega
  have hdigit : signDigit (signOf (word negative b)) * 2 ^ 63 + b = word negative b := by
    rw [signOf_word hb]
    cases negative <;> simp [signDigit, word]
  rw [hsigned]
  obtain hlt | rfl := Nat.lt_or_eq_of_le hb
  · rw [unpack_eq_ofParts _ (by rw [htoNat]; omega), htoNat, hmod,
      toNat_pack_ofParts (canonical_pattern b) (pattern_eq b), Nat.min_eq_left hb, hdigit]
  · cases negative <;> rfl

theorem unpack_signed (hb : b < 2047 * 2 ^ 52) :
    (signed negative b).toModel.unpack =
      ofParts (if negative then .negative else .positive) (mantissaOf b) (exponentOf b) := by
  have htoNat := @toNat_toBits_signed b negative hb.le
  have hunpack : (signed negative b).toModel.unpack =
      unpack Format.binary64 (signed negative b).toBits.toBitVec := rfl
  have hB : (signed negative b).toBits.toBitVec.toNat = word negative b := htoNat
  have hmod := (word_fields negative hb.le).1
  rw [hunpack, unpack_eq_ofParts _ (by rw [hB, hmod]; exact hb), hB, hmod, signOf_word hb.le]

theorem toBits_injective : Function.Injective Float.toBits := by
  rintro ⟨⟨bits, _⟩⟩ ⟨⟨bits', _⟩⟩ h
  obtain rfl : bits = bits' := h
  rfl

/-- **A double is a sign and a pattern, or it is not a number.** -/
theorem exists_signed (x : Float) : x = nan ∨ ∃ negative b, b ≤ 2047 * 2 ^ 52 ∧ x = signed negative b := by
  have hlt := x.toBits.toNat_lt
  by_cases hb : x.toBits.toNat % 2 ^ 63 ≤ 2047 * 2 ^ 52
  · right
    refine ⟨decide (x.toBits.toNat / 2 ^ 63 = 1), x.toBits.toNat % 2 ^ 63, hb, toBits_injective ?_⟩
    apply UInt64.toNat.inj
    rw [toNat_toBits_signed hb]
    unfold word
    by_cases h : x.toBits.toNat / 2 ^ 63 = 1
    · simp only [h, decide_true, ↓reduceIte]
      omega
    · simp only [h, decide_false, Bool.false_eq_true, ↓reduceIte]
      omega
  · left
    -- all such words but one are ruled out
    have hexp := toNat_unpackExponent x.toBits.toBitVec
    have hmant := toNat_unpackMantissa x.toBits.toBitVec
    rw [UInt64.toNat_toBitVec] at hexp hmant
    have hall : @unpackExponent Format.binary64 x.toBits.toBitVec = -1#_ := by
      refine BitVec.eq_of_toNat_eq (hexp.trans ?_)
      change _ = 2047
      omega
    have hne : @unpackMantissa Format.binary64 x.toBits.toBitVec ≠ 0#_ := by
      intro hzero
      rw [hzero] at hmant
      change 0 = _ at hmant
      omega
    have hnan := x.toModel.valid.eq_packedNaN hall hne
    exact toBits_injective (UInt64.toBitVec_inj.1 (hnan.trans rfl))

/-- The parts of a word by its fields. -/
theorem parts_of_word (hb : b ≤ 2047 * 2 ^ 52) : parts (signed negative b) =
    if b / 2 ^ 52 = 2047 then .infinite negative
    else .finite negative (mantissaOf b) (exponentOf b) := by
  obtain ⟨-, hsign, hfield, hfraction, -⟩ := word_fields negative hb
  have hnegative : (negative.toNat == 1) = negative := by cases negative <;> rfl
  unfold parts
  rw [toNat_toBits_signed hb]
  simp only [twoTo_eq, hsign, hfield, hfraction, hnegative, beq_iff_eq]
  by_cases hmost : b / 2 ^ 52 = 2047
  · rw [if_pos hmost, if_pos hmost, if_pos (by omega)]
  · rw [if_neg hmost, if_neg hmost]
    unfold mantissaOf exponentOf
    by_cases hzero : b / 2 ^ 52 = 0
    · rw [if_pos hzero, if_pos hzero, if_pos hzero, Nat.mod_eq_of_lt (by omega)]
    · rw [if_neg hzero, if_neg hzero, if_neg hzero]

/-- **The parts of a finite double** are those of its pattern. -/
theorem parts_signed (hb : b < 2047 * 2 ^ 52) :
    parts (signed negative b) = .finite negative (mantissaOf b) (exponentOf b) := by
  rw [parts_of_word hb.le, if_neg (by omega)]

theorem parts_infinite : parts (signed negative (2047 * 2 ^ 52)) = .infinite negative := by
  rw [parts_of_word le_rfl, if_pos (by omega)]

theorem parts_nan : parts nan = .notANumber := by
  have hword : nan.toBits.toNat = 2047 * 2 ^ 52 + 2 ^ 51 := by decide +kernel
  unfold parts
  rw [hword]
  rfl

/-! ## Differences and the largest double -/

theorem isNaN_dite {p : Prop} [Decidable p] {f : ¬p → UnpackedFloat}
    (h : ∀ hp, (f hp).isNaN = false) : (if hp : p then .zero s else f hp).isNaN = false := by
  by_cases hp : p
  · rw [dif_pos hp]
    rfl
  · rw [dif_neg hp]
    exact h hp

theorem isNaN_unpack {spec : Format} {b : BitVec spec.numBits}
    (h : unpackExponent b ≠ -1#_ ∨ unpackMantissa b = 0#_) :
    (UnpackedFloat.unpack spec b).isNaN = false := by
  delta UnpackedFloat.unpack
  dsimp only
  by_cases he : unpackExponent b = -1#_
  · rw [if_pos he, if_pos (h.resolve_left (absurd he))]
    rfl
  · rw [if_neg he]
    by_cases hzero : unpackExponent b = 0#_
    · rw [if_pos hzero]
      exact isNaN_dite fun _ => rfl
    · rw [if_neg hzero]
      rfl

/-- Only what is not a number is packed as such. -/
theorem isNaN_unpack_pack {u : UnpackedFloat} (h : u.isNaN = false) :
    (UnpackedFloat.unpack Format.binary64 (UnpackedFloat.pack Format.binary64 u)).isNaN = false := by
  cases u with
  | notANumber => cases h
  | infinity s => exact isNaN_unpack (.inr unpackMantissa_packComponents)
  | zero s => exact isNaN_unpack (.inr unpackMantissa_packComponents)
  | finite s m e =>
    delta UnpackedFloat.pack
    dsimp only
    split
    · exact isNaN_unpack (.inr unpackMantissa_packComponents)
    next hexp =>
    split
    · -- an exponent that fits is not the one of all ones
      refine isNaN_unpack (.inl ?_)
      rw [unpackExponent_packComponents]
      intro hones
      have hlast := congrArg BitVec.toNat hones
      rw [BitVec.toNat_ofNat, Nat.mod_eq_of_lt (by omega)] at hlast
      exact hexp (Nat.le_of_eq (congrArg (· + 1) hlast).symm)
    · refine isNaN_unpack (.inl ?_)
      rw [unpackExponent_packComponents]
      decide

theorem isNaN_round {e : ℤ} : (UnpackedFloat.round Format.binary64 s m e).isNaN = false := by
  unfold UnpackedFloat.round UnpackedFloat.roundWithAccuracy
  exact isNaN_dite fun _ => rfl

/-- **The difference of two finite doubles is a number.** -/
theorem isNaN_sub {y : Float} (hx : x.isFinite = true) (hy : y.isFinite = true) :
    (x - y).isNaN = false := by
  have hsub : ∀ u v : UnpackedFloat, u.isFinite = true → v.isFinite = true →
      (UnpackedFloat.sub Format.binary64 u v).isNaN = false := by
    intro u v hu hv
    cases u with
    | notANumber => cases hu
    | infinity => cases hu
    | zero s =>
      cases v with
      | notANumber => cases hv
      | infinity => cases hv
      | zero s' => cases s <;> cases s' <;> rfl
      | finite => rfl
    | finite =>
      cases v with
      | notANumber => cases hv
      | infinity => cases hv
      | zero => rfl
      | finite =>
        unfold UnpackedFloat.sub UnpackedFloat.normalize
        dsimp only
        split
        · exact isNaN_round
        · rfl
        · exact isNaN_round
  exact isNaN_unpack_pack (hsub _ _ hx hy)

/-- **No number is larger than infinity.** -/
theorem le_infinity (h : x.isNaN = false) : x ≤ infinity := by
  change x.toModel.unpack.isNaN = false at h
  have hle : x.toModel.unpack.le (.infinity .positive) = true := by
    generalize x.toModel.unpack = u at *
    cases u with
    | notANumber => cases h
    | infinity s => cases s <;> rfl
    | zero => rfl
    | finite s => cases s <;> rfl
  exact decide_eq_true hle

end SecureReview.Number
