import SecureReview.Json.Printer
import SecureReview.Json.Token
import SecureReview.Proofs.Number.Shortest
/-!
# Numerals read back

A numeral is a sign, a whole part, a fraction and an exponent, and what
follows it begins with no character that could extend it (`Ends`). The
reader takes exactly these parts (`number?_pieces`). The decimal text of a
whole number and the shortest text of a finite double are such numerals,
and both are read as the **number they were made from**
(`number?_renderInt`, `number?_floatText`).
-/

namespace SecureReview.Json

open Number (digits dropZeros exponentText layout)

variable {ds whole fraction rest : List Char} {negative : Bool} {k e : ℤ} {x : Float}

/-! ## Runs of digits -/

theorem digitsValue_append (ds es : List Char) :
    digitsValue (ds ++ es) = digitsValue ds * 10 ^ es.length + digitsValue es := by
  have happend : digitsValue (ds ++ es) = Nat.ofDigitChars 10 es (digitsValue ds) :=
    Nat.ofDigitChars_append 0
  rw [happend, Nat.ofDigitChars_eq_ofDigitChars_zero, Nat.mul_comm]
  rfl

@[simp] theorem digitsValue_zeros (n : ℕ) : digitsValue (List.replicate n '0') = 0 := by
  have h : digitsValue (List.replicate n '0') = 10 ^ n * 0 := Nat.ofDigitChars_replicate_zero
  rw [h, Nat.mul_zero]

@[simp] theorem digitsValue_digits (n : ℕ) : digitsValue (digits n) = n :=
  Nat.ofDigitChars_ten_toDigits

theorem isDigit_digits {n : ℕ} {c : Char} (hc : c ∈ digits n) : c.isDigit = true :=
  Nat.isDigit_of_mem_toDigits (by decide) (by decide) hc

theorem digits_ne_nil (n : ℕ) : digits n ≠ [] :=
  Nat.toDigits_ne_nil

/-- The first digit of a positive number is not zero. -/
theorem head?_digits {n : ℕ} (hn : 0 < n) : (digits n).head? ≠ some '0' := by
  induction n using Nat.strongRecOn with
  | ind n ih =>
    unfold digits
    rw [Nat.toDigits_eq_if (by decide)]
    by_cases hlt : n < 10
    · rw [if_pos hlt]
      simp
      omega
    · rw [if_neg hlt, List.head?_append_of_ne_nil _ Nat.toDigits_ne_nil]
      exact ih (n / 10) (by omega) (by omega)

/-- The text does not begin with a digit. -/
def NoDigit (rest : List Char) : Prop :=
  ∀ c ∈ rest.head?, c.isDigit = false

/-- What follows cannot be taken for a part of a number. -/
structure Ends (rest : List Char) : Prop where
  noDigit : NoDigit rest
  noPoint : rest.head? ≠ some '.'
  noExponent : rest.head? ≠ some 'e' ∧ rest.head? ≠ some 'E'

theorem leadingDigits_append (hds : ∀ c ∈ ds, c.isDigit = true) (hrest : NoDigit rest) :
    leadingDigits (ds ++ rest) = ds := by
  unfold leadingDigits
  rw [List.takeWhile_append_of_pos hds]
  cases rest with
  | nil => simp
  | cons c t => simp [hrest c rfl]

/-- The digits of a whole number: no zero stands before others. -/
structure IsWhole (ds : List Char) : Prop where
  nonempty : ds ≠ []
  digits : ∀ c ∈ ds, c.isDigit = true
  plain : ds.head? = some '0' → ds = ['0']

theorem isWhole_digits (n : ℕ) : IsWhole (digits n) where
  nonempty := digits_ne_nil n
  digits _ hc := isDigit_digits hc
  plain h := by
    obtain rfl | hn := Nat.eq_zero_or_pos n
    · rfl
    · exact absurd h (head?_digits hn)

theorem leadingWhole_append (hwhole : IsWhole whole) (hrest : NoDigit rest) :
    leadingWhole (whole ++ rest) = whole := by
  obtain ⟨hne, hdigits, hplain⟩ := hwhole
  obtain ⟨d, t, rfl⟩ := List.exists_cons_of_ne_nil hne
  by_cases hd : d = '0'
  · subst hd
    rw [hplain rfl]
    rfl
  · unfold leadingWhole
    split
    · rename_i heq
      exact absurd (List.cons.inj heq).1 hd
    · exact leadingDigits_append hdigits hrest

/-! ## The parts of a numeral -/

/-- The sign of a number. -/
def signText (negative : Bool) : List Char :=
  if negative then ['-'] else []

/-- A fraction after its point; there is no point without a digit. -/
def pointText (fraction : List Char) : List Char :=
  if fraction.isEmpty then [] else '.' :: fraction

/-- The number of the parts of a numeral, with its length. The exponent
comes with its own length. -/
def ofPieces (negative : Bool) (whole fraction : List Char) : Option (ℤ × ℕ) → Json × ℕ
  | some (e, n) =>
    (.float (Number.ofDecimal negative (digitsValue (whole ++ fraction)) (e - fraction.length)),
      (signText negative).length + whole.length + (pointText fraction).length + n)
  | none =>
    (if fraction.isEmpty then .int (if negative then -(digitsValue whole : ℤ) else digitsValue whole)
      else .float (Number.ofDecimal negative (digitsValue (whole ++ fraction)) (-fraction.length)),
      (signText negative).length + whole.length + (pointText fraction).length)

theorem leadingFraction_append (hfraction : ∀ c ∈ fraction, c.isDigit = true) (hrest : NoDigit rest)
    (hpoint : rest.head? ≠ some '.') : leadingFraction (pointText fraction ++ rest) = fraction := by
  cases fraction with
  | nil =>
    simp only [pointText, List.isEmpty_nil, ↓reduceIte, List.nil_append]
    unfold leadingFraction
    split
    · exact absurd rfl hpoint
    · rfl
  | cons c t => exact leadingDigits_append hfraction hrest

/-- **The reader takes the parts of a numeral.** -/
theorem number?_pieces (hwhole : IsWhole whole) (hfraction : ∀ c ∈ fraction, c.isDigit = true)
    (hrest : NoDigit rest) (hpoint : rest.head? ≠ some '.') :
    number? (signText negative ++ (whole ++ (pointText fraction ++ rest))) =
      some (ofPieces negative whole fraction (leadingExponent? rest)) := by
  have hpointed : NoDigit (pointText fraction ++ rest) := by
    cases fraction with
    | nil => exact hrest
    | cons c t =>
      intro c hc
      obtain rfl := Option.some.inj hc
      rfl
  have hunsigned : ∀ r, whole ++ (pointText fraction ++ rest) = '-' :: r → False := by
    obtain ⟨d, t, rfl⟩ := List.exists_cons_of_ne_nil hwhole.nonempty
    intro r h
    have hd := hwhole.digits '-' ((List.cons.inj h).1 ▸ List.mem_cons_self)
    exact absurd hd (by decide)
  have hne : whole.isEmpty = false := by simpa using hwhole.nonempty
  have hlength : (if fraction.isEmpty then 0 else fraction.length + 1) = (pointText fraction).length := by
    unfold pointText
    split <;> rfl
  have hrewrite := leadingWhole_append hwhole hpointed
  have hfrac := leadingFraction_append hfraction hrest hpoint
  cases negative with
  | true =>
    simp only [signText, ↓reduceIte, List.cons_append, List.nil_append, number?, hrewrite, hne,
      Bool.false_eq_true, List.drop_left, hfrac, hlength]
    cases leadingExponent? rest with
    | none => cases fraction <;> rfl
    | some p => rfl
  | false =>
    simp only [signText, ↓reduceIte, List.nil_append, number?, hrewrite, hne,
      Bool.false_eq_true, List.drop_left, hfrac, hlength]
    cases leadingExponent? rest with
    | none => cases fraction <;> rfl
    | some p => rfl

/-! ## Exponents -/

theorem leadingExponent?_of_ends (h : Ends rest) : leadingExponent? rest = none := by
  cases rest with
  | nil => rfl
  | cons c t =>
    obtain ⟨he, hE⟩ := h.noExponent
    have hc : (c == 'e' || c == 'E') = false := by
      simp only [List.head?_cons, ne_eq, Option.some.injEq] at he hE
      simp [he, hE]
    simp only [leadingExponent?, hc, Bool.false_eq_true, ↓reduceIte]

/-- The digits of an exponent after its sign. -/
def exponentDigits (k : ℤ) : List Char :=
  if (digits k.natAbs).length < 2 then '0' :: digits k.natAbs else digits k.natAbs

theorem exponentText_eq (k : ℤ) :
    exponentText k = (if k < 0 then '-' else '+') :: exponentDigits k :=
  rfl

theorem exponentDigits_spec (k : ℤ) : exponentDigits k ≠ [] ∧
    (∀ c ∈ exponentDigits k, c.isDigit = true) ∧ digitsValue (exponentDigits k) = k.natAbs := by
  unfold exponentDigits
  split
  · refine ⟨by simp, ?_, ?_⟩
    · intro c hc
      obtain rfl | hc := List.mem_cons.1 hc
      · rfl
      · exact isDigit_digits hc
    · rw [← List.singleton_append, digitsValue_append, digitsValue_digits]
      simp [digitsValue]
  · exact ⟨digits_ne_nil _, fun _ => isDigit_digits, digitsValue_digits _⟩

theorem leadingExponent?_exponentText (k : ℤ) (hrest : NoDigit rest) :
    leadingExponent? ('e' :: exponentText k ++ rest) = some (k, 1 + (exponentText k).length) := by
  obtain ⟨hne, hdigits, hvalue⟩ := exponentDigits_spec k
  have hlead := leadingDigits_append hdigits hrest
  have hnonempty : (exponentDigits k).isEmpty = false := by simpa using hne
  rw [exponentText_eq]
  by_cases hk : k < 0
  · simp only [hk, ↓reduceIte, List.cons_append, leadingExponent?, beq_self_eq_true, Bool.true_or,
      hlead, hnonempty, Bool.false_eq_true, hvalue, List.length_cons, Option.some.injEq,
      Prod.mk.injEq]
    omega
  · simp only [hk, ↓reduceIte, List.cons_append, leadingExponent?, beq_self_eq_true, Bool.true_or,
      hlead, hnonempty, Bool.false_eq_true, hvalue, List.length_cons, Option.some.injEq,
      Prod.mk.injEq]
    omega

/-! ## Whole numbers -/

theorem renderInt_eq (n : ℤ) :
    renderInt n = signText (decide (n < 0)) ++ digits n.natAbs := by
  unfold renderInt signText
  by_cases hn : n < 0 <;> simp [hn]

/-- **A whole number reads back.** -/
theorem number?_renderInt (n : ℤ) (hrest : Ends rest) :
    number? (renderInt n ++ rest) = some (.int n, (renderInt n).length) := by
  have hpieces := @number?_pieces _ [] _ (decide (n < 0)) (isWhole_digits n.natAbs)
    (by simp) hrest.noDigit hrest.noPoint
  have hvalue : (if decide (n < 0) then -(n.natAbs : ℤ) else n.natAbs) = n := by
    by_cases hn : n < 0
    · rw [if_pos (decide_eq_true hn)]
      omega
    · rw [if_neg (by simpa using hn)]
      omega
  rw [leadingExponent?_of_ends hrest] at hpieces
  simp only [ofPieces, pointText, List.isEmpty_nil, ↓reduceIte, List.nil_append, digitsValue_digits,
    hvalue] at hpieces
  rw [renderInt_eq, List.append_assoc, hpieces]
  simp

/-! ## The shortest text of a double -/

theorem dropZeros_append_zeros (ds : List Char) :
    ∃ z, ds = dropZeros ds ++ List.replicate z '0' := by
  refine ⟨(ds.reverse.takeWhile (· == '0')).length, ?_⟩
  have hzeros : ds.reverse.takeWhile (· == '0') =
      List.replicate (ds.reverse.takeWhile (· == '0')).length '0' := by
    refine List.eq_replicate_iff.2 ⟨rfl, fun c hc => ?_⟩
    simpa using List.all_eq_true.1 List.all_takeWhile c hc
  calc ds = (ds.reverse.takeWhile (· == '0') ++ ds.reverse.dropWhile (· == '0')).reverse := by
        rw [List.takeWhile_append_dropWhile, List.reverse_reverse]
    _ = dropZeros ds ++ (ds.reverse.takeWhile (· == '0')).reverse := List.reverse_append
    _ = dropZeros ds ++ List.replicate (ds.reverse.takeWhile (· == '0')).length '0' := by
        rw [hzeros, List.reverse_replicate, List.length_replicate]

/-- Significant digits of a positive number: they begin with no zero. -/
structure IsSignificant (ds : List Char) : Prop where
  nonempty : ds ≠ []
  digits : ∀ c ∈ ds, c.isDigit = true
  noZero : ds.head? ≠ some '0'

theorem isSignificant_dropZeros {n : ℕ} (hn : 0 < n) : IsSignificant (dropZeros (digits n)) := by
  obtain ⟨z, hz⟩ := dropZeros_append_zeros (digits n)
  have hne : dropZeros (digits n) ≠ [] := by
    intro hnil
    have hvalue := digitsValue_digits n
    rw [hz, hnil, List.nil_append, digitsValue_zeros] at hvalue
    omega
  refine ⟨hne, fun c hc => ?_, ?_⟩
  · have hmem : c ∈ digits n := by
      rw [hz]
      exact List.mem_append_left _ hc
    exact isDigit_digits hmem
  · have hhead := head?_digits hn
    rwa [hz, List.head?_append_of_ne_nil _ hne] at hhead

/-- The value of significant digits, the first of which has weight
`10 ^ k`. -/
def weighted (ds : List Char) (k : ℤ) : ℚ :=
  digitsValue ds * 10 ^ (k + 1 - ds.length)

theorem weighted_append_zeros (ds : List Char) (z : ℕ) (k : ℤ) :
    weighted (ds ++ List.replicate z '0') k = weighted ds k := by
  unfold weighted
  rw [digitsValue_append, digitsValue_zeros, List.length_append, List.length_replicate]
  have hsplit : k + 1 - ds.length = z + (k + 1 - (ds.length + z : ℕ)) := by
    push_cast
    ring
  rw [hsplit, Number.ten_zpow_add, zpow_natCast]
  push_cast
  ring

/-- A numeral with an exponent. -/
theorem number?_exponent (hwhole : IsWhole whole) (hfraction : ∀ c ∈ fraction, c.isDigit = true)
    (hrest : Ends rest) :
    number? (signText negative ++ (whole ++ (pointText fraction ++ 'e' :: exponentText k) ++ rest)) =
      some (.float (Number.ofDecimal negative (digitsValue (whole ++ fraction)) (k - fraction.length)),
        (signText negative ++ (whole ++ (pointText fraction ++ 'e' :: exponentText k))).length) := by
  have hnoDigit : NoDigit ('e' :: exponentText k ++ rest) := by
    intro c hc
    obtain rfl := Option.some.inj hc
    rfl
  have hpieces := @number?_pieces _ _ _ negative hwhole hfraction hnoDigit (by simp)
  rw [leadingExponent?_exponentText k hrest.noDigit] at hpieces
  simp only [List.append_assoc] at hpieces ⊢
  rw [hpieces]
  simp only [ofPieces, List.length_append, List.length_cons, Option.some.injEq, Prod.mk.injEq,
    true_and]
  omega

/-- A numeral with a fraction and no exponent. -/
theorem number?_fraction (hwhole : IsWhole whole) (hfraction : ∀ c ∈ fraction, c.isDigit = true)
    (hne : fraction ≠ []) (hrest : Ends rest) :
    number? (signText negative ++ (whole ++ pointText fraction ++ rest)) =
      some (.float (Number.ofDecimal negative (digitsValue (whole ++ fraction)) (-fraction.length)),
        (signText negative ++ (whole ++ pointText fraction)).length) := by
  have hpieces := @number?_pieces _ _ _ negative hwhole hfraction hrest.noDigit hrest.noPoint
  rw [leadingExponent?_of_ends hrest] at hpieces
  have hempty : fraction.isEmpty = false := by simpa using hne
  rw [List.append_assoc, hpieces]
  simp only [ofPieces, hempty, Bool.false_eq_true, ↓reduceIte, List.length_append, Option.some.injEq,
    Prod.mk.injEq, true_and]
  omega

theorem layout_exponent {d : Char} (hk : k < -4 ∨ 16 ≤ k) :
    layout (d :: ds) k = [d] ++ (pointText ds ++ 'e' :: exponentText k) := by
  have hcond : (decide (k < -4) || decide (16 ≤ k)) = true := by simpa using hk
  unfold layout
  rw [if_pos hcond]
  cases ds <;> rfl

theorem layout_below (hlow : -4 ≤ k) (hk : k < 0) (hne : ds ≠ []) :
    layout ds k = ['0'] ++ pointText (List.replicate ((-k).toNat - 1) '0' ++ ds) := by
  have hcond : ¬ (decide (k < -4) || decide (16 ≤ k)) = true := by
    simp
    omega
  have hempty : (List.replicate ((-k).toNat - 1) '0' ++ ds).isEmpty = false := by
    simp [hne]
  unfold layout pointText
  rw [if_neg hcond, if_pos hk, hempty]
  rfl

theorem layout_padded (hk : 0 ≤ k) (hhigh : k < 16) (hlength : ds.length ≤ k.toNat + 1) :
    layout ds k = ds ++ List.replicate (k.toNat + 1 - ds.length) '0' ++ pointText ['0'] := by
  have hcond : ¬ (decide (k < -4) || decide (16 ≤ k)) = true := by
    simp
    omega
  have hpadded : (ds ++ List.replicate (k.toNat + 1 - ds.length) '0').length = k.toNat + 1 := by
    simp
    omega
  unfold layout
  rw [if_neg hcond, if_neg (by omega)]
  simp only [List.take_of_length_le hpadded.le, List.drop_of_length_le hpadded.le, List.isEmpty_nil,
    ↓reduceIte]
  rfl

theorem layout_cut (hk : 0 ≤ k) (hhigh : k < 16) (hlength : k.toNat + 1 < ds.length) :
    layout ds k = ds.take (k.toNat + 1) ++ pointText (ds.drop (k.toNat + 1)) := by
  have hcond : ¬ (decide (k < -4) || decide (16 ≤ k)) = true := by
    simp
    omega
  have hempty : (ds.drop (k.toNat + 1)).isEmpty = false := by
    simp
    omega
  unfold layout pointText
  rw [if_neg hcond, if_neg (by omega)]
  simp only [Nat.sub_eq_zero_of_le hlength.le, List.replicate_zero, List.append_nil, hempty,
    Bool.false_eq_true, ↓reduceIte]

theorem isWhole_append (h : IsSignificant ds) {es : List Char} (hes : ∀ c ∈ es, c.isDigit = true) :
    IsWhole (ds ++ es) where
  nonempty := by simp [h.nonempty]
  digits c hc := by
    obtain hc | hc := List.mem_append.1 hc
    · exact h.digits c hc
    · exact hes c hc
  plain hzero := by
    rw [List.head?_append_of_ne_nil _ h.nonempty] at hzero
    exact absurd hzero h.noZero

theorem isWhole_take (h : IsSignificant ds) (n : ℕ) : IsWhole (ds.take (n + 1)) where
  nonempty := by simp [h.nonempty]
  digits c hc := h.digits c (List.mem_of_mem_take hc)
  plain hzero := by
    rw [List.head?_take, if_neg (by omega)] at hzero
    exact absurd hzero h.noZero

/-- **Every layout reads as a decimal of the same value.** -/
theorem number?_layout (h : IsSignificant ds) (k : ℤ) (hrest : Ends rest) : ∃ c e,
    number? (signText negative ++ (layout ds k ++ rest)) =
      some (.float (Number.ofDecimal negative c e), (signText negative ++ layout ds k).length) ∧
    (c : ℚ) * 10 ^ e = weighted ds k := by
  by_cases hexponent : k < -4 ∨ 16 ≤ k
  · obtain ⟨d, t, rfl⟩ := List.exists_cons_of_ne_nil h.nonempty
    have hwhole : IsWhole [d] := isWhole_take h 0
    rw [layout_exponent hexponent]
    refine ⟨_, _, number?_exponent hwhole (fun c hc => h.digits c (List.mem_cons_of_mem d hc)) hrest, ?_⟩
    simp only [weighted, List.singleton_append, List.length_cons]
    push_cast
    ring_nf
  · by_cases hk : k < 0
    · rw [layout_below (by omega) hk h.nonempty]
      have hwhole : IsWhole ['0'] := isWhole_digits 0
      have hfraction : ∀ c ∈ List.replicate ((-k).toNat - 1) '0' ++ ds, c.isDigit = true := by
        intro c hc
        obtain hc | hc := List.mem_append.1 hc
        · rw [List.eq_of_mem_replicate hc]
          rfl
        · exact h.digits c hc
      refine ⟨_, _, number?_fraction hwhole hfraction (by simp [h.nonempty]) hrest, ?_⟩
      rw [digitsValue_append, digitsValue_append, digitsValue_zeros]
      simp only [weighted, List.length_append, List.length_replicate]
      congr 2
      · simp [digitsValue]
      · push_cast
        omega
    · obtain hlength | hlength := Nat.lt_or_ge (k.toNat + 1) ds.length
      · rw [layout_cut (by omega) (by omega) hlength]
        have hfraction : ∀ c ∈ ds.drop (k.toNat + 1), c.isDigit = true :=
          fun c hc => h.digits c (List.mem_of_mem_drop hc)
        refine ⟨_, _, number?_fraction (isWhole_take h _) hfraction (by simp; omega) hrest, ?_⟩
        rw [List.take_append_drop]
        simp only [weighted, List.length_drop]
        congr 2
        omega
      · rw [layout_padded (by omega) (by omega) hlength]
        have hzeros : ∀ c ∈ List.replicate (k.toNat + 1 - ds.length) '0', c.isDigit = true := by
          intro c hc
          rw [List.eq_of_mem_replicate hc]
          rfl
        refine ⟨_, _, number?_fraction (isWhole_append h hzeros) (by simp) (by simp) hrest, ?_⟩
        -- one more zero pads the whole part, and its place is taken back by the exponent
        rw [← weighted_append_zeros ds (k.toNat + 1 - ds.length + 1), List.replicate_succ',
          ← List.append_assoc]
        simp only [weighted, List.length_append, List.length_replicate, List.length_singleton]
        congr 2
        omega

theorem weighted_dropZeros (ds : List Char) (k : ℤ) : weighted (dropZeros ds) k = weighted ds k := by
  obtain ⟨z, hz⟩ := dropZeros_append_zeros ds
  have h := weighted_append_zeros (dropZeros ds) z k
  rw [← hz] at h
  exact h.symm

variable {m : ℕ} {q : ℤ}

theorem shortest_pos (hx : Number.parts x = .finite negative m q) (hm : 0 < m) :
    0 < (Number.shortest m q).1 := by
  rw [Nat.pos_iff_ne_zero]
  intro hzero
  have hread := Number.ofDecimal_shortest (c := 0) (e := 0) hx hm (by simp [hzero])
  rw [Number.ofDecimal_eq negative (by simpa using Number.rounds_zero)] at hread
  rw [← hread, Number.parts_signed (by simp)] at hx
  obtain ⟨-, rfl, -⟩ := Number.Parts.finite.inj hx
  exact absurd hm (by decide)

theorem eq_signed_zero (hx : Number.parts x = .finite negative 0 q) : x = Number.signed negative 0 := by
  obtain rfl | ⟨negative', b, hb, rfl⟩ := Number.exists_signed x
  · rw [Number.parts_nan] at hx
    cases hx
  obtain hlt | rfl := Nat.lt_or_eq_of_le hb
  · rw [Number.parts_signed hlt] at hx
    obtain ⟨rfl, hm, -⟩ := Number.Parts.finite.inj hx
    unfold Number.mantissaOf at hm
    split at hm <;> simp_all
  · rw [Number.parts_infinite] at hx
    cases hx

/-- **The shortest text of a finite double reads back.** -/
theorem number?_floatText (hx : Number.parts x = .finite negative m q) (hrest : Ends rest) :
    number? ((Number.floatText x).toList ++ rest) =
      some (.float x, (Number.floatText x).toList.length) := by
  obtain rfl | hm := Nat.eq_zero_or_pos m
  · have htext : (Number.floatText x).toList = signText negative ++ (['0'] ++ pointText ['0']) := by
      simp only [Number.floatText, hx, BEq.rfl, ↓reduceIte, String.toList_ofList]
      rfl
    have hzero : Number.ofDecimal negative (digitsValue ['0', '0']) (-1) = x := by
      rw [Number.ofDecimal_eq negative (b := 0) (by simpa [digitsValue] using Number.rounds_zero)]
      simpa using (eq_signed_zero hx).symm
    have hread := @number?_fraction ['0'] ['0'] rest negative (isWhole_digits 0) (by simp) (by simp) hrest
    rw [htext, List.append_assoc, hread, ← hzero]
    rfl
  · have htext : (Number.floatText x).toList = signText negative ++
        layout (dropZeros (digits (Number.shortest m q).1))
          ((Number.shortest m q).2 + (digits (Number.shortest m q).1).length - 1) := by
      have hm' : (m == 0) = false := by simpa using hm.ne'
      simp only [Number.floatText, hx, hm', Bool.false_eq_true, ↓reduceIte, String.toList_ofList]
      rfl
    obtain ⟨c, e, hread, hvalue⟩ := @number?_layout _ rest negative
      (isSignificant_dropZeros (shortest_pos hx hm))
      ((Number.shortest m q).2 + (digits (Number.shortest m q).1).length - 1) hrest
    rw [weighted_dropZeros, weighted, digitsValue_digits, sub_add_cancel, add_sub_cancel_right] at hvalue
    rw [htext, List.append_assoc, hread, Number.ofDecimal_shortest hx hm hvalue]

end SecureReview.Json
