import Mathlib.Data.List.TakeWhile
import SecureReview.Proofs.Text.Search
import SecureReview.Proofs.Time.Calendar
import SecureReview.Time.Stamp
import SecureReview.Validation.Coercion
/-!
# Written times read back

A time is written with a fixed number of digits for each field, and a
reader that takes up to so many digits takes exactly these
(`digitsUpTo_pad`). So **a written time is read as itself**
(`readWritten_iso`), and it is never mistaken for a number of seconds
(`ofNumeral_iso`), because of the dash after the year.
-/

namespace SecureReview.DateTime

open Text (digitValue? numberOf digitRun?)

variable {t : DateTime} {n width : ℕ} {rest : List Char} {c : Char}

/-! ## Fields of fixed width -/

/-- The digits that are written in a field. -/
def padDigits : ℕ → ℕ → List ℕ
  | 0, _ => []
  | width + 1, n => padDigits width (n / 10) ++ [n % 10]

@[simp] theorem length_pad (width n : ℕ) : (pad width n).length = width := by
  induction width generalizing n with
  | zero => rfl
  | succ width ih => rw [pad, List.length_append, ih, List.length_singleton]

theorem digitValue?_ofNat {d : ℕ} (h : d < 10) : digitValue? (Char.ofNat (48 + d)) = some d := by
  revert d
  decide

theorem map_digitValue?_pad (width n : ℕ) :
    (pad width n).map digitValue? = (padDigits width n).map some := by
  induction width generalizing n with
  | zero => rfl
  | succ width ih =>
    rw [pad, padDigits, List.map_append, List.map_append, ih, List.map_singleton, List.map_singleton,
      digitValue?_ofNat (Nat.mod_lt n (by decide))]

theorem numberOf_append_digit (ds : List ℕ) (d : ℕ) : numberOf (ds ++ [d]) = 10 * numberOf ds + d := by
  simp only [numberOf, List.foldl_append, List.foldl_cons, List.foldl_nil]

theorem numberOf_padDigits (h : n < 10 ^ width) : numberOf (padDigits width n) = n := by
  induction width generalizing n with
  | zero =>
    obtain rfl : n = 0 := by omega
    rfl
  | succ width ih =>
    rw [padDigits, numberOf_append_digit, ih (by rw [pow_succ] at h; omega)]
    omega

/-- **A field is read to its end**, and no further. -/
theorem digitsUpTo_pad (hwidth : 0 < width) (h : n < 10 ^ width) (rest : List Char) :
    digitsUpTo width (pad width n ++ rest) = some (n, width, rest) := by
  have htake : (pad width n ++ rest).take width = pad width n :=
    List.take_left' (length_pad width n)
  have hrun : ((padDigits width n).map some).takeWhile Option.isSome =
      (padDigits width n).map some := by
    rw [List.takeWhile_eq_self_iff]
    simp
  have hlength : (padDigits width n).length = width := by
    have := congrArg List.length (map_digitValue?_pad width n)
    simpa using this.symm
  have hsome : ((padDigits width n).map some).filterMap id = padDigits width n := by
    rw [List.filterMap_map]
    exact List.filterMap_some
  rw [digitsUpTo, htake, map_digitValue?_pad, hrun]
  simp only [hsome, List.length_map, hlength, numberOf_padDigits h]
  rw [if_neg, List.drop_left' (length_pad width n)]
  rw [List.isEmpty_iff_length_eq_zero, List.length_map, hlength]
  omega

theorem digitsOf_pad (hwidth : 0 < width) (h : n < 10 ^ width) (rest : List Char) :
    digitsOf width (pad width n ++ rest) = some (n, rest) := by
  rw [digitsOf, digitsUpTo_pad hwidth h]
  simp

@[simp] theorem mark_cons (c : Char) (rest : List Char) : mark c (c :: rest) = some rest := by
  simp [mark]

/-! ## The whole text -/

/-- The fraction of a second as it is written. -/
def fractionText (u : ℕ) : List Char :=
  if u = 0 then [] else '.' :: pad 6 u

/-- The text of a time by its fields. -/
theorem toList_iso (h : t.offset = none) : t.iso.toList =
    pad 4 t.year ++ '-' :: (pad 2 t.month ++ '-' :: (pad 2 t.day ++ 'T' :: (pad 2 t.hour ++
      ':' :: (pad 2 t.minute ++ ':' :: (pad 2 t.second ++ fractionText t.micro))))) := by
  have hfraction : (if t.micro == 0 then "" else "." ++ padded 6 t.micro).toList =
      fractionText t.micro := by
    unfold fractionText
    by_cases hzero : t.micro = 0
    · simp [hzero]
    · simp [hzero, padded]
  simp only [iso, textWith, h, String.toList_append, hfraction]
  simp [padded]

theorem secondsPart_written {s u : ℕ} (hs : s < 10 ^ 2) (hu : u < 10 ^ 6) :
    secondsPart (':' :: (pad 2 s ++ fractionText u)) = (s, u, []) := by
  rw [secondsPart, mark_cons]
  have hdigits := digitsUpTo_pad (by decide) hs (fractionText u)
  by_cases hzero : u = 0
  · subst hzero
    simp only [Option.bind_eq_bind, Option.bind_some, hdigits]
    rfl
  · have hmicros := digitsUpTo_pad (by decide) hu []
    rw [List.append_nil] at hmicros
    have hfraction : fraction (fractionText u) = some (u, []) := by
      rw [fractionText, if_neg hzero, fraction]
      simp only [mark_cons, Option.bind_eq_bind, Option.bind_some, hmicros]
      simp [digitsUpTo, Number.tenTo]
    simp only [Option.bind_eq_bind, Option.bind_some, hdigits, hfraction]

/-- **A written time is read as itself.** -/
theorem readWritten_iso (h : t.Plain) : readWritten t.iso = some t := by
  obtain ⟨hyear, hmonth, hday, hhour, hminute, hsecond, hmicro⟩ := isValid_iff.1 h.valid
  have hdays : daysInMonth t.year t.month < 100 := by
    unfold daysInMonth
    split_ifs <;> omega
  rw [readWritten, toList_iso h.offset]
  rw [digitsOf_pad (by decide) (by omega)]
  simp only [Option.bind_eq_bind, Option.bind_some, mark_cons]
  rw [digitsUpTo_pad (by decide) (by omega)]
  simp only [Option.bind_some, mark_cons]
  rw [digitsUpTo_pad (by decide) (by omega)]
  simp only [Option.bind_some, mark_cons, Option.orElse_eq_orElse, Option.orElse_some]
  rw [digitsUpTo_pad (by decide) (by omega)]
  simp only [Option.bind_some, mark_cons]
  rw [digitsUpTo_pad (by decide) (by omega)]
  have hfields : (⟨t.year, t.month, t.day, t.hour, t.minute, t.second, t.micro, none⟩ : DateTime) = t := by
    rw [← h.offset]
  simp only [Option.bind_some, secondsPart_written (by omega : t.second < 10 ^ 2) hmicro, offsetPart,
    hfields, h.valid]
  rfl

/-! ## Numerals -/

/-- The characters that times are written with. -/
def writtenChars : List Char :=
  ['0', '1', '2', '3', '4', '5', '6', '7', '8', '9', '-', 'T', ':', '.']

theorem mem_digits_of_mem_pad (hc : c ∈ pad width n) : c ∈ writtenChars.take 10 := by
  have hdigit : ∀ d < 10, Char.ofNat (48 + d) ∈ writtenChars.take 10 := by decide
  induction width generalizing n with
  | zero => exact absurd hc List.not_mem_nil
  | succ width ih =>
    rw [pad, List.mem_append, List.mem_singleton] at hc
    obtain hc | rfl := hc
    · exact ih hc
    · exact hdigit _ (Nat.mod_lt n (by decide))

theorem mem_writtenChars (h : t.offset = none) (hc : c ∈ t.iso.toList) : c ∈ writtenChars := by
  have hpad : ∀ width n, c ∈ pad width n → c ∈ writtenChars := fun width n hc =>
    List.mem_of_mem_take (mem_digits_of_mem_pad hc)
  have hmark : ∀ d ∈ ['-', 'T', ':', '.'], d ∈ writtenChars := by simp [writtenChars]
  rw [toList_iso h] at hc
  unfold fractionText at hc
  split_ifs at hc <;>
    simp only [List.mem_append, List.mem_cons, List.not_mem_nil, or_false] at hc <;>
    grind

/-- No digits go over a dash. -/
theorem digitRun?_dash (afterDigit : Bool) (width n : ℕ) (rest : List Char) :
    digitRun? afterDigit (pad width n ++ '-' :: rest) = none := by
  have hrun : ∀ (ds : List Char) (afterDigit : Bool), (∀ c ∈ ds, c ≠ '_') →
      digitRun? afterDigit (ds ++ '-' :: rest) = none := by
    intro ds
    induction ds with
    | nil =>
      intro afterDigit _
      have hdash : digitValue? '-' = none := by decide
      simp [digitRun?, hdash]
    | cons c ds ih =>
      intro afterDigit hne
      have hc : c ≠ '_' := hne c List.mem_cons_self
      rw [List.cons_append, digitRun?, if_neg (by simpa using hc)]
      cases digitValue? c with
      | none => rfl
      | some d => simp [ih true fun c' hc' => hne c' (List.mem_cons_of_mem c hc')]
  refine hrun _ afterDigit fun c hc hne => ?_
  have hdigits : ∀ c ∈ writtenChars.take 10, c ≠ '_' := by simp [writtenChars]
  exact hdigits c (mem_digits_of_mem_pad hc) hne

/-- Digits with a dash after them are no decimal. -/
theorem mantissa?_dash (width n : ℕ) (rest : List Char) :
    Text.mantissa? (pad width n ++ '-' :: rest) = none := by
  have hpoint : ∀ c ∈ pad width n, (c != '.') = true := by
    have hdigits : ∀ c ∈ writtenChars.take 10, (c != '.') = true := by simp [writtenChars]
    exact fun c hc => hdigits c (mem_digits_of_mem_pad hc)
  have hwhole : (pad width n ++ '-' :: rest).takeWhile (· != '.') =
      pad width n ++ '-' :: rest.takeWhile (· != '.') := by
    rw [List.takeWhile_append_of_pos hpoint, List.takeWhile_cons_of_pos (by decide)]
  have hnone : Text.digitRunOrNone? (pad width n ++ '-' :: rest.takeWhile (· != '.')) = none := by
    rw [Text.digitRunOrNone?, if_neg (by simp), digitRun?_dash]
  simp only [Text.mantissa?, hwhole, digitRun?_dash, hnone]
  split <;> rfl

/-- A text of these characters that begins with a digit has no sign. -/
theorem takeSign_pad (hwidth : 0 < width) (rest : List Char) :
    Text.takeSign (pad width n ++ rest) = (false, pad width n ++ rest) := by
  have hdigits : ∀ c ∈ writtenChars.take 10, c ≠ '-' ∧ c ≠ '+' := by simp [writtenChars]
  cases hpad : pad width n with
  | nil =>
    have := length_pad width n
    rw [hpad, List.length_nil] at this
    omega
  | cons c cs =>
    obtain ⟨hminus, hplus⟩ := hdigits c (mem_digits_of_mem_pad (hpad ▸ List.mem_cons_self))
    rw [List.cons_append]
    unfold Text.takeSign
    split
    · next heq => exact absurd (List.cons.inj heq).1 hminus
    · next heq => exact absurd (List.cons.inj heq).1 hplus
    · rfl

/-- A word has no dash. -/
theorem word_ne (word : String) (hdash : '-' ∉ word.toList) (cs rest : List Char) :
    (String.ofList ((cs ++ '-' :: rest).map Char.toLower) == word) = false := by
  rw [beq_eq_false_iff_ne]
  rintro rfl
  refine hdash ?_
  rw [String.toList_ofList, List.map_append, List.map_cons]
  exact List.mem_append_right _ List.mem_cons_self

/-- **A written time is no numeral.** -/
theorem ofNumeral_iso (h : t.offset = none) : Checked.ofNumeral t.iso = none := by
  have hchars : ∀ c ∈ writtenChars, Text.isBlank c = false ∧ (!(c == 'e' || c == 'E')) = true := by
    simp only [writtenChars, List.forall_mem_cons, List.not_mem_nil, false_implies, implies_true]
    decide
  have htrim : Text.trim t.iso.toList = t.iso.toList :=
    Text.trim_eq_self fun c hc => (hchars c (mem_writtenChars h hc)).1
  have hmarks : t.iso.toList.dropWhile (fun c => !(c == 'e' || c == 'E')) = [] :=
    List.dropWhile_eq_nil_iff.2 fun c hc => (hchars c (mem_writtenChars h hc)).2
  have hexponent : Text.splitExponent t.iso.toList = (t.iso.toList, none) := by
    simp only [Text.splitExponent, hmarks]
  have hread : Text.readDecimal? t.iso = none := by
    rw [Text.readDecimal?, htrim]
    rw [toList_iso h] at hexponent ⊢
    simp only [takeSign_pad (by decide : 0 < 4), hexponent, mantissa?_dash, word_ne "inf" (by decide),
      word_ne "infinity" (by decide), word_ne "nan" (by decide)]
    rfl
  rw [Checked.ofNumeral, hread]
  rfl

end SecureReview.DateTime
