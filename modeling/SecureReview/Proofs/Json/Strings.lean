import SecureReview.Json.Printer
import SecureReview.Json.Token
import Mathlib.Data.Nat.Notation
import Mathlib.Tactic.SplitIfs
/-!
# Strings read back

Every character is written as itself, as a one-letter escape, or as one or
two escaped code units. The reader undoes each of these
(`stringBody_escapeChar`): a code unit in the range of pairs is written only
as half of a pair, because no character lies in that range. So a written
string is read as the **string it was made from** (`stringBody_escaped`).
-/

namespace SecureReview.Json

variable {start pos : ℕ} {acc u t rest : List Char} {c : Char} {n : ℕ}

/-! ## Code units -/

theorem hexValue?_hexDigit : ∀ d < 16, hexValue? (Text.hexDigit d) = some d := by
  decide

theorem hexDigits_four (n : ℕ) : Text.hexDigits 4 n =
    [Text.hexDigit (n / 16 / 16 / 16 % 16), Text.hexDigit (n / 16 / 16 % 16),
      Text.hexDigit (n / 16 % 16), Text.hexDigit (n % 16)] :=
  rfl

theorem hexValue4?_hexDigits (hn : n < 0x10000) :
    hexValue4? (Text.hexDigit (n / 16 / 16 / 16 % 16)) (Text.hexDigit (n / 16 / 16 % 16))
      (Text.hexDigit (n / 16 % 16)) (Text.hexDigit (n % 16)) = some n := by
  have hdigit (k : ℕ) : hexValue? (Text.hexDigit (k % 16)) = some (k % 16) :=
    hexValue?_hexDigit _ (Nat.mod_lt _ (by decide))
  simp only [hexValue4?, hdigit, Option.some.injEq]
  omega

theorem toNat_lt_or (c : Char) : c.toNat < 0xD800 ∨ 0xDFFF < c.toNat ∧ c.toNat < 0x110000 :=
  c.valid

/-! ## Escapes -/

theorem stringBody_skip (start pos : ℕ) (acc u t : List Char) :
    stringBody start u.length pos acc (u ++ t) = stringBody start 0 (pos + u.length) acc t := by
  induction u generalizing pos with
  | nil => rfl
  | cons c u ih =>
    calc stringBody start (u.length + 1) pos acc (c :: (u ++ t))
        = stringBody start u.length (pos + 1) acc (u ++ t) := rfl
      _ = stringBody start 0 (pos + 1 + u.length) acc t := ih (pos + 1)
      _ = stringBody start 0 (pos + (u.length + 1)) acc t := by rw [Nat.add_right_comm, Nat.add_assoc]

/-- An escape of the character `c` is passed over as a whole. -/
theorem stringBody_escape (h : escapeAt start pos (u ++ t) = .ok (c, u.length)) :
    stringBody start 0 pos acc ('\\' :: u ++ t) =
      stringBody start 0 (pos + (u.length + 1)) (c :: acc) t := by
  have hstep : stringBody start 0 pos acc ('\\' :: (u ++ t)) =
      stringBody start u.length (pos + 1) (c :: acc) (u ++ t) := by
    rw [stringBody, h]
    rfl
  rw [List.cons_append, hstep, stringBody_skip, Nat.add_right_comm, Nat.add_assoc]

/-- A code unit outside the range of pairs, with something after it. -/
theorem escapeAt_unit (hn : n < 0x10000) (hhigh : isHighUnit n = false) (hlow : isLowUnit n = false)
    (hrest : rest ≠ []) :
    escapeAt start pos (('u' :: Text.hexDigits 4 n) ++ rest) = .ok (Char.ofNat n, 5) := by
  obtain ⟨e, t, rfl⟩ := List.exists_cons_of_ne_nil hrest
  rw [hexDigits_four]
  simp only [List.cons_append, List.nil_append, escapeAt, hexValue4?_hexDigits hn, hhigh, hlow,
    charOfUnit, Bool.or_false, Bool.false_eq_true, ↓reduceIte]

/-- Two code units that make a pair, with something after them. -/
theorem escapeAt_pair {high low : ℕ} (hhigh : isHighUnit high = true) (hlow : isLowUnit low = true)
    (hrest : rest ≠ []) :
    escapeAt start pos (('u' :: (Text.hexDigits 4 high ++ unitEscape low)) ++ rest) =
      .ok (charOfPair high low, 11) := by
  obtain ⟨e, t, rfl⟩ := List.exists_cons_of_ne_nil hrest
  have hhigh' : high < 0x10000 := by
    simp [isHighUnit] at hhigh
    omega
  have hlow' : low < 0x10000 := by
    simp [isLowUnit] at hlow
    omega
  rw [unitEscape, hexDigits_four, hexDigits_four]
  simp only [List.cons_append, List.nil_append, escapeAt, hexValue4?_hexDigits hhigh', hhigh,
    secondUnit?, hexValue4?_hexDigits hlow', hlow, ↓reduceIte]

theorem charOfPair_toNat (hc : 0x10000 ≤ c.toNat) :
    charOfPair (0xD800 + (c.toNat - 0x10000) / 0x400) (0xDC00 + (c.toNat - 0x10000) % 0x400) = c := by
  have hsum : 0x10000 + (0xD800 + (c.toNat - 0x10000) / 0x400 - 0xD800) * 0x400 +
      (0xDC00 + (c.toNat - 0x10000) % 0x400 - 0xDC00) = c.toNat := by
    omega
  unfold charOfPair
  rw [hsum, Char.ofNat_toNat]

/-- A character that stands for itself. -/
theorem stringBody_plain (hquote : c ≠ '"') (hslash : c ≠ '\\') (hc : 32 ≤ c.toNat) :
    stringBody start 0 pos acc (c :: rest) = stringBody start 0 (pos + 1) (c :: acc) rest := by
  rw [stringBody, if_neg (by simpa using hquote), if_neg (by simpa using hslash),
    if_neg (by omega)]

/-- **The reader undoes the escape of a character.** Something has to
follow it, and the closing quote always does. -/
theorem stringBody_escapeChar (start pos : ℕ) (acc : List Char) (c : Char) (hrest : rest ≠ []) :
    stringBody start 0 pos acc (escapeChar c ++ rest) =
      stringBody start 0 (pos + (escapeChar c).length) (c :: acc) rest := by
  have hvalid := toNat_lt_or c
  unfold escapeChar
  simp only [beq_iff_eq, Bool.and_eq_true, decide_eq_true_eq]
  split_ifs with hquote hslash hnewline hreturn htab hback hfeed hplain hunit
  · subst hquote
    exact stringBody_escape (u := ['"']) rfl
  · subst hslash
    exact stringBody_escape (u := ['\\']) rfl
  · subst hnewline
    exact stringBody_escape (u := ['n']) rfl
  · subst hreturn
    exact stringBody_escape (u := ['r']) rfl
  · subst htab
    exact stringBody_escape (u := ['t']) rfl
  · obtain rfl : c = '\x08' := Char.toNat_inj.1 hback
    exact stringBody_escape (u := ['b']) rfl
  · obtain rfl : c = '\x0c' := Char.toNat_inj.1 hfeed
    exact stringBody_escape (u := ['f']) rfl
  · exact stringBody_plain hquote hslash hplain.1
  · have hhigh : isHighUnit c.toNat = false := by
      simp [isHighUnit]
      omega
    have hlow : isLowUnit c.toNat = false := by
      simp [isLowUnit]
      omega
    have hescape := @escapeAt_unit start pos rest _ hunit hhigh hlow hrest
    rw [Char.ofNat_toNat] at hescape
    exact stringBody_escape hescape
  · have hhigh : isHighUnit (0xD800 + (c.toNat - 0x10000) / 0x400) = true := by
      simp [isHighUnit]
      omega
    have hlow : isLowUnit (0xDC00 + (c.toNat - 0x10000) % 0x400) = true := by
      simp [isLowUnit]
      omega
    have hescape := @escapeAt_pair start pos rest _ _ hhigh hlow hrest
    rw [charOfPair_toNat (by omega)] at hescape
    exact stringBody_escape hescape

/-- **A written string is read as itself**, up to its closing quote. -/
theorem stringBody_escaped (start pos : ℕ) (acc s rest : List Char) :
    stringBody start 0 pos acc (s.flatMap escapeChar ++ '"' :: rest) =
      .ok (String.ofList (acc.reverse ++ s), pos + (s.flatMap escapeChar).length + 1) := by
  induction s generalizing pos acc with
  | nil =>
    rw [List.flatMap_nil, List.nil_append, stringBody]
    simp
  | cons c s ih =>
    have hrest : s.flatMap escapeChar ++ '"' :: rest ≠ [] := by simp
    rw [List.flatMap_cons, List.append_assoc, stringBody_escapeChar start pos acc c hrest, ih]
    simp [Nat.add_assoc]

end SecureReview.Json
