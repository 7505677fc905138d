import Mathlib.Tactic.Linarith
import SecureReview.Text.Utf8
/-!
# Bytes back to text

The decoder accepts exactly the bytes of texts, and **reads them as the
text** (`decodeUtf8_eq_ok_iff`). One character is decoded at a time: the
first byte tells how many there are, and if the others pass their checks
they are those of the character that is put together of them
(`eq_encode_of_reads`). The bytes of a character pass them
(`exists_reads`).
-/

namespace SecureReview.Text

variable {a b c d : UInt8} {ch : Char} {n pos : ℕ} {t rest : List UInt8}

/-! ## Bytes as numbers -/

theorem characterWidth_eq (b : UInt8) : characterWidth b =
    if b.toNat < 128 then 1 else if b.toNat < 194 then 0 else if b.toNat < 224 then 2
    else if b.toNat < 240 then 3 else if b.toNat < 245 then 4 else 0 := by
  simp only [characterWidth, UInt8.lt_iff_toNat_lt]
  rfl

theorem isContinuation_iff : isContinuation b = true ↔ 128 ≤ b.toNat ∧ b.toNat ≤ 191 := by
  simp only [isContinuation, Bool.and_eq_true, decide_eq_true_eq, UInt8.le_iff_toNat_le]
  rfl

theorem beq_ofNat (h : n < 256) : (b == UInt8.ofNat n) = decide (b.toNat = n) := by
  rw [Bool.eq_iff_iff, beq_iff_eq, decide_eq_true_eq, ← UInt8.toNat_inj, UInt8.toNat_ofNat']
  omega

/-- The second byte is one of the continuations, less those that would make
a form too long, half of a pair or a value too large. -/
theorem isSecond_iff : isSecond a b = true ↔
    (128 ≤ b.toNat ∧ b.toNat ≤ 191) ∧ (a.toNat = 224 → 160 ≤ b.toNat) ∧
      (a.toNat = 237 → b.toNat ≤ 159) ∧ (a.toNat = 240 → 144 ≤ b.toNat) ∧
      (a.toNat = 244 → b.toNat ≤ 143) := by
  have h224 : (a == 0xE0) = decide (a.toNat = 224) := beq_ofNat (by norm_num)
  have h237 : (a == 0xED) = decide (a.toNat = 237) := beq_ofNat (by norm_num)
  have h240 : (a == 0xF0) = decide (a.toNat = 240) := beq_ofNat (by norm_num)
  have h244 : (a == 0xF4) = decide (a.toNat = 244) := beq_ofNat (by norm_num)
  rw [isSecond, h224, h237, h240, h244]
  simp only [decide_eq_true_eq]
  split_ifs
  all_goals
    simp only [isContinuation_iff, Bool.and_eq_true, decide_eq_true_eq, UInt8.le_iff_toNat_le,
      UInt8.reduceToNat]
    omega

/-! ## One character -/

theorem toNat_ofNat_of_lt (h : n < 256) : (UInt8.ofNat n).toNat = n := by
  rw [UInt8.toNat_ofNat']
  exact Nat.mod_eq_of_lt h

/-- A byte is told by its number. -/
theorem eq_ofNat (h : b.toNat = n) : b = UInt8.ofNat n := by
  rw [← h, UInt8.ofNat_toNat]

theorem toNat_ofNat_of_valid (h : n.isValidChar) : (Char.ofNat n).toNat = n := by
  rw [Char.ofNat, dif_pos h]
  rfl

theorem utf8EncodeChar_eq (ch : Char) : String.utf8EncodeChar ch =
    if ch.toNat ≤ 127 then [UInt8.ofNat ch.toNat]
    else if ch.toNat ≤ 2047 then
      [UInt8.ofNat (ch.toNat / 64 % 32 + 192), UInt8.ofNat (ch.toNat % 64 + 128)]
    else if ch.toNat ≤ 65535 then
      [UInt8.ofNat (ch.toNat / 4096 % 16 + 224), UInt8.ofNat (ch.toNat / 64 % 64 + 128),
        UInt8.ofNat (ch.toNat % 64 + 128)]
    else
      [UInt8.ofNat (ch.toNat / 262144 % 8 + 240), UInt8.ofNat (ch.toNat / 4096 % 64 + 128),
        UInt8.ofNat (ch.toNat / 64 % 64 + 128), UInt8.ofNat (ch.toNat % 64 + 128)] :=
  rfl

theorem assemble_one (a : UInt8) (t : List UInt8) : assemble 1 a t = Char.ofNat a.toNat := rfl

theorem assemble_two (a b : UInt8) (t : List UInt8) :
    assemble 2 a (b :: t) = Char.ofNat (a.toNat % 32 * 64 + b.toNat % 64) := rfl

theorem assemble_three (a b c : UInt8) (t : List UInt8) :
    assemble 3 a (b :: c :: t) =
      Char.ofNat ((a.toNat % 16 * 64 + b.toNat % 64) * 64 + c.toNat % 64) := rfl

theorem assemble_four (a b c d : UInt8) (t : List UInt8) :
    assemble 4 a (b :: c :: d :: t) =
      Char.ofNat (((a.toNat % 8 * 64 + b.toNat % 64) * 64 + c.toNat % 64) * 64 + d.toNat % 64) := rfl

theorem flaw_two : continuationFlaw? pos 2 a t = none ↔ ∃ b r, t = b :: r ∧ isSecond a b = true := by
  cases t with
  | nil => simp [continuationFlaw?]
  | cons b r => cases hb : isSecond a b <;> simp [continuationFlaw?, hb]

theorem flaw_three : continuationFlaw? pos 3 a t = none ↔
    ∃ b c r, t = b :: c :: r ∧ isSecond a b = true ∧ isContinuation c = true := by
  rcases t with _ | ⟨b, _ | ⟨c, r⟩⟩
  · simp [continuationFlaw?]
  · cases hb : isSecond a b <;> simp [continuationFlaw?, hb]
  · cases hb : isSecond a b <;> cases hc : isContinuation c <;> simp [continuationFlaw?, hb, hc]

theorem flaw_four : continuationFlaw? pos 4 a t = none ↔
    ∃ b c d r, t = b :: c :: d :: r ∧ isSecond a b = true ∧ isContinuation c = true ∧
      isContinuation d = true := by
  rcases t with _ | ⟨b, _ | ⟨c, _ | ⟨d, r⟩⟩⟩
  · simp [continuationFlaw?]
  · cases hb : isSecond a b <;> simp [continuationFlaw?, hb]
  · cases hb : isSecond a b <;> cases hc : isContinuation c <;> simp [continuationFlaw?, hb, hc]
  · cases hb : isSecond a b <;> cases hc : isContinuation c <;> cases hd : isContinuation d <;>
      simp [continuationFlaw?, hb, hc, hd]

/-- The decoder takes a character off the bytes that begin with `a`. -/
def Reads (pos : ℕ) (a : UInt8) (t : List UInt8) (ch : Char) (rest : List UInt8) : Prop :=
  characterWidth a ≠ 0 ∧ continuationFlaw? pos (characterWidth a) a t = none ∧
    assemble (characterWidth a) a t = ch ∧ t.drop (characterWidth a - 1) = rest

theorem encode_one (ha : a.toNat < 128) : String.utf8EncodeChar (Char.ofNat a.toNat) = [a] := by
  have hvalue := toNat_ofNat_of_valid (n := a.toNat) (Or.inl (by omega))
  rw [utf8EncodeChar_eq, if_pos (by omega), ← eq_ofNat hvalue.symm]

theorem encode_two (ha : 194 ≤ a.toNat) (ha' : a.toNat < 224) (hb : isSecond a b = true) :
    String.utf8EncodeChar (Char.ofNat (a.toNat % 32 * 64 + b.toNat % 64)) = [a, b] := by
  have hb := isSecond_iff.1 hb
  have hvalue := toNat_ofNat_of_valid (n := a.toNat % 32 * 64 + b.toNat % 64) (Or.inl (by omega))
  rw [utf8EncodeChar_eq, if_neg (by omega), if_pos (by omega), ← eq_ofNat (b := a) (by omega),
    ← eq_ofNat (b := b) (by omega)]

theorem encode_three (ha : 224 ≤ a.toNat) (ha' : a.toNat < 240) (hb : isSecond a b = true)
    (hc : isContinuation c = true) :
    String.utf8EncodeChar
      (Char.ofNat ((a.toNat % 16 * 64 + b.toNat % 64) * 64 + c.toNat % 64)) = [a, b, c] := by
  have hb := isSecond_iff.1 hb
  have hc := isContinuation_iff.1 hc
  have hvalid : ((a.toNat % 16 * 64 + b.toNat % 64) * 64 + c.toNat % 64).isValidChar := by
    unfold Nat.isValidChar
    omega
  have hvalue := toNat_ofNat_of_valid hvalid
  rw [utf8EncodeChar_eq, if_neg (by omega), if_neg (by omega), if_pos (by omega),
    ← eq_ofNat (b := a) (by omega), ← eq_ofNat (b := b) (by omega), ← eq_ofNat (b := c) (by omega)]

theorem encode_four (ha : 240 ≤ a.toNat) (ha' : a.toNat < 245) (hb : isSecond a b = true)
    (hc : isContinuation c = true) (hd : isContinuation d = true) :
    String.utf8EncodeChar (Char.ofNat
      (((a.toNat % 8 * 64 + b.toNat % 64) * 64 + c.toNat % 64) * 64 + d.toNat % 64)) =
      [a, b, c, d] := by
  have hb := isSecond_iff.1 hb
  have hc := isContinuation_iff.1 hc
  have hd := isContinuation_iff.1 hd
  have hvalid : (((a.toNat % 8 * 64 + b.toNat % 64) * 64 + c.toNat % 64) * 64 +
      d.toNat % 64).isValidChar := by
    unfold Nat.isValidChar
    omega
  have hvalue := toNat_ofNat_of_valid hvalid
  rw [utf8EncodeChar_eq, if_neg (by omega), if_neg (by omega), if_neg (by omega),
    ← eq_ofNat (b := a) (by omega), ← eq_ofNat (b := b) (by omega), ← eq_ofNat (b := c) (by omega),
    ← eq_ofNat (b := d) (by omega)]

/-- **Bytes that are read as a character** are the bytes of that character. -/
theorem eq_encode_of_reads (h : Reads pos a t ch rest) :
    a :: t = String.utf8EncodeChar ch ++ rest := by
  obtain ⟨hwidth, hflaw, hch, hrest⟩ := h
  have hcases := characterWidth_eq a
  split_ifs at hcases with h128 h194 h224 h240 h245
  · rw [hcases] at hch hrest
    rw [← hch, ← hrest, assemble_one, encode_one h128]
    rfl
  · exact absurd hcases hwidth
  · rw [hcases] at hflaw hch hrest
    obtain ⟨b, r, rfl, hb⟩ := flaw_two.1 hflaw
    rw [← hch, ← hrest, assemble_two, encode_two (by omega) h224 hb]
    rfl
  · rw [hcases] at hflaw hch hrest
    obtain ⟨b, c, r, rfl, hb, hc⟩ := flaw_three.1 hflaw
    rw [← hch, ← hrest, assemble_three, encode_three (by omega) h240 hb hc]
    rfl
  · rw [hcases] at hflaw hch hrest
    obtain ⟨b, c, d, r, rfl, hb, hc, hd⟩ := flaw_four.1 hflaw
    rw [← hch, ← hrest, assemble_four, encode_four (by omega) h245 hb hc hd]
    rfl
  · exact absurd hcases hwidth

theorem reads_one (ha : a.toNat = ch.toNat) (hhigh : ch.toNat ≤ 127) : Reads pos a rest ch rest := by
  have hwidth : characterWidth a = 1 := by
    rw [characterWidth_eq, if_pos (by omega)]
  unfold Reads
  rw [hwidth, assemble_one, ha, Char.ofNat_toNat]
  exact ⟨by omega, rfl, rfl, rfl⟩

theorem reads_two (ha : a.toNat = ch.toNat / 64 % 32 + 192) (hb : b.toNat = ch.toNat % 64 + 128)
    (hlow : 127 < ch.toNat) (hhigh : ch.toNat ≤ 2047) : Reads pos a (b :: rest) ch rest := by
  have hwidth : characterWidth a = 2 := by
    rw [characterWidth_eq, if_neg (by omega), if_neg (by omega), if_pos (by omega)]
  have hvalue : a.toNat % 32 * 64 + b.toNat % 64 = ch.toNat := by omega
  unfold Reads
  rw [hwidth, assemble_two, hvalue, Char.ofNat_toNat]
  refine ⟨by omega, flaw_two.2 ⟨b, rest, rfl, isSecond_iff.2 ?_⟩, rfl, rfl⟩
  omega

theorem reads_three (ha : a.toNat = ch.toNat / 4096 % 16 + 224)
    (hb : b.toNat = ch.toNat / 64 % 64 + 128) (hc : c.toNat = ch.toNat % 64 + 128)
    (hlow : 2047 < ch.toNat) (hhigh : ch.toNat ≤ 65535) : Reads pos a (b :: c :: rest) ch rest := by
  have hvalid : ch.toNat < 55296 ∨ 57343 < ch.toNat ∧ ch.toNat < 1114112 := ch.valid
  have hwidth : characterWidth a = 3 := by
    rw [characterWidth_eq, if_neg (by omega), if_neg (by omega), if_neg (by omega), if_pos (by omega)]
  have hvalue : (a.toNat % 16 * 64 + b.toNat % 64) * 64 + c.toNat % 64 = ch.toNat := by omega
  have hsecond : isSecond a b = true := isSecond_iff.2 (by omega)
  have hthird : isContinuation c = true := isContinuation_iff.2 (by omega)
  unfold Reads
  rw [hwidth, assemble_three, hvalue, Char.ofNat_toNat]
  exact ⟨by omega, flaw_three.2 ⟨b, c, rest, rfl, hsecond, hthird⟩, rfl, rfl⟩

theorem reads_four (ha : a.toNat = ch.toNat / 262144 % 8 + 240)
    (hb : b.toNat = ch.toNat / 4096 % 64 + 128) (hc : c.toNat = ch.toNat / 64 % 64 + 128)
    (hd : d.toNat = ch.toNat % 64 + 128) (hlow : 65535 < ch.toNat) :
    Reads pos a (b :: c :: d :: rest) ch rest := by
  have hvalid : ch.toNat < 55296 ∨ 57343 < ch.toNat ∧ ch.toNat < 1114112 := ch.valid
  have hwidth : characterWidth a = 4 := by
    rw [characterWidth_eq, if_neg (by omega), if_neg (by omega), if_neg (by omega), if_neg (by omega),
      if_pos (by omega)]
  have hvalue : ((a.toNat % 8 * 64 + b.toNat % 64) * 64 + c.toNat % 64) * 64 + d.toNat % 64 =
      ch.toNat := by
    omega
  have hsecond : isSecond a b = true := isSecond_iff.2 (by omega)
  have hthird : isContinuation c = true := isContinuation_iff.2 (by omega)
  have hfourth : isContinuation d = true := isContinuation_iff.2 (by omega)
  unfold Reads
  rw [hwidth, assemble_four, hvalue, Char.ofNat_toNat]
  exact ⟨by omega, flaw_four.2 ⟨b, c, d, rest, rfl, hsecond, hthird, hfourth⟩, rfl, rfl⟩

/-- **The bytes of a character** are read as that character. -/
theorem exists_reads (ch : Char) (rest : List UInt8) (pos : ℕ) :
    ∃ a t, String.utf8EncodeChar ch ++ rest = a :: t ∧ Reads pos a t ch rest := by
  rw [utf8EncodeChar_eq]
  split_ifs with h127 h2047 h65535
  · exact ⟨_, _, rfl, reads_one (toNat_ofNat_of_lt (by omega)) h127⟩
  · exact ⟨_, _, rfl, reads_two (toNat_ofNat_of_lt (by omega)) (toNat_ofNat_of_lt (by omega))
      (by omega) h2047⟩
  · exact ⟨_, _, rfl, reads_three (toNat_ofNat_of_lt (by omega)) (toNat_ofNat_of_lt (by omega))
      (toNat_ofNat_of_lt (by omega)) (by omega) h65535⟩
  · exact ⟨_, _, rfl, reads_four (toNat_ofNat_of_lt (by omega)) (toNat_ofNat_of_lt (by omega))
      (toNat_ofNat_of_lt (by omega)) (toNat_ofNat_of_lt (by omega)) (by omega)⟩

/-! ## Whole texts -/

theorem toList_loop (bs : ByteArray) (i : ℕ) (r : List UInt8) :
    ByteArray.toList.loop bs i r = r.reverse ++ bs.data.toList.drop i := by
  fun_induction ByteArray.toList.loop bs i r with
  | case1 i r h ih =>
    have hi : i < bs.data.toList.length := h
    have hget : bs.get! i = bs.data.toList[i] := getElem!_pos bs.data i h
    rw [ih, List.drop_eq_getElem_cons hi, hget, List.reverse_cons, List.append_assoc,
      List.singleton_append]
  | case2 i r h =>
    rw [List.drop_of_length_le (Nat.le_of_not_lt h), List.append_nil]

theorem encodeUtf8_eq (s : String) : encodeUtf8 s = s.toUTF8.data.toList := by
  unfold encodeUtf8 ByteArray.toList
  rw [toList_loop, List.reverse_nil, List.nil_append, List.drop_zero]

theorem encodeUtf8_inj {s t : String} : encodeUtf8 s = encodeUtf8 t ↔ s = t := by
  rw [encodeUtf8_eq, encodeUtf8_eq, Array.toList_inj, ← ByteArray.ext_iff]
  exact String.toByteArray_inj

/-- The bytes of a text are those of its characters. -/
theorem encodeUtf8_eq_flatMap (s : String) :
    encodeUtf8 s = s.toList.flatMap String.utf8EncodeChar := by
  have hbytes : s.toUTF8 = s.toList.utf8Encode := String.utf8Encode_toList.symm
  rw [encodeUtf8_eq, hbytes]
  exact List.toList_data_toByteArray

theorem decodeFrom_nil (skip pos : ℕ) (acc : List Char) :
    decodeFrom skip pos acc [] = .ok acc.reverse := by
  cases skip <;> rfl

/-- The bytes of a character that was read are passed over. -/
theorem decodeFrom_skip (skip pos : ℕ) (acc : List Char) (t : List UInt8) :
    decodeFrom skip pos acc t = decodeFrom 0 (pos + skip) acc (t.drop skip) := by
  induction skip generalizing pos t with
  | zero => rfl
  | succ skip ih =>
    cases t with
    | nil => rw [List.drop_nil, decodeFrom_nil, decodeFrom_nil]
    | cons b t =>
      rw [decodeFrom, ih (pos + 1) t, List.drop_succ_cons, Nat.add_assoc, Nat.add_comm 1 skip]

/-- **One character is decoded at a time.** -/
theorem decodeFrom_of_reads (h : Reads pos a t ch rest) (acc : List Char) :
    decodeFrom 0 pos acc (a :: t) =
      decodeFrom 0 (pos + 1 + (characterWidth a - 1)) (ch :: acc) rest := by
  obtain ⟨hwidth, hflaw, hch, hrest⟩ := h
  have hzero : ¬ (characterWidth a == 0) = true := by
    rwa [beq_iff_eq]
  rw [decodeFrom]
  simp only [hzero, Bool.false_eq_true, if_false, hflaw]
  rw [decodeFrom_skip, hch, hrest]

/-- What the decoder does not refuse begins with a character. -/
theorem reads_of_decodeFrom {acc cs : List Char} (h : decodeFrom 0 pos acc (a :: t) = .ok cs) :
    Reads pos a t (assemble (characterWidth a) a t) (t.drop (characterWidth a - 1)) := by
  rw [decodeFrom] at h
  split_ifs at h with hzero
  split at h
  · cases h
  · next hflaw =>
    rw [beq_iff_eq] at hzero
    exact ⟨hzero, hflaw, rfl, rfl⟩

theorem decodeFrom_flatMap (cs acc : List Char) (pos : ℕ) :
    decodeFrom 0 pos acc (cs.flatMap String.utf8EncodeChar) = .ok (acc.reverse ++ cs) := by
  induction cs generalizing acc pos with
  | nil => rw [List.flatMap_nil, decodeFrom_nil, List.append_nil]
  | cons ch cs ih =>
    obtain ⟨a, t, hbytes, hreads⟩ := exists_reads ch (cs.flatMap String.utf8EncodeChar) pos
    rw [List.flatMap_cons, hbytes, decodeFrom_of_reads hreads, ih, List.reverse_cons,
      List.append_assoc, List.singleton_append]

theorem eq_flatMap_of_decodeFrom {bytes : List UInt8} {acc cs : List Char}
    (h : decodeFrom 0 pos acc bytes = .ok cs) :
    ∃ cs', cs = acc.reverse ++ cs' ∧ bytes = cs'.flatMap String.utf8EncodeChar := by
  -- by the number of bytes: what follows a character has fewer
  induction hn : bytes.length using Nat.strong_induction_on generalizing bytes pos acc with
  | _ n ih =>
    cases bytes with
    | nil =>
      rw [decodeFrom_nil, Except.ok.injEq] at h
      exact ⟨[], by rw [List.append_nil, h], rfl⟩
    | cons a t =>
      have hreads := reads_of_decodeFrom h
      rw [decodeFrom_of_reads hreads] at h
      have hless : (t.drop (characterWidth a - 1)).length < n := by
        rw [List.length_drop, ← hn, List.length_cons]
        omega
      obtain ⟨cs', hcs, hrest⟩ := ih _ hless h rfl
      refine ⟨assemble (characterWidth a) a t :: cs', ?_, ?_⟩
      · rw [hcs, List.reverse_cons, List.append_assoc, List.singleton_append]
      · rw [List.flatMap_cons, ← hrest]
        exact eq_encode_of_reads hreads

/-- **Decoding accepts exactly the bytes of texts**, and reads them as the
text. -/
theorem decodeUtf8_eq_ok_iff {bytes : List UInt8} {s : String} :
    decodeUtf8 bytes = .ok s ↔ bytes = encodeUtf8 s := by
  rw [encodeUtf8_eq_flatMap]
  constructor
  · intro h
    cases hdecode : decodeFrom 0 0 [] bytes with
    | error flaw =>
      rw [decodeUtf8, hdecode] at h
      cases h
    | ok cs =>
      obtain ⟨cs', hcs, hbytes⟩ := eq_flatMap_of_decodeFrom hdecode
      rw [decodeUtf8, hdecode, hcs] at h
      obtain rfl : String.ofList cs' = s := Except.ok.inj h
      rw [String.toList_ofList]
      exact hbytes
  · rintro rfl
    rw [decodeUtf8, decodeFrom_flatMap]
    exact congrArg Except.ok (String.ofList_toList)

end SecureReview.Text
