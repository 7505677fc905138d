import SecureReview.Proofs.World.Paths
import SecureReview.Webhook.Event
/-!
# Signatures that are accepted

Under a secret a request counts as signed exactly if its header **carries
the signature of the body** (`isSigned_eq_true_iff`): it names the scheme,
and what follows up to the next equals sign is the signature. A signature
has no equals sign, so the scheme with the signature is such a header
(`carries_signature`), and every other one goes on with an equals sign
after it. A header that offers a text beyond ASCII cannot be compared; up
to these two sorts of headers, **signatures are accepted exactly**
(`isSigned_exact_iff`).
-/

namespace SecureReview.Webhook

variable {secret h : String} {payload : List UInt8} {v : Json}

/-- A header carries the signature of a payload. -/
def Carries (secret : String) (payload : List UInt8) (v : Json) : Prop :=
  ∃ h, v = .str h ∧ Text.startsWith h scheme = true ∧ claimed h = signature secret payload

/-- The digits of a signature are ASCII, and none is an equals sign. -/
theorem of_mem_signature {c : Char} (hc : c ∈ (signature secret payload).toList) :
    c.toNat < 128 ∧ c ≠ '=' := by
  have hdigits : ∀ n < 16, (Text.hexDigit n).toNat < 128 ∧ Text.hexDigit n ≠ '=' := by decide
  obtain ⟨n, hn, rfl⟩ := Sha256.exists_of_mem_hex hc
  exact hdigits n hn

theorem agrees_signature_iff {expected : String} :
    agrees (signature secret payload) expected = .ok true ↔ expected = signature secret payload := by
  unfold agrees
  split_ifs with hascii
  · rw [Except.ok.injEq, beq_iff_eq, eq_comm]
  · constructor
    · intro herror
      cases herror
    · rintro rfl
      refine absurd (List.all_eq_true.2 fun c hc => ?_) hascii
      exact decide_eq_true (of_mem_signature hc).1

theorem filter_secret (hset : secret ≠ "") : (some secret).filter (· != "") = some secret := by
  simp [hset]

theorem ne_empty_of_startsWith (hstarts : Text.startsWith h scheme = true) : h ≠ "" := by
  rintro rfl
  cases hstarts

/-- Of a text only what it begins with and what it claims count. The empty
text, which is turned away first, does not begin with the scheme. -/
theorem isSigned_str (hset : secret ≠ "") : isSigned (some secret) payload (.str h) =
    if Text.startsWith h scheme then agrees (signature secret payload) (claimed h) else .ok false := by
  unfold isSigned
  rw [filter_secret hset]
  by_cases hstarts : Text.startsWith h scheme = true
  · simp [Json.truthy, ne_empty_of_startsWith hstarts, Json.asString, hstarts, bind, Except.bind]
  · rw [if_neg hstarts]
    by_cases hempty : h = ""
    · simp [Json.truthy, hempty, pure, Except.pure]
    · simp [Json.truthy, hempty, Json.asString, hstarts, bind, Except.bind, pure, Except.pure]

/-- **A request counts as signed if its header carries the signature.** -/
theorem isSigned_eq_true_iff (hset : secret ≠ "") :
    isSigned (some secret) payload v = .ok true ↔ Carries secret payload v := by
  cases v with
  | str h =>
    rw [isSigned_str hset]
    by_cases hstarts : Text.startsWith h scheme = true
    · simp [Carries, hstarts, agrees_signature_iff]
    · simp [Carries, hstarts]
  | _ =>
    -- a value of another kind counts as absent or cannot be read as a text
    unfold isSigned
    rw [filter_secret hset]
    simp only [Carries, Json.asString]
    split_ifs <;> simp [bind, Except.bind, pure, Except.pure]

/-! ## What a header offers -/

/-- A header offers a text as the signature: it is all that stands between
the scheme and the next equals sign, or the end. -/
def Offers (h p : String) : Prop :=
  '=' ∉ p.toList ∧ (h = scheme ++ p ∨ ∃ r, h = scheme ++ p ++ "=" ++ r)

theorem claimed_eq_of_split {t q : List Char} {qs : List (List Char)}
    (hh : h.toList = scheme.toList ++ t) (hsplit : Text.splitAtEach ['='] t = q :: qs) :
    claimed h = String.ofList q := by
  have hscheme : scheme.toList ++ t = "sha256".toList ++ '=' :: t := rfl
  have hpieces : Text.splitAtEach ['='] h.toList = "sha256".toList :: q :: qs := by
    rw [hh, hscheme, Text.splitAtEach_append (by decide), hsplit]
  have hsep : "=".toList = ['='] := rfl
  rw [claimed, Text.split, hsep, hpieces]
  rfl

/-- **What a header offers is what it claims.** -/
theorem Offers.claimed_eq {p : String} (hoffers : Offers h p) :
    Text.startsWith h scheme = true ∧ claimed h = p := by
  obtain ⟨hequals, rfl | ⟨r, rfl⟩⟩ := hoffers
  · refine ⟨by simp [Text.startsWith], ?_⟩
    rw [claimed_eq_of_split String.toList_append (Text.splitAtEach_of_not_mem hequals),
      String.ofList_toList]
  · have htext : (scheme ++ p ++ "=" ++ r).toList = scheme.toList ++ (p.toList ++ '=' :: r.toList) := by
      simp
    refine ⟨by simp [Text.startsWith], ?_⟩
    rw [claimed_eq_of_split htext (Text.splitAtEach_append hequals r.toList), String.ofList_toList]

/-- A header with the scheme offers what stands before the first equals
sign, if there is one, and all of it if there is none. -/
theorem exists_offers (hstarts : Text.startsWith h scheme = true) : ∃ p, Offers h p := by
  obtain ⟨t, ht⟩ := List.isPrefixOf_iff_prefix.1 hstarts
  by_cases hequals : '=' ∈ t
  · obtain ⟨p, r, rfl, hp⟩ := List.eq_append_cons_of_mem hequals
    refine ⟨String.ofList p, by simpa using hp, Or.inr ⟨String.ofList r, ?_⟩⟩
    rw [← String.toList_inj, ← ht]
    simp
  · refine ⟨String.ofList t, by simpa using hequals, Or.inl ?_⟩
    rw [← String.toList_inj, ← ht]
    simp

theorem offers_iff {p : String} :
    Offers h p ↔ Text.startsWith h scheme = true ∧ claimed h = p := by
  constructor
  · exact Offers.claimed_eq
  · rintro ⟨hstarts, rfl⟩
    obtain ⟨p, hoffers⟩ := exists_offers hstarts
    rwa [hoffers.claimed_eq.2]

/-- A header goes on with an equals sign after the signature. -/
def GoesOn (secret : String) (payload : List UInt8) (h : String) : Prop :=
  ∃ r, h = scheme ++ signature secret payload ++ "=" ++ r

theorem GoesOn.ne (hgoes : GoesOn secret payload h) : h ≠ scheme ++ signature secret payload := by
  obtain ⟨r, rfl⟩ := hgoes
  intro hsame
  have htexts := congrArg String.toList hsame
  simp at htexts

theorem offers_signature_iff : Offers h (signature secret payload) ↔
    h = scheme ++ signature secret payload ∨ GoesOn secret payload h :=
  and_iff_right fun hmem => (of_mem_signature hmem).2 rfl

/-- **The scheme with the signature is a header that is accepted.** -/
theorem carries_signature : Carries secret payload (.str (scheme ++ signature secret payload)) :=
  ⟨_, rfl, offers_iff.1 (offers_signature_iff.2 (Or.inl rfl))⟩

/-! ## Headers that are accepted, and those that fail -/

theorem isSigned_str_eq_true_iff (hset : secret ≠ "") :
    isSigned (some secret) payload (.str h) = .ok true ↔ Offers h (signature secret payload) := by
  rw [isSigned_eq_true_iff hset, offers_iff]
  simp [Carries]

/-- What a header offers has a character beyond ASCII. -/
def Foreign (h : String) : Prop :=
  ∃ p, Offers h p ∧ ∃ c ∈ p.toList, 128 ≤ c.toNat

/-- **Checking a header fails exactly if it offers a text beyond ASCII.** -/
theorem isSigned_str_eq_error_iff (hset : secret ≠ "") :
    (∃ e, isSigned (some secret) payload (.str h) = .error e) ↔ Foreign h := by
  rw [isSigned_str hset]
  by_cases hstarts : Text.startsWith h scheme = true
  · have hforeign : Foreign h ↔ ∃ c ∈ (claimed h).toList, 128 ≤ c.toNat := by
      simp [Foreign, offers_iff, hstarts]
    rw [if_pos hstarts, hforeign, agrees]
    split_ifs with hascii
    · simp only [List.all_eq_true, decide_eq_true_eq] at hascii
      simpa using hascii
    · simp only [List.all_eq_true, decide_eq_true_eq, not_forall, not_lt] at hascii
      obtain ⟨c, hc, hlarge⟩ := hascii
      exact iff_of_true ⟨_, rfl⟩ ⟨c, hc, hlarge⟩
  · rw [if_neg hstarts]
    simp [Foreign, offers_iff, hstarts]

theorem length_hash (message : List UInt8) : (Sha256.hash message).length = 32 := rfl

theorem length_hex (bytes : List UInt8) : (Sha256.hex bytes).length = 2 * bytes.length := by
  rw [Sha256.hex, String.length_ofList]
  induction bytes with
  | nil => rfl
  | cons b bytes ih =>
    rw [List.flatMap_cons, List.length_append, ih, List.length_cons]
    simp only [List.length_cons, List.length_nil]
    omega

theorem length_signature : (signature secret payload).length = 64 := by
  rw [signature, length_hex, Sha256.keyed, length_hash]

/-- The digits of a signature are the small hexadecimal ones. -/
theorem mem_digits_of_mem_signature {c : Char} (hc : c ∈ (signature secret payload).toList) :
    c ∈ "0123456789abcdef".toList := by
  have hdigits : ∀ n < 16, Text.hexDigit n ∈ "0123456789abcdef".toList := by decide
  obtain ⟨n, hn, rfl⟩ := Sha256.exists_of_mem_hex hc
  exact hdigits n hn

/-- **Signatures are accepted exactly, but for two sorts of headers.** Under
a secret a missing header is refused, and a header is accepted if it is
the scheme with the 64 small hexadecimal digits of the signature, or goes
on with an equals sign after it. Checking fails if the header offers a
text beyond ASCII. So the answer tells whether the header is the scheme
with the signature exactly if it is of neither of these two sorts. -/
theorem isSigned_exact_iff (hset : secret ≠ "") (payload : List UInt8) :
    (signature secret payload).length = 64 ∧
    (∀ c ∈ (signature secret payload).toList, c ∈ "0123456789abcdef".toList) ∧
    isSigned (some secret) payload .null = .ok false ∧
    ∀ h,
      (isSigned (some secret) payload (.str h) = .ok true ↔
        h = scheme ++ signature secret payload ∨ GoesOn secret payload h) ∧
      ((∃ e, isSigned (some secret) payload (.str h) = .error e) ↔ Foreign h) ∧
      (isSigned (some secret) payload (.str h) = .ok (h == scheme ++ signature secret payload) ↔
        ¬ GoesOn secret payload h ∧ ¬ Foreign h) := by
  have hmissing : isSigned (some secret) payload .null = .ok false := by
    unfold isSigned
    rw [filter_secret hset]
    rfl
  refine ⟨length_signature, fun c hc => mem_digits_of_mem_signature hc, hmissing, fun h => ?_⟩
  have htrue : isSigned (some secret) payload (.str h) = .ok true ↔
      h = scheme ++ signature secret payload ∨ GoesOn secret payload h :=
    (isSigned_str_eq_true_iff hset).trans offers_signature_iff
  have herror : (∃ e, isSigned (some secret) payload (.str h) = .error e) ↔ Foreign h :=
    isSigned_str_eq_error_iff hset
  refine ⟨htrue, herror, ?_⟩
  rcases hsigned : isSigned (some secret) payload (.str h) with e | b
  · have hforeign : Foreign h := herror.1 ⟨e, hsigned⟩
    simp [hforeign]
  · have hplain : ¬ Foreign h := by
      intro hforeign
      obtain ⟨e, he⟩ := herror.2 hforeign
      cases hsigned.symm.trans he
    rw [hsigned, Except.ok.injEq] at htrue
    rw [Except.ok.injEq, and_iff_left hplain]
    by_cases hexact : h = scheme ++ signature secret payload
    · refine iff_of_true ((htrue.2 (Or.inl hexact)).trans (by simp [hexact])) ?_
      exact fun hgoes => hgoes.ne hexact
    · -- another header is accepted if it goes on after the signature
      have hother : (h == scheme ++ signature secret payload) = false := by simpa using hexact
      rw [hother, ← Bool.not_eq_true, htrue, or_iff_right hexact]

/-- The signature of a short body. -/
theorem signature_of_short_body : signature "s3cret" (Text.encodeUtf8 "\x7b\"a\": 1\x7d") =
    "1a9fab6cd4b8cdcaad8640f3eca73fa924c62ff24f3833254ef3547232153767" := by
  decide +kernel

/-- **A header with the signature is accepted**, and a missing one is not. -/
theorem isSigned_exact_of_short_body :
    let body := Text.encodeUtf8 "\x7b\"a\": 1\x7d"
    "s3cret" ≠ "" ∧
    isSigned (some "s3cret") body
      (.str "sha256=1a9fab6cd4b8cdcaad8640f3eca73fa924c62ff24f3833254ef3547232153767") = .ok true ∧
    isSigned (some "s3cret") body .null = .ok false := by
  intro body
  have hset : "s3cret" ≠ "" := by decide
  obtain ⟨-, -, hmissing, hstrings⟩ := isSigned_exact_iff hset body
  refine ⟨hset, (hstrings _).1.2 (Or.inl ?_), hmissing⟩
  rw [signature_of_short_body]
  rfl

/-- **More than the signature is accepted**, and not every header is
answered: one that goes on with an equals sign is taken as signed, and one
beyond ASCII makes the check fail. -/
theorem isSigned_accepts_more_than_signature :
    let body := Text.encodeUtf8 "\x7b\"a\": 1\x7d"
    let longer := "sha256=1a9fab6cd4b8cdcaad8640f3eca73fa924c62ff24f3833254ef3547232153767=x"
    longer ≠ scheme ++ signature "s3cret" body ∧
    isSigned (some "s3cret") body (.str longer) = .ok true ∧
    ∃ e, isSigned (some "s3cret") body (.str "sha256=é") = .error e := by
  intro body longer
  have hset : "s3cret" ≠ "" := by decide
  refine ⟨?_, (isSigned_str_eq_true_iff hset).2 (offers_signature_iff.2 (Or.inr ⟨"x", ?_⟩)),
    (isSigned_str_eq_error_iff hset).2 ⟨"é", ⟨by decide, Or.inl rfl⟩, 'é', by decide, by decide⟩⟩
  · rw [signature_of_short_body]
    decide
  · rw [signature_of_short_body]
    rfl

end SecureReview.Webhook
