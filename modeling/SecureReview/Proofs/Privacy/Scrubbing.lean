import SecureReview.Proofs.Privacy.Address
/-!
# What scrubbing leaves behind

Redacting a text replaces the ten kinds of secrets one after the other.
Nine of them are gone afterwards and stay gone
(`not_occursIn_redactSecrets`): their patterns have no brackets, and
what stands between the placeholders was copied. The addresses of
databases are the exception. A scheme that is followed by no address,
because an `@/` in the user name of a later one breaks it off, may be
followed by one once that later address is replaced
(`UncoversAddress`), and exactly then something is left
(`isClean_redactSecrets_iff`). The turn of each kind is one pass over the
text, and is logged with the positions before it (`redactKind_in_one_pass`).
-/

namespace SecureReview

namespace SecretKind

/-- The word between the brackets of the placeholder. -/
def word (k : SecretKind) : List Char :=
  (k.name ++ "_REDACTED").toList

/-- The text with every secret of the kind replaced. -/
def scrub (k : SecretKind) (t : List Char) : List Char :=
  Privacy.replaceAll k.pattern k.placeholder.toList t

theorem placeholder_toList (k : SecretKind) : k.placeholder.toList = Privacy.bracketed k.word := by
  simp [placeholder, word, Privacy.bracketed, toString]

end SecretKind

namespace Privacy

open Pattern SecretKind

variable {k j : SecretKind} {q : Pattern} {t u s r : List Char}
variable (field : String)

/-! ## The kinds that are known -/

/-- Every kind of secret has at least one character. -/
theorem not_matches_nil (hk : k ∈ known) : ¬ Matches k.pattern [] := by
  have hall : ∀ k ∈ known, k.pattern.nullable = false := by decide
  rw [← nullable_iff, hall k hk]
  exact Bool.false_ne_true

/-- Only the addresses of databases may have brackets. -/
theorem excludes_brackets (hk : k ∈ known) (hname : k.name ≠ "DATABASE_URL") :
    k.pattern.excludes '<' = true ∧ k.pattern.excludes '>' = true := by
  have hall : ∀ k ∈ known, k.name ≠ "DATABASE_URL" →
      k.pattern.excludes '<' = true ∧ k.pattern.excludes '>' = true := by decide
  exact hall k hk hname

theorem eq_databaseUrl (hk : k ∈ known) (hname : k.name = "DATABASE_URL") : k = databaseUrl := by
  simp only [known, List.mem_cons, List.not_mem_nil, or_false] at hk
  rcases hk with rfl | rfl | rfl | rfl | rfl | rfl | rfl | rfl | rfl | rfl
  all_goals first | rfl | exact absurd hname (by decide)

/-- The word of a placeholder is no secret. -/
theorem not_occursIn_word (hk : k ∈ known) (hj : j ∈ known) : ¬ k.pattern.OccursIn j.word := by
  have hall : ∀ k ∈ known, ∀ j ∈ known, k.pattern.found j.word = false := by decide +kernel
  rw [← found_iff_occursIn (not_matches_nil hk), hall k hk j hj]
  exact Bool.false_ne_true

/-- And it has none of the marks that addresses are divided by. -/
theorem marks_not_mem_word (hj : j ∈ known) :
    ':' ∉ j.word ∧ '@' ∉ j.word ∧ '/' ∉ j.word := by
  have hall : ∀ j ∈ known, ':' ∉ j.word ∧ '@' ∉ j.word ∧ '/' ∉ j.word := by decide +kernel
  exact hall j hj

theorem isClean_iff : isClean t = true ↔ ∀ k ∈ known, ¬ k.pattern.OccursIn t := by
  simp only [isClean, List.all_eq_true, Bool.not_eq_true']
  refine forall₂_congr fun k hk => ?_
  rw [← found_iff_occursIn (not_matches_nil hk), Bool.not_eq_true]

/-! ## Nine kinds are gone -/

/-- A pattern that cannot reach into a placeholder. -/
structure Confined (q : Pattern) : Prop where
  nonempty : ¬ Matches q []
  left : q.excludes '<' = true
  right : q.excludes '>' = true
  word : ∀ j ∈ known, ¬ q.OccursIn j.word

theorem confined_of_mem (hk : k ∈ known) (hname : k.name ≠ "DATABASE_URL") :
    Confined k.pattern where
  nonempty := not_matches_nil hk
  left := (excludes_brackets hk hname).1
  right := (excludes_brackets hk hname).2
  word := fun _ hj => not_occursIn_word hk hj

/-- What does not occur does not come to occur by replacing secrets. -/
theorem Confined.not_occursIn_foldl_scrub (hq : Confined q) {ks : List SecretKind}
    (hks : ∀ j ∈ ks, j ∈ known) (h : ¬ q.OccursIn t) :
    ¬ q.OccursIn (ks.foldl (fun t j => j.scrub t) t) := by
  induction ks generalizing t with
  | nil => exact h
  | cons j ks ih =>
    have hj := hks j List.mem_cons_self
    refine ih (fun i hi => hks i (List.mem_cons_of_mem j hi)) fun hocc => h ?_
    simp only [scrub, placeholder_toList] at hocc
    exact occursIn_of_replaceAll (not_matches_nil hj) hq.nonempty hq.left hq.right
      (hq.word j hj) hocc

theorem redactSecrets_text (t : List Char) :
    (redactSecrets field t).text = known.foldl (fun t j => j.scrub t) t := by
  have hfold : ∀ (ks : List SecretKind) (r : Redacted),
      (ks.foldl (redactKind field) r).text = ks.foldl (fun t j => j.scrub t) r.text := by
    intro ks
    induction ks with
    | nil => exact fun _ => rfl
    | cons j ks ih => exact fun r => ih (redactKind field r j)
  exact hfold known ⟨t, []⟩

/-- **No secret of the other nine kinds is left.** -/
theorem not_occursIn_redactSecrets (hk : k ∈ known) (hname : k.name ≠ "DATABASE_URL") :
    ¬ k.pattern.OccursIn (redactSecrets field t).text := by
  have hq := confined_of_mem hk hname
  obtain ⟨before, after, hknown⟩ := List.append_of_mem hk
  rw [redactSecrets_text, hknown, List.foldl_append, List.foldl_cons]
  refine hq.not_occursIn_foldl_scrub (fun j hj => ?_) ?_
  · rw [hknown]
    exact List.mem_append_right before (List.mem_cons_of_mem k hj)
  · rw [scrub, placeholder_toList]
    exact not_occursIn_replaceAll_self hq.nonempty hq.left hq.right (hq.word k hk)

/-! ## What happens to addresses -/

/-- The text that addresses are looked for in: the kinds before them are
replaced. -/
def beforeAddresses (t : List Char) : List Char :=
  (known.take 8).foldl (fun t j => j.scrub t) t

theorem redactSecrets_text_eq (t : List Char) :
    (redactSecrets field t).text = jwtToken.scrub (databaseUrl.scrub (beforeAddresses t)) := by
  have hdrop : known.drop 8 = [databaseUrl, jwtToken] := rfl
  rw [redactSecrets_text, ← List.take_append_drop 8 known, List.foldl_append, hdrop,
    List.foldl_cons, List.foldl_cons, List.foldl_nil, beforeAddresses]

/-- **Replacing addresses uncovers one.** The search for addresses comes
to a scheme that no credentials follow, and they do follow when the
addresses behind it are replaced; nor is the scheme the end of a signed
token, which would be replaced with it. -/
def UncoversAddress (u : List Char) : Prop :=
  ∃ s r, Matches scheme s ∧
    databaseUrl.pattern.Reaches u (s ++ r) ∧
    hasCredentials r = false ∧ hasCredentials (databaseUrl.scrub r) = true ∧
    jwtToken.pattern.Reaches (databaseUrl.scrub u) (s ++ databaseUrl.scrub r)

theorem databaseUrl_mem : databaseUrl ∈ known := by simp [known]

theorem jwtToken_mem : jwtToken ∈ known := by simp [known]

/-- A scheme between the placeholders was copied. -/
theorem exists_gap_of_scheme (hj : j ∈ known) (hs : Matches scheme s) {a b : List Char}
    (h : j.scrub t = a ++ s ++ b) :
    ∃ r, j.pattern.Reaches t (s ++ r) ∧ j.pattern.PassesOver s r ∧ b = j.scrub r := by
  obtain ⟨c, l, hl⟩ := matches_scheme hs
  have hinfix : ¬ s <:+: j.word := by
    intro hi
    exact (marks_not_mem_word hj).1 (hi.subset (by simp [hl]))
  simp only [scrub, placeholder_toList] at h ⊢
  exact exists_gap (not_matches_nil hj) (by simp [hl]) (not_mem_of_excludes (by decide) hs)
    (not_mem_of_excludes (by decide) hs) hinfix h

/-- Replacing signed tokens does not change whether credentials follow. -/
theorem hasCredentials_jwtToken : hasCredentials (jwtToken.scrub r) = hasCredentials r := by
  obtain ⟨hcolon, hat, hslash⟩ := marks_not_mem_word jwtToken_mem
  rw [hasCredentials, hasCredentials, scrub, placeholder_toList,
    Reading.run_replaceAll (not_matches_nil jwtToken_mem) (by decide) (by decide) (by decide)
      hcolon hat hslash]

/-- After signed tokens have been replaced, the addresses left are those
whose scheme the search for tokens comes to. -/
theorem occursIn_scrub_jwtToken_iff :
    databaseUrl.pattern.OccursIn (jwtToken.scrub u) ↔
      ∃ s r, Matches scheme s ∧ jwtToken.pattern.Reaches u (s ++ r) ∧ hasCredentials r = true := by
  rw [occursIn_databaseUrl_iff]
  constructor
  · rintro ⟨a, s, b, h, hs, hb⟩
    obtain ⟨r, hreach, -, rfl⟩ := exists_gap_of_scheme jwtToken_mem hs h
    exact ⟨s, r, hs, hreach, hasCredentials_jwtToken ▸ hb⟩
  · rintro ⟨s, r, hs, hreach, hr⟩
    obtain ⟨a, ha⟩ := replaceAll_reaches jwtToken.placeholder.toList hreach
    refine ⟨a, s, jwtToken.scrub r, ?_, hs, hasCredentials_jwtToken.trans hr⟩
    rw [scrub, ha, replaceAll_passesOver (passesOver_jwtToken hs), List.append_assoc]
    rfl

/-- **An address is left exactly when one was uncovered.** -/
theorem occursIn_databaseUrl_iff_uncovers :
    databaseUrl.pattern.OccursIn (jwtToken.scrub (databaseUrl.scrub u)) ↔ UncoversAddress u := by
  rw [occursIn_scrub_jwtToken_iff]
  constructor
  · rintro ⟨s, b, hs, hjwt, hb⟩
    obtain ⟨a, ha⟩ := hjwt.exists_append
    rw [← List.append_assoc] at ha
    obtain ⟨r, hreach, hpass, rfl⟩ := exists_gap_of_scheme databaseUrl_mem hs ha
    refine ⟨s, r, hs, hreach, ?_, hb, hjwt⟩
    -- the search went past the first letter of the scheme
    rw [← length?_databaseUrl_scheme hs]
    obtain ⟨c, l, rfl⟩ := matches_scheme hs
    exact hpass.1
  · rintro ⟨s, r, hs, -, -, hr, hjwt⟩
    exact ⟨s, databaseUrl.scrub r, hs, hjwt, hr⟩

/-- **Scrubbing leaves a secret exactly when it uncovers an address.** -/
theorem isClean_redactSecrets_iff :
    isClean (redactSecrets field t).text = true ↔ ¬ UncoversAddress (beforeAddresses t) := by
  rw [isClean_iff, ← occursIn_databaseUrl_iff_uncovers, ← redactSecrets_text_eq field]
  constructor
  · exact fun h => h databaseUrl databaseUrl_mem
  · intro h k hk
    by_cases hname : k.name = "DATABASE_URL"
    · exact eq_databaseUrl hk hname ▸ h
    · exact not_occursIn_redactSecrets field hk hname

theorem occursIn_text_iff {w : String} : (text w).OccursIn t ↔ w.toList <:+: t := by
  simp only [OccursIn, matches_text_iff]
  constructor
  · rintro ⟨a, _, b, rfl, rfl⟩
    exact ⟨a, b, rfl⟩
  · rintro ⟨a, b, rfl⟩
    exact ⟨a, _, b, rfl, rfl⟩

/-- **A text without `@/` is scrubbed clean.** -/
theorem isClean_redactSecrets_of_no_mark (h : ¬ "@/".toList <:+: t) :
    isClean (redactSecrets field t).text = true := by
  rw [isClean_redactSecrets_iff]
  rintro ⟨s, r, -, hreach, hr, hr', -⟩
  have hmark : Confined (text "@/") := by
    refine ⟨by simp, by decide, by decide, fun j hj hocc => ?_⟩
    exact (marks_not_mem_word hj).2.1 ((occursIn_text_iff.1 hocc).subset (by simp))
  have hbefore : ¬ "@/".toList <:+: beforeAddresses t := by
    rw [← occursIn_text_iff] at h ⊢
    exact hmark.not_occursIn_foldl_scrub (fun j hj => List.mem_of_mem_take hj) h
  obtain ⟨a, ha⟩ := hreach.exists_append
  have hrest : ¬ "@/".toList <:+: r := fun hi => hbefore (hi.trans ⟨a ++ s, [], by simp [ha]⟩)
  obtain ⟨hcolon, hat, hslash⟩ := marks_not_mem_word databaseUrl_mem
  rw [hasCredentials, scrub, placeholder_toList, decide_eq_true_eq] at hr'
  have hcomplete := Reading.run_of_run_replaceAll hcolon hat hslash hrest hr'
  simp [hasCredentials, hcomplete] at hr

/-! ## Scrubbing again -/

/-- The turn of one kind adds to the log, unless nothing of it is
found. -/
theorem redactKind_eq (hk : k ∈ known) (x : Redacted) :
    ∃ entries, (redactKind field x k).log = x.log ++ entries ∧
      (entries = [] ↔ ¬ k.pattern.OccursIn x.text) := by
  refine ⟨_, rfl, ?_⟩
  rw [← spans_eq_nil_iff (not_matches_nil hk)]
  simp

theorem log_prefix_foldl (ks : List SecretKind) (x : Redacted) :
    x.log <+: (ks.foldl (redactKind field) x).log := by
  induction ks generalizing x with
  | nil => exact List.prefix_rfl
  | cons k ks ih =>
    have hstep : x.log <+: (redactKind field x k).log := List.prefix_append x.log _
    exact hstep.trans (ih (redactKind field x k))

theorem redactKind_of_not_occursIn (hk : k ∈ known) {x : Redacted}
    (h : ¬ k.pattern.OccursIn x.text) : redactKind field x k = x := by
  rw [← spans_eq_nil_iff (not_matches_nil hk)] at h
  simp [redactKind, h, spliceAll]

/-- **Scrubbing changes nothing, and logs nothing, exactly when the text
is clean.** -/
theorem redactSecrets_eq_self_iff :
    redactSecrets field t = ⟨t, []⟩ ↔ isClean t = true := by
  have hfold : ∀ (ks : List SecretKind) (x : Redacted), (∀ k ∈ ks, k ∈ known) →
      (ks.foldl (redactKind field) x = x ↔ ∀ k ∈ ks, ¬ k.pattern.OccursIn x.text) := by
    intro ks x hks
    induction ks with
    | nil => simp
    | cons k ks ih =>
      have hk := hks k List.mem_cons_self
      have ih := ih fun j hj => hks j (List.mem_cons_of_mem k hj)
      rw [List.foldl_cons, List.forall_mem_cons]
      constructor
      · intro h
        have hnot : ¬ k.pattern.OccursIn x.text := by
          obtain ⟨entries, hlog, hentries⟩ := redactKind_eq field hk x
          obtain ⟨more, hmore⟩ := log_prefix_foldl field ks (redactKind field x k)
          rw [h, hlog] at hmore
          have hnil : entries = [] ∧ more = [] := by simpa using hmore
          exact hentries.1 hnil.1
        rw [redactKind_of_not_occursIn field hk hnot] at h
        exact ⟨hnot, ih.1 h⟩
      · rintro ⟨hnot, h⟩
        rw [redactKind_of_not_occursIn field hk hnot]
        exact ih.2 h
  rw [redactSecrets, hfold known ⟨t, []⟩ (fun _ hk => hk), isClean_iff]

/-! ## The turn of one kind -/

/-- **Splicing backwards is one pass forwards.** The secrets of a kind are
replaced from the last to the first, by the positions they had at the
start. The text that comes out is that of a pass from left to right: all
that is not a secret is copied, and the placeholder is put for each
secret. The log gets one entry for each, with its position before the
pass, the last secret first. -/
theorem redactKind_in_one_pass (k : SecretKind) (hk : k ∈ known) (x : Redacted) :
    Substitutes k.pattern k.placeholder.toList 0 x.text (k.pattern.spans x.text)
      (redactKind field x k).text ∧
    (redactKind field x k).text =
      fillGaps k.placeholder.toList 0 x.text (k.pattern.spans x.text) ∧
    (redactKind field x k).log = x.log ++ (k.pattern.spans x.text).reverse.map fun s =>
      s!"Redacted {k.name} in {field} at position {s.start}" := by
  have hpass : Substitutes k.pattern k.placeholder.toList 0 x.text (k.pattern.spans x.text)
      (redactKind field x k).text :=
    substitutes_replaceAll (not_matches_nil hk) k.placeholder.toList x.text 0
  exact ⟨hpass, hpass.eq_fillGaps, rfl⟩

/-- Two keys in one text: the placeholders are longer than the keys, and
the entries have the old positions. -/
theorem redactKind_two_keys :
    awsAccessKey ∈ known ∧
    (awsAccessKey.pattern.spans "a=AKIA0123456789ABCDEF;b=AKIAFEDCBA9876543210.".toList).length = 2 ∧
    String.ofList (redactKind "f" ⟨"a=AKIA0123456789ABCDEF;b=AKIAFEDCBA9876543210.".toList, []⟩
      awsAccessKey).text = "a=<AWS_ACCESS_KEY_REDACTED>;b=<AWS_ACCESS_KEY_REDACTED>." ∧
    (redactKind "f" ⟨"a=AKIA0123456789ABCDEF;b=AKIAFEDCBA9876543210.".toList, []⟩ awsAccessKey).log =
      ["Redacted AWS_ACCESS_KEY in f at position 25", "Redacted AWS_ACCESS_KEY in f at position 2"] := by
  have hk : awsAccessKey ∈ known := by simp [known]
  obtain ⟨-, htext, hlog⟩ := redactKind_in_one_pass "f" awsAccessKey hk
    ⟨"a=AKIA0123456789ABCDEF;b=AKIAFEDCBA9876543210.".toList, []⟩
  rw [htext, hlog]
  exact ⟨hk, by decide +kernel, by decide +kernel, by decide +kernel⟩

end Privacy

end SecureReview
