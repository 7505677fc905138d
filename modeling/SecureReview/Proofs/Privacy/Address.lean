import SecureReview.Proofs.Privacy.Substitution
/-!
# Addresses of databases

The pattern of database addresses is the one that placeholders do not
stop: what may follow the scheme are classes of all characters but one.
An address is a scheme followed by credentials
(`matches_databaseUrl_iff`), and whether credentials follow is decided
by a small automaton that tells only `:`, `@` and `/` from other
characters (`hasCredentials_iff`). A word without these three, such as a
placeholder, moves it in the same way as any other
(`Reading.run_of_plain`), which is why replacing signed tokens changes
nothing about credentials, and replacing addresses may.
-/

namespace SecureReview

namespace Privacy

open Pattern CharSet SecretKind

variable {p : Pattern} {c d : Char} {s t u r : List Char}

/-! ## Reading credentials -/

/-- How far the credentials of an address have been read. -/
inductive Reading where
  | unread
  | user
  | colon
  | password
  | host
  | complete
  | broken
  deriving DecidableEq

namespace Reading

/-- Read one more character. A part must not be empty, and the first
character after it ends it. -/
def next : Reading → Char → Reading
  | .unread, c => if c = ':' then .broken else .user
  | .user, c => if c = ':' then .colon else .user
  | .colon, c => if c = '@' then .broken else .password
  | .password, c => if c = '@' then .host else .password
  | .host, c => if c = '/' then .broken else .complete
  | .complete, _ => .complete
  | .broken, _ => .broken

/-- Read a text. -/
def run (q : Reading) (t : List Char) : Reading :=
  t.foldl next q

variable {q : Reading}

@[simp] theorem run_nil : q.run [] = q := rfl

@[simp] theorem run_cons : q.run (c :: t) = (q.next c).run t := rfl

@[simp] theorem run_append : q.run (t ++ u) = (q.run t).run u :=
  List.foldl_append

@[simp] theorem run_complete : complete.run t = complete := by
  induction t with
  | nil => rfl
  | cons c t ih => exact ih

@[simp] theorem run_broken : broken.run t = broken := by
  induction t with
  | nil => rfl
  | cons c t ih => exact ih

/-- A part that must not begin with `d`. -/
theorem run_first (d : Char) (q' : Reading)
    (hq : ∀ c, q.next c = if c = d then broken else q') (hne : q ≠ complete) :
    q.run t = complete ↔ ∃ c y, t = c :: y ∧ c ≠ d ∧ q'.run y = complete := by
  cases t with
  | nil => simpa using hne
  | cons c t =>
    rw [run_cons, hq]
    constructor
    · intro h
      split at h
      · simp at h
      · next hc => exact ⟨c, t, rfl, hc, h⟩
    · rintro ⟨e, y, hey, he, h⟩
      obtain ⟨rfl, rfl⟩ := List.cons_eq_cons.1 hey
      rwa [if_neg he]

/-- A part that goes on until `d`. -/
theorem run_until (d : Char) (q' : Reading)
    (hq : ∀ c, q.next c = if c = d then q' else q) (hne : q ≠ complete) :
    q.run t = complete ↔ ∃ x y, t = x ++ d :: y ∧ d ∉ x ∧ q'.run y = complete := by
  induction t with
  | nil => simpa using hne
  | cons c t ih =>
    by_cases hc : c = d
    · subst hc
      rw [run_cons, hq, if_pos rfl]
      constructor
      · intro h
        exact ⟨[], t, rfl, by simp, h⟩
      · rintro ⟨x, y, hxy, hx, h⟩
        cases x with
        | nil => rwa [(List.cons_eq_cons.1 hxy).2]
        | cons e x => exact absurd ((List.cons_eq_cons.1 hxy).1 ▸ List.mem_cons_self) hx
    · rw [run_cons, hq, if_neg hc, ih]
      constructor
      · rintro ⟨x, y, rfl, hx, h⟩
        exact ⟨c :: x, y, rfl, by simp [hx, Ne.symm hc], h⟩
      · rintro ⟨x, y, hxy, hx, h⟩
        cases x with
        | nil => exact absurd (List.cons_eq_cons.1 hxy).1 hc
        | cons e x =>
          exact ⟨x, y, (List.cons_eq_cons.1 hxy).2, fun hd => hx (List.mem_cons_of_mem e hd), h⟩

/-- What a word without the three marks does. -/
def afterWord : Reading → Reading
  | .unread => .user
  | .user => .user
  | .colon => .password
  | .password => .password
  | .host => .complete
  | .complete => .complete
  | .broken => .broken

@[simp] theorem afterWord_afterWord : q.afterWord.afterWord = q.afterWord := by
  cases q <;> rfl

/-- **All words without the three marks are read alike.** -/
theorem run_of_plain (hne : u ≠ []) (hcolon : ':' ∉ u) (hat : '@' ∉ u) (hslash : '/' ∉ u) :
    q.run u = q.afterWord := by
  induction u generalizing q with
  | nil => exact absurd rfl hne
  | cons c u ih =>
    simp only [List.mem_cons, not_or] at hcolon hat hslash
    have hnext : q.next c = q.afterWord := by
      cases q <;> simp [next, afterWord, Ne.symm hcolon.1, Ne.symm hat.1, Ne.symm hslash.1]
    rw [run_cons, hnext]
    by_cases hu : u = []
    · simp [hu]
    · rw [ih hu hcolon.2 hat.2 hslash.2, afterWord_afterWord]

/-- A placeholder is such a word. -/
theorem run_bracketed {word : List Char} (hcolon : ':' ∉ word) (hat : '@' ∉ word)
    (hslash : '/' ∉ word) : q.run (bracketed word) = q.afterWord :=
  run_of_plain (by simp [bracketed]) (by simp [bracketed, hcolon]) (by simp [bracketed, hat])
    (by simp [bracketed, hslash])

/-- So a pattern that matches only such words is replaced unnoticed. -/
theorem run_replaceAll {word : List Char} (hp : ¬ Matches p []) (hpc : p.excludes ':' = true)
    (hpa : p.excludes '@' = true) (hps : p.excludes '/' = true)
    (hcolon : ':' ∉ word) (hat : '@' ∉ word) (hslash : '/' ∉ word) :
    q.run (replaceAll p (bracketed word) t) = q.run t := by
  induction t using search_induction hp generalizing q with
  | nil => rfl
  | past c t hnone ih => rw [replaceAll_past hnone, run_cons, run_cons, ih]
  | across u t hu hm hlen ih =>
    rw [replaceAll_over hu hlen, run_append, run_append, ih,
      run_bracketed hcolon hat hslash, run_of_plain hu (not_mem_of_excludes hpc hm)
        (not_mem_of_excludes hpa hm) (not_mem_of_excludes hps hm)]

end Reading

/-- The text begins with credentials. -/
def hasCredentials (t : List Char) : Bool :=
  Reading.unread.run t = .complete

/-- User, password and host, as the pattern has them. -/
def credentials : Pattern :=
  all [some₁ (allBut ':'), char ':', some₁ (allBut '@'), char '@', some₁ (allBut '/')]

theorem matches_some₁_allBut :
    Matches (some₁ (allBut c)) u ↔ ∃ d v, u = d :: v ∧ d ≠ c ∧ c ∉ v := by
  simp only [some₁, matches_repeated_iff, has_allBut, reduceCtorEq, false_implies,
    implies_true, and_true]
  constructor
  · rintro ⟨hall, hlen⟩
    cases u with
    | nil => simp at hlen
    | cons d v =>
      refine ⟨d, v, rfl, hall d List.mem_cons_self, fun hc => ?_⟩
      exact hall c (List.mem_cons_of_mem d hc) rfl
  · rintro ⟨d, v, rfl, hd, hv⟩
    refine ⟨fun e he => ?_, by simp⟩
    rcases List.mem_cons.1 he with rfl | he
    · exact hd
    · rintro rfl
      exact hv he

/-- **The automaton accepts what begins with a match of the
credentials.** -/
theorem hasCredentials_iff :
    hasCredentials t = true ↔ ∃ x r, t = x ++ r ∧ Matches credentials x := by
  rw [hasCredentials, decide_eq_true_eq]
  simp only [Reading.run_first (q := .unread) ':' .user (fun _ => rfl) (by decide),
    Reading.run_until (q := .user) ':' .colon (fun _ => rfl) (by decide),
    Reading.run_first (q := .colon) '@' .password (fun _ => rfl) (by decide),
    Reading.run_until (q := .password) '@' .host (fun _ => rfl) (by decide),
    Reading.run_first (q := .host) '/' .complete (fun _ => rfl) (by decide)]
  simp only [Reading.run_complete, credentials, matches_all_cons, matches_some₁_allBut,
    matches_char_iff, matches_all_nil]
  constructor
  · rintro ⟨a, _, rfl, ha, x, _, rfl, hx, b, _, rfl, hb, y, _, rfl, hy, c, r, rfl, hc, -⟩
    exact ⟨a :: x ++ [':'] ++ (b :: y) ++ ['@'] ++ [c], r, by simp, a :: x, _, by simp,
      ⟨a, x, rfl, ha, hx⟩, [':'], _, rfl, rfl, b :: y, _, rfl, ⟨b, y, rfl, hb, hy⟩, ['@'], _, rfl,
      rfl, [c], [], rfl, ⟨c, [], rfl, hc, by simp⟩, rfl⟩
  · rintro ⟨_, r, rfl, _, _, rfl, ⟨a, x, rfl, ha, hx⟩, _, _, rfl, rfl, _, _, rfl,
      ⟨b, y, rfl, hb, hy⟩, _, _, rfl, rfl, _, _, rfl, ⟨c, z, rfl, hc, -⟩, rfl⟩
    exact ⟨a, _, by simp; rfl, ha, x, _, rfl, hx, b, _, rfl, hb, y, _, rfl, hy, c, _, rfl, hc,
      trivial⟩

/-! ## Schemes -/

/-- The names of database systems. -/
def systems : Pattern :=
  any [textAnyCase "postgres", textAnyCase "mysql", textAnyCase "mongodb"]

/-- The name of a database system and the mark after it. -/
def scheme : Pattern :=
  .seq systems (text "://")

/-- **An address is a scheme and credentials.** -/
theorem matches_databaseUrl_iff :
    Matches databaseUrl.pattern u ↔
      ∃ s x, u = s ++ x ∧ Matches scheme s ∧ Matches credentials x := by
  have hpattern : databaseUrl.pattern = .seq systems (.seq (text "://") credentials) := rfl
  simp only [hpattern, scheme, matches_seq_iff]
  constructor
  · rintro ⟨a, _, rfl, ha, b, x, rfl, hb, hx⟩
    exact ⟨a ++ b, x, by simp, ⟨a, b, rfl, ha, hb⟩, hx⟩
  · rintro ⟨_, x, rfl, ⟨a, b, rfl, ha, hb⟩, hx⟩
    exact ⟨a, b ++ x, by simp, ha, b, x, rfl, hb, hx⟩

theorem occursIn_databaseUrl_iff :
    databaseUrl.pattern.OccursIn t ↔
      ∃ a s r, t = a ++ s ++ r ∧ Matches scheme s ∧ hasCredentials r = true := by
  simp only [OccursIn, matches_databaseUrl_iff, hasCredentials_iff]
  constructor
  · rintro ⟨a, _, b, rfl, s, x, rfl, hs, hx⟩
    exact ⟨a, s, x ++ b, by simp, hs, x, b, rfl, hx⟩
  · rintro ⟨a, s, _, rfl, hs, x, b, rfl, hx⟩
    exact ⟨a, s ++ x, b, by simp, s, x, rfl, hs, hx⟩

theorem ne_nil_of_systems (h : Matches systems u) : u ≠ [] := by
  rintro rfl
  have hnull : systems.nullable = false := by decide
  rw [nullable_iff.2 h] at hnull
  cases hnull

/-- A scheme has a name, and ends in a mark. -/
theorem matches_scheme (h : Matches scheme s) : ∃ c l, s = c :: (l ++ "://".toList) := by
  simp only [scheme, matches_seq_iff, matches_text_iff] at h
  obtain ⟨n, _, rfl, hn, rfl⟩ := h
  obtain ⟨c, l, rfl⟩ := List.exists_cons_of_ne_nil (ne_nil_of_systems hn)
  exact ⟨c, l, rfl⟩

/-- The first `c` cuts a text in one way. -/
theorem append_cons_cancel {x y : List Char} (hx : c ∉ x) (hy : c ∉ y)
    (h : x ++ c :: t = y ++ c :: u) : t = u := by
  induction x generalizing y with
  | nil =>
    cases y with
    | nil => exact (List.cons_eq_cons.1 h).2
    | cons e y => exact absurd ((List.cons_eq_cons.1 h).1 ▸ List.mem_cons_self) hy
  | cons d x ih =>
    cases y with
    | nil => exact absurd ((List.cons_eq_cons.1 h).1 ▸ List.mem_cons_self) hx
    | cons e y =>
      exact ih (fun hc => hx (List.mem_cons_of_mem d hc)) (fun hc => hy (List.mem_cons_of_mem e hc))
        (List.cons_eq_cons.1 h).2

/-- After a scheme an address is found exactly when credentials
follow. -/
theorem length?_databaseUrl_scheme (hs : Matches scheme s) :
    databaseUrl.pattern.length? (s ++ r) = none ↔ hasCredentials r = false := by
  rw [length?_eq_none_iff, ← Bool.not_eq_true, hasCredentials_iff]
  constructor
  · rintro h ⟨x, b, rfl, hx⟩
    exact h (s ++ x) b (by simp) (matches_databaseUrl_iff.2 ⟨s, x, rfl, hs, hx⟩)
  · rintro h u b hub hu
    obtain ⟨s', x, rfl, hs', hx⟩ := matches_databaseUrl_iff.1 hu
    -- both schemes end at the first colon
    have hcolon : systems.excludes ':' = true := by decide
    simp only [scheme, matches_seq_iff, matches_text_iff] at hs hs'
    obtain ⟨n, _, rfl, hn, rfl⟩ := hs
    obtain ⟨n', _, rfl, hn', rfl⟩ := hs'
    have hrest : '/' :: '/' :: r = '/' :: '/' :: (x ++ b) :=
      append_cons_cancel (not_mem_of_excludes hcolon hn) (not_mem_of_excludes hcolon hn')
        (by simpa using hub)
    exact h ⟨x, b, by simpa using hrest, hx⟩

/-- **No signed token starts inside a scheme**: its third letter is in no
scheme, and a scheme ends in a mark. -/
theorem passesOver_jwtToken (hs : Matches scheme s) : jwtToken.pattern.PassesOver s r := by
  refine passesOver_of_forall fun a c z hz => length?_eq_none_iff.2 fun u b hub hu => ?_
  have hJ : 'J' ∉ s := not_mem_of_excludes (by decide) hs
  obtain ⟨d, l, hl⟩ := matches_scheme hs
  obtain ⟨v, rfl⟩ : ∃ v, u = 'e' :: 'y' :: 'J' :: v := by
    simp only [jwtToken, matches_all_cons, matches_text_iff] at hu
    obtain ⟨_, v, rfl, rfl, -⟩ := hu
    exact ⟨v, rfl⟩
  obtain ⟨rfl, hzr⟩ := List.cons_eq_cons.1 hub
  cases z with
  | nil =>
    have hend : d :: (l ++ [':', '/']) ++ ['/'] = a ++ ['e'] := by simpa [hl] using hz
    simpa using (List.append_inj' hend rfl).2
  | cons y z =>
    cases z with
    | nil =>
      have hend : d :: (l ++ [':']) ++ ['/', '/'] = a ++ ['e', y] := by simpa [hl] using hz
      simpa using (List.append_inj' hend rfl).2
    | cons w z =>
      obtain ⟨-, hw⟩ := List.cons_eq_cons.1 hzr
      obtain ⟨rfl, -⟩ := List.cons_eq_cons.1 hw
      exact hJ (by simp [hz])

/-! ## When replacing an address cannot uncover another -/

/-- From the password on, an `@` completes the credentials unless a `/`
follows. -/
theorem Reading.run_password {x z : List Char} (h : ¬ "@/".toList <:+: x ++ '@' :: c :: z) :
    Reading.password.run (x ++ '@' :: c :: z) = .complete := by
  -- the text from the first `@` on has another character
  have hfirst : ∀ d v, ¬ "@/".toList <:+: '@' :: d :: v →
      Reading.password.run ('@' :: d :: v) = .complete := by
    intro d v hd
    have : d ≠ '/' := by
      rintro rfl
      exact hd ⟨[], v, rfl⟩
    simp [Reading.next, this]
  induction x with
  | nil => exact hfirst c z h
  | cons e x ih =>
    by_cases he : e = '@'
    · subst he
      cases x with
      | nil => exact hfirst '@' (c :: z) h
      | cons d x => exact hfirst d (x ++ '@' :: c :: z) h
    · simp only [List.cons_append, Reading.run_cons, Reading.next, if_neg he]
      exact ih fun hx => h (hx.trans (List.suffix_cons e _).isInfix)

/-- **An address without `@/` completes whatever is being read.** -/
theorem Reading.run_databaseUrl {q : Reading} (hq : q ≠ .broken)
    (hu : Matches databaseUrl.pattern u) (h : ¬ "@/".toList <:+: u) : q.run u = .complete := by
  obtain ⟨s, x, rfl, hs, hx⟩ := matches_databaseUrl_iff.1 hu
  simp only [scheme, matches_seq_iff, matches_text_iff] at hs
  obtain ⟨n, _, rfl, hn, rfl⟩ := hs
  have hname : q.run n = q.afterWord := by
    exact Reading.run_of_plain (ne_nil_of_systems hn) (not_mem_of_excludes (by decide) hn)
      (not_mem_of_excludes (by decide) hn) (not_mem_of_excludes (by decide) hn)
  have hmark : (q.run n).run "://".toList = .password ∨ (q.run n).run "://".toList = .complete := by
    rw [hname]
    cases q with
    | broken => exact absurd rfl hq
    | _ => decide
  rw [Reading.run_append, Reading.run_append]
  rcases hmark with hmark | hmark
  · rw [hmark]
    simp only [credentials, matches_all_cons, matches_some₁_allBut, matches_char_iff,
      matches_all_nil] at hx
    obtain ⟨v, _, rfl, -, _, _, rfl, rfl, w, _, rfl, -, _, _, rfl, rfl, _, _, rfl,
      ⟨c, z, rfl, -⟩, rfl⟩ := hx
    have hx : v ++ ([':'] ++ (w ++ (['@'] ++ (c :: z ++ [])))) =
        (v ++ [':'] ++ w) ++ '@' :: c :: z := by simp
    rw [hx] at h ⊢
    exact Reading.run_password fun hi => h (hi.trans (List.suffix_append _ _).isInfix)
  · rw [hmark, Reading.run_complete]

/-- **In a text without `@/` replacing addresses uncovers none**: what is
read to the end afterwards was read to the end before. -/
theorem Reading.run_of_run_replaceAll {q : Reading} {word : List Char} (hcolon : ':' ∉ word)
    (hat : '@' ∉ word) (hslash : '/' ∉ word) (ht : ¬ "@/".toList <:+: t)
    (h : q.run (replaceAll databaseUrl.pattern (bracketed word) t) = .complete) :
    q.run t = .complete := by
  have hp : ¬ Matches databaseUrl.pattern [] := by
    rw [← nullable_iff]
    decide
  induction t using search_induction hp generalizing q with
  | nil => exact h
  | past c t hnone ih =>
    rw [replaceAll_past hnone] at h
    exact ih (fun hi => ht (hi.trans (List.suffix_cons c t).isInfix)) h
  | across u t hu hm hlen _ =>
    rw [replaceAll_over hu hlen, Reading.run_append,
      Reading.run_bracketed hcolon hat hslash] at h
    have hq : q ≠ .broken := by
      rintro rfl
      simp [Reading.afterWord] at h
    rw [Reading.run_append, Reading.run_databaseUrl hq hm, Reading.run_complete]
    exact fun hi => ht (hi.trans (List.prefix_append u t).isInfix)

end Privacy

end SecureReview
