import Mathlib.Data.List.Forall2
import SecureReview.Proofs.Privacy.Findings
import SecureReview.Proofs.World.Frame
import SecureReview.Proofs.World.Paths
/-!
# User names in paths

A path is redacted by three replacements, one for each kind of directory
that the homes of users are in. The last of them has a text to write that
cannot be read, so **no path is ever redacted**, and a finding is exactly if
neither it nor its context has a path (`sanitizeFinding_returns_iff_no_path`).

The first two replacements do come through. They search for `/Users/` and
`/home/` with a name and the slash behind it, and what they make of a path is
said component by component (`redactNames`). A search goes on behind the slash
that it has found, so a name is left where that slash is also the one before
the next `/home/` (`NamesHidden`).
-/

namespace SecureReview

namespace Text

variable {sep : Char} {cs : List (List Char)}

/-- Texts without the separator are told apart by it. -/
theorem eq_of_append_sep {a b s t : List Char} (ha : sep ∉ a) (hb : sep ∉ b)
    (h : a ++ sep :: s = b ++ sep :: t) : a = b ∧ s = t := by
  have hsplit := congrArg (splitAtEach [sep]) h
  rw [splitAtEach_append ha, splitAtEach_append hb] at hsplit
  obtain ⟨rfl, -⟩ := List.cons.inj hsplit
  exact ⟨rfl, List.cons.inj (List.append_cancel_left h) |>.2⟩

theorem count_join (h : ∀ c ∈ cs, sep ∉ c) : (join [sep] cs).count sep = cs.length - 1 := by
  induction cs with
  | nil => rfl
  | cons c cs ih =>
    obtain ⟨hc, hcs⟩ := List.forall_mem_cons.1 h
    by_cases hnil : cs = []
    · rw [hnil]
      exact List.count_eq_zero.2 hc
    · have hpos := List.length_pos_iff.2 hnil
      rw [join_cons _ _ hnil, List.count_append, List.count_append, List.count_eq_zero.2 hc, ih hcs,
        List.count_singleton_self, List.length_cons]
      omega

end Text

namespace Privacy

open Pattern

/-- What is written for the name of a user. -/
def username : List Char := "<USERNAME>".toList

variable {root : List Char} {cs : List (List Char)}

/-- The components of a path without the names of users: those right below a
component `root`, if there is a slash on both sides of them and before
`root`. The slash behind a name is taken with it. -/
def redactNames (root : List Char) : List (List Char) → List (List Char)
  | c :: r :: n :: d :: cs =>
    if r = root ∧ n ≠ [] then c :: r :: username :: redactNames root (d :: cs)
    else c :: redactNames root (r :: n :: d :: cs)
  | cs => cs

theorem length_redactNames (root : List Char) (cs : List (List Char)) :
    (redactNames root cs).length = cs.length := by
  fun_induction redactNames root cs with
  | case1 c r n d cs _ ih => simpa using ih
  | case2 c r n d cs _ ih => simpa using ih
  | case3 cs _ => rfl

theorem redactNames_ne_nil (h : cs ≠ []) : redactNames root cs ≠ [] := by
  rw [← List.length_pos_iff, length_redactNames, List.length_pos_iff]
  exact h

theorem mem_redactNames {c : List Char} (h : c ∈ redactNames root cs) : c ∈ cs ∨ c = username := by
  fun_induction redactNames root cs with
  | case1 b r n d cs _ ih =>
    simp only [List.mem_cons] at h ih ⊢
    tauto
  | case2 b r n d cs _ ih =>
    simp only [List.mem_cons] at h ih ⊢
    tauto
  | case3 cs _ => exact Or.inl h

theorem splitAtEach_join_redactNames (h : cs ≠ []) (hcs : ∀ c ∈ cs, '/' ∉ c) :
    Text.splitAtEach ['/'] (Text.join ['/'] (redactNames root cs)) = redactNames root cs := by
  refine Text.splitAtEach_join (redactNames_ne_nil h) fun c hc => ?_
  rcases mem_redactNames hc with hc | rfl
  · exact hcs c hc
  · decide

/-! ## The search in a path -/

namespace UserDirectory

/-- The directory of users is the directory `root`, with slashes around it. -/
structure IsSlashed (d : UserDirectory) (root : List Char) : Prop where
  lead : d.lead.toList = '/' :: (root ++ ['/'])
  mark : d.mark = '/'
  written : readTemplate 0 d.template.text.toList =
    .ok ('/' :: (root ++ '/' :: (username ++ ['/'])))
  plain : '/' ∉ root

variable {d : UserDirectory} {t u : List Char}

theorem matches_name_iff {n : List Char} :
    Matches (some₁ (CharSet.allBut '/')) n ↔ n ≠ [] ∧ '/' ∉ n := by
  rw [some₁, matches_repeated_iff, ← List.length_pos_iff]
  constructor
  · rintro ⟨hall, hleast, -⟩
    exact ⟨hleast, fun hmem => has_allBut.1 (hall '/' hmem) rfl⟩
  · rintro ⟨hpos, hmem⟩
    exact ⟨fun c hc => has_allBut.2 fun heq => hmem (heq ▸ hc), hpos, fun _ h => by cases h⟩

/-- What such a directory and the name in it look like. -/
theorem IsSlashed.matches_iff (h : d.IsSlashed root) : Matches d.pattern u ↔
    ∃ n, n ≠ [] ∧ '/' ∉ n ∧ u = '/' :: (root ++ '/' :: (n ++ ['/'])) := by
  rw [pattern, h.mark]
  simp only [matches_all_cons, matches_all_nil, matches_text_iff, matches_char_iff,
    matches_name_iff, h.lead]
  constructor
  · rintro ⟨_, _, rfl, rfl, n, _, rfl, ⟨hne, hslash⟩, _, _, rfl, rfl, rfl⟩
    exact ⟨n, hne, hslash, by simp⟩
  · rintro ⟨n, hne, hslash, rfl⟩
    exact ⟨_, n ++ ['/'], by simp, rfl, n, _, rfl, ⟨hne, hslash⟩, ['/'], [], rfl, rfl, rfl⟩

theorem IsSlashed.not_matches_nil (h : d.IsSlashed root) : ¬ Matches d.pattern [] := by
  rw [h.matches_iff]
  rintro ⟨n, -, -, hn⟩
  cases hn

/-- A search goes past what has no slash. -/
theorem IsSlashed.passesOver (h : d.IsSlashed root) {c : List Char} (hc : '/' ∉ c) (r : List Char) :
    d.pattern.PassesOver c r := by
  apply passesOver_of_forall
  rintro a x z rfl
  rw [length?_eq_none_iff]
  intro v s hv hmatch
  obtain ⟨n, -, -, rfl⟩ := h.matches_iff.1 hmatch
  obtain ⟨rfl, -⟩ := List.cons.inj hv
  exact hc (by simp)

/-- It finds a directory of users with the name in it. -/
theorem IsSlashed.length?_eq_some (h : d.IsSlashed root) {n : List Char} (hne : n ≠ [])
    (hn : '/' ∉ n) (r : List Char) :
    d.pattern.length? ('/' :: (root ++ '/' :: (n ++ ['/'])) ++ r) =
      some ('/' :: (root ++ '/' :: (n ++ ['/']))).length := by
  cases hlength : d.pattern.length? ('/' :: (root ++ '/' :: (n ++ ['/'])) ++ r) with
  | none => exact absurd (h.matches_iff.2 ⟨n, hne, hn, rfl⟩) (length?_eq_none_iff.1 hlength _ r rfl)
  | some m =>
    obtain ⟨v, s, hv, hmatch, rfl⟩ := exists_match_of_length? hlength
    obtain ⟨n', -, hn', rfl⟩ := h.matches_iff.1 hmatch
    -- the name ends at the next slash
    simp only [List.cons_append, List.append_assoc, List.cons.injEq, true_and, List.nil_append,
      List.append_cancel_left_eq] at hv
    obtain ⟨rfl, -⟩ := Text.eq_of_append_sep hn hn' hv
    rfl

/-- It finds nothing at another slash. -/
theorem IsSlashed.length?_eq_none (h : d.IsSlashed root) {r n : List Char} (hr : '/' ∉ r)
    (hn : '/' ∉ n) (hfits : ¬ (r = root ∧ n ≠ [])) (t : List Char) :
    d.pattern.length? ('/' :: (r ++ '/' :: (n ++ '/' :: t))) = none := by
  rw [length?_eq_none_iff]
  intro v s hv hmatch
  obtain ⟨n', hne, hn', rfl⟩ := h.matches_iff.1 hmatch
  simp only [List.cons_append, List.append_assoc, List.cons.injEq, true_and, List.nil_append] at hv
  obtain ⟨rfl, hname⟩ := Text.eq_of_append_sep hr h.plain hv
  obtain ⟨rfl, -⟩ := Text.eq_of_append_sep hn hn' hname
  exact hfits ⟨rfl, hne⟩

/-- Nor in a path with too few slashes. -/
theorem IsSlashed.replaceAll_of_short (h : d.IsSlashed root) (new : List Char)
    (hshort : t.count '/' < 3) : replaceAll d.pattern new t = t := by
  have hnone : ¬ d.pattern.OccursIn t := by
    rintro ⟨a, u, b, rfl, hmatch⟩
    obtain ⟨n, -, -, rfl⟩ := h.matches_iff.1 hmatch
    simp only [List.count_append, List.count_cons_self] at hshort
    omega
  rw [replaceAll, (spans_eq_nil_iff h.not_matches_nil).2 hnone]
  rfl

/-- **The names of users are redacted component by component.** -/
theorem IsSlashed.replaceAll_join (h : d.IsSlashed root) (hcs : ∀ c ∈ cs, '/' ∉ c) :
    replaceAll d.pattern ('/' :: (root ++ '/' :: (username ++ ['/']))) (Text.join ['/'] cs) =
      Text.join ['/'] (redactNames root cs) := by
  fun_induction redactNames root cs with
  | case1 c r n e cs hfits ih =>
    obtain ⟨rfl, hne⟩ := hfits
    simp only [List.forall_mem_cons] at hcs
    obtain ⟨hc, -, hn, hrest⟩ := hcs
    have hjoin : Text.join ['/'] (c :: r :: n :: e :: cs) =
        c ++ ('/' :: (r ++ '/' :: (n ++ ['/'])) ++ Text.join ['/'] (e :: cs)) := by
      simp [Text.join_cons]
    rw [hjoin, replaceAll_passesOver (h.passesOver hc _),
      replaceAll_over (List.cons_ne_nil _ _) (h.length?_eq_some hne hn _),
      ih (List.forall_mem_cons.2 hrest)]
    simp [Text.join_cons, redactNames_ne_nil]
  | case2 c r n e cs hfits ih =>
    obtain ⟨hc, hrest⟩ := List.forall_mem_cons.1 hcs
    have hslash : replaceAll d.pattern ('/' :: (root ++ '/' :: (username ++ ['/'])))
          ('/' :: Text.join ['/'] (r :: n :: e :: cs)) =
        '/' :: Text.join ['/'] (redactNames root (r :: n :: e :: cs)) := by
      rw [replaceAll_past, ih hrest]
      simp only [List.forall_mem_cons] at hrest
      simpa [Text.join_cons] using
        h.length?_eq_none hrest.1 hrest.2.1 hfits (Text.join ['/'] (e :: cs))
    rw [Text.join_cons _ _ (List.cons_ne_nil _ _), List.append_assoc, List.singleton_append,
      replaceAll_passesOver (h.passesOver hc _), hslash,
      Text.join_cons _ _ (redactNames_ne_nil (List.cons_ne_nil _ _)), List.append_assoc,
      List.singleton_append]
  | case3 cs hshort =>
    apply h.replaceAll_of_short
    rw [Text.count_join hcs]
    -- a fourth component would make the list long enough
    rcases cs with _ | ⟨c, _ | ⟨r, _ | ⟨n, _ | ⟨e, cs⟩⟩⟩⟩
    · decide
    · simp
    · simp
    · simp
    · exact absurd rfl (hshort c r n e cs)

/-- **What redacting such directories makes of a path.** -/
theorem IsSlashed.exists_redact (h : d.IsSlashed root) (t : List Char) :
    ∃ t', d.redact t = .ok t' ∧
      Text.splitAtEach ['/'] t' = redactNames root (Text.splitAtEach ['/'] t) := by
  have hslash : ∀ c ∈ Text.splitAtEach ['/'] t, '/' ∉ c := fun c => Text.not_mem_of_mem_splitAtEach
  have hreplaced := h.replaceAll_join hslash
  rw [Text.join_splitAtEach] at hreplaced
  refine ⟨_, ?_, splitAtEach_join_redactNames (List.cons_ne_nil _ _) hslash⟩
  rw [redact, h.written, ← hreplaced]
  rfl

theorem isSlashed_users : users.IsSlashed "Users".toList :=
  ⟨by decide, by decide, by rfl, by decide⟩

theorem isSlashed_home : home.IsSlashed "home".toList :=
  ⟨by decide, by decide, by rfl, by decide⟩

end UserDirectory

/-! ## What is left of the names -/

/-- No name of a user is left right below a directory `root`, unless the slash
before `root` is that behind a name that was redacted. -/
def NamesHidden (root : List Char) (cs : List (List Char)) : Prop :=
  ∀ c n d, [c, root, n, d] <:+: cs → n = [] ∨ n = username ∨ c = username

theorem exists_redactNames_cons (root c : List Char) (cs : List (List Char)) :
    ∃ cs', redactNames root (c :: cs) = c :: cs' := by
  rcases cs with _ | ⟨r, _ | ⟨n, _ | ⟨d, cs⟩⟩⟩
  · exact ⟨_, rfl⟩
  · exact ⟨_, rfl⟩
  · exact ⟨_, rfl⟩
  · rw [redactNames]
    split_ifs
    · exact ⟨_, rfl⟩
    · exact ⟨_, rfl⟩

/-- A component without a name is not that of the users. -/
theorem redactNames_of_nil (hroot : root ≠ []) (r : List Char) (cs : List (List Char)) :
    redactNames root (r :: [] :: cs) = r :: redactNames root ([] :: cs) := by
  rcases cs with _ | ⟨n, _ | ⟨d, cs⟩⟩
  · rfl
  · rfl
  · rw [redactNames, if_neg fun h => hroot h.1.symm]

/-- **Redacting hides the names.** -/
theorem namesHidden_redactNames (hroot : root ≠ []) (hname : root ≠ username)
    (cs : List (List Char)) : NamesHidden root (redactNames root cs) := by
  intro c' n' d' h
  fun_induction redactNames root cs with
  | case1 c r n d cs hfits ih =>
    -- the four components start at one of the three written here, or behind them
    rcases List.infix_cons_iff.1 h with h | h
    · simp only [List.cons_prefix_cons] at h
      exact Or.inr (Or.inl h.2.2.1)
    rcases List.infix_cons_iff.1 h with h | h
    · simp only [List.cons_prefix_cons] at h
      exact absurd h.2.1 hname
    rcases List.infix_cons_iff.1 h with h | h
    · exact Or.inr (Or.inr (List.cons_prefix_cons.1 h).1)
    · exact ih h
  | case2 c r n d cs hfits ih =>
    rcases List.infix_cons_iff.1 h with h | h
    · obtain ⟨-, hnext⟩ := List.cons_prefix_cons.1 h
      obtain ⟨cs', hcs'⟩ := exists_redactNames_cons root r (n :: d :: cs)
      have hr : root = r := by
        rw [hcs'] at hnext
        exact (List.cons_prefix_cons.1 hnext).1
      have hn : n = [] := by
        by_contra hne
        exact hfits ⟨hr.symm, hne⟩
      obtain ⟨ds, hds⟩ := exists_redactNames_cons root [] (d :: cs)
      rw [hn, redactNames_of_nil hroot, hds] at hnext
      simp only [List.cons_prefix_cons] at hnext
      exact Or.inl hnext.2.1
    · exact ih h
  | case3 cs hshort =>
    have hlength := h.length_le
    rcases cs with _ | ⟨c, _ | ⟨r, _ | ⟨n, _ | ⟨d, cs⟩⟩⟩⟩
    · simp at hlength
    · simp at hlength
    · simp at hlength
    · simp at hlength
    · exact absurd rfl (hshort c r n d cs)

/-- Redacting writes nothing but the placeholder. -/
theorem forall₂_redactNames (root : List Char) (cs : List (List Char)) :
    List.Forall₂ (fun c c' => c' = c ∨ c' = username) cs (redactNames root cs) := by
  fun_induction redactNames root cs with
  | case1 c r n d cs _ ih => exact .cons (Or.inl rfl) (.cons (Or.inl rfl) (.cons (Or.inr rfl) ih))
  | case2 c r n d cs _ ih => exact .cons (Or.inl rfl) ih
  | case3 cs _ => exact List.forall₂_same.2 fun _ _ => Or.inl rfl

/-- So names that are hidden stay hidden. -/
theorem NamesHidden.redactNames (h : NamesHidden root cs) (hname : root ≠ username)
    (other : List Char) : NamesHidden root (redactNames other cs) := by
  rintro c n d ⟨front, rest, hcs⟩
  have hall := forall₂_redactNames other cs
  rw [← hcs, List.append_assoc] at hall
  have hfour := List.forall₂_take_append _ [c, root, n, d] _
    (List.forall₂_drop_append _ front _ hall)
  simp only [List.forall₂_cons_right_iff, List.forall₂_nil_right_iff] at hfour
  obtain ⟨c₀, _, hc, ⟨r₀, _, hr, ⟨n₀, _, hn, ⟨d₀, _, -, rfl, rfl⟩, rfl⟩, rfl⟩, hold⟩ := hfour
  obtain rfl : root = r₀ := hr.resolve_right hname
  have hinfix : [c₀, root, n₀, d₀] <:+: cs := by
    rw [← hold]
    exact (List.take_prefix _ _).isInfix.trans (List.drop_suffix _ _).isInfix
  rcases hc with rfl | rfl
  · rcases hn with rfl | rfl
    · exact h _ _ _ hinfix
    · exact Or.inr (Or.inl rfl)
  · exact Or.inr (Or.inr rfl)

/-- **What the first two replacements make of a path.** -/
theorem redact_users_home (path : List Char) :
    ∃ t, (UserDirectory.known.take 2).foldlM (fun t d => d.redact t) path = .ok t ∧
      Text.splitAtEach ['/'] t = redactNames "home".toList
        (redactNames "Users".toList (Text.splitAtEach ['/'] path)) ∧
      NamesHidden "Users".toList (Text.splitAtEach ['/'] t) ∧
      NamesHidden "home".toList (Text.splitAtEach ['/'] t) := by
  obtain ⟨t₁, hfirst, hsplit₁⟩ := UserDirectory.isSlashed_users.exists_redact path
  obtain ⟨t₂, hsecond, hsplit₂⟩ := UserDirectory.isSlashed_home.exists_redact t₁
  have hhidden : NamesHidden "Users".toList (Text.splitAtEach ['/'] t₁) := by
    rw [hsplit₁]
    exact namesHidden_redactNames (by decide) (by decide) _
  refine ⟨t₂, ?_, ?_, ?_, ?_⟩
  · rw [UserDirectory.known, List.take, List.foldlM_cons, hfirst]
    exact (congrArg (· >>= pure) hsecond).trans rfl
  · rw [hsplit₂, hsplit₁]
  · rw [hsplit₂]
    exact hhidden.redactNames (by decide) _
  · rw [hsplit₂]
    exact namesHidden_redactNames (by decide) (by decide) _

/-! ## Findings with paths -/

/-- The failure of every redaction of a path. -/
def unreadable : Failure :=
  .badPattern "bad escape \\U at position 2"

/-- The value of a field, if it is there, has a property. -/
def FieldIs (fs : Fields) (k : String) (P : Json → Prop) : Prop :=
  ∀ v, Fields.get? fs k = some v → P v

/-- The value is a text. -/
def IsText (v : Json) : Prop :=
  ∃ s, v = .str s

/-- The fields of a context that are redacted are of the kinds they should be. -/
structure ProperContext (fs : Fields) : Prop where
  code : FieldIs fs "context_code" IsText
  imports : FieldIs fs "imports" fun v => v = .null ∨ ∃ ss : List String, v = .arr (ss.map .str)
  file : FieldIs fs "file" IsText

/-- The fields of a finding that are redacted are of the kinds they should be. -/
structure ProperFinding (fs : Fields) : Prop where
  code : FieldIs fs "code" fun v => v = .null ∨ IsText v
  context : FieldIs fs "context" fun v => v = .null ∨ ∃ c, v = .obj c ∧ ProperContext c
  file : FieldIs fs "file" IsText

/-- Neither the finding nor its context has a path. -/
def NamesNoPath (fs : Fields) : Prop :=
  Fields.get? fs "file" = none ∧
    ∀ c, Fields.get? fs "context" = some (.obj c) → Fields.get? c "file" = none

variable {fs : Fields} {k : String} {counts : Json → Bool} {f : Json → Run (Json × List String)}
  {r : RedactedFields} {v : Json} {w w' : World} {e : Failure}

theorem exists_redactPersonal (field : String) (x : Redacted) (w : World) :
    ∃ y w', (redactPersonal field x).run.run w = (.ok y, w') :=
  (Run.exists_try _ x w).imp fun _ h => h.imp fun _ hrun => hrun.1

/-- **A text can always be redacted**, whatever the recogniser does. -/
theorem exists_sanitizeText (s field : String) (w : World) :
    ∃ x w', (sanitizeText (.str s) field).run.run w = (.ok x, w') := by
  obtain ⟨y, w', hrun⟩ := exists_redactPersonal field (redactSecrets field s.toList) w
  rw [sanitizeText, searchable, Run.run_bind_ok Run.run_ofExcept, Run.run_bind_ok hrun]
  exact ⟨_, w', rfl⟩

theorem exists_sanitizeTexts (ss : List String) (field : String) (w : World) :
    ∃ x w', (sanitizeTexts field (ss.map .str)).run.run w = (.ok x, w') := by
  induction ss generalizing w with
  | nil => exact ⟨_, w, rfl⟩
  | cons s ss ih =>
    obtain ⟨x, w₁, hfirst⟩ := exists_sanitizeText s field w
    obtain ⟨xs, w₂, hrest⟩ := ih w₁
    rw [List.map_cons, sanitizeTexts, Run.run_bind_ok hfirst, Run.run_bind_ok hrest]
    exact ⟨_, w₂, rfl⟩

/-- A field is redacted if its value can be. -/
theorem exists_redactAt (h : FieldIs r.fields k fun v => counts v = true →
    ∃ x w', (f v).run.run w = (.ok x, w')) :
    ∃ r' w', (redactAt k counts f r).run.run w = (.ok r', w') := by
  unfold redactAt
  split
  · exact ⟨r, w, rfl⟩
  · next v hv =>
    split
    · next hcounts =>
      obtain ⟨x, w', hrun⟩ := h v hv hcounts
      rw [Run.run_bind_ok hrun]
      exact ⟨_, w', rfl⟩
    · exact ⟨r, w, rfl⟩

theorem redactAt_eq_error (hget : Fields.get? r.fields k = some v) (hcounts : counts v = true)
    (hrun : (f v).run.run w = (.error e, w')) :
    (redactAt k counts f r).run.run w = (.error e, w') := by
  rw [redactAt, hget]
  simp only [hcounts, if_true]
  exact Run.run_bind_error hrun

/-- **A path is redacted only if there is none.** -/
theorem run_redactPath_of_none (h : Fields.get? r.fields "file" = none) (w : World) :
    (redactPath r).run.run w = (.ok r, w) := by
  rw [redactPath, redactAt, h]
  rfl

theorem run_redactPath_of_text {s : String} (h : Fields.get? r.fields "file" = some (.str s))
    (w : World) : (redactPath r).run.run w = (.error unreadable, w) :=
  redactAt_eq_error h rfl (by rw [sanitizePath_str, Run.run_bind_error Run.run_ofExcept]; rfl)

/-- A record whose other fields can be redacted fails at its path. -/
theorem run_redactRecord {names : List String} {g : RedactedFields → Run RedactedFields}
    (hg : (g ⟨fs, []⟩).run.run w = (redactPath r).run.run w')
    (hsame : Fields.get? r.fields "file" = Fields.get? fs "file")
    (hfile : FieldIs fs "file" IsText) :
    (Fields.get? fs "file" = none →
      ∃ x, (redactRecord names g (.obj fs)).run.run w = (.ok x, w')) ∧
    (Fields.get? fs "file" ≠ none →
      (redactRecord names g (.obj fs)).run.run w = (.error unreadable, w')) := by
  constructor
  · intro hnone
    rw [run_redactPath_of_none (hsame.trans hnone)] at hg
    rw [redactRecord, Run.run_bind_ok hg]
    exact ⟨_, rfl⟩
  · intro hsome
    obtain ⟨v, hv⟩ := Option.ne_none_iff_exists'.1 hsome
    obtain ⟨s, rfl⟩ := hfile v hv
    rw [run_redactPath_of_text (hsame.trans hv)] at hg
    exact Run.run_bind_error hg

/-- **A context is redacted exactly if it has no path.** -/
theorem ProperContext.run_sanitizeContext (h : ProperContext fs) (w : World) :
    ∃ w', (Fields.get? fs "file" = none →
        ∃ x, (sanitizeContext (.obj fs)).run.run w = (.ok x, w')) ∧
      (Fields.get? fs "file" ≠ none →
        (sanitizeContext (.obj fs)).run.run w = (.error unreadable, w')) := by
  obtain ⟨r₁, w₁, hcode⟩ : ∃ r₁ w₁, (redactAt "context_code" (fun _ => true)
      (sanitizeText · "context_code") ⟨fs, []⟩).run.run w = (.ok r₁, w₁) := by
    refine exists_redactAt fun v hv _ => ?_
    obtain ⟨s, rfl⟩ := h.code v hv
    exact exists_sanitizeText s _ w
  obtain ⟨r₂, w₂, himports⟩ : ∃ r₂ w₂,
      (redactAt "imports" Json.truthy sanitizeImports r₁).run.run w₁ = (.ok r₂, w₂) := by
    refine exists_redactAt fun v hv hcounts => ?_
    rw [get?_of_redactAt hcode (by decide)] at hv
    obtain rfl | ⟨ss, rfl⟩ := h.imports v hv
    · cases hcounts
    · obtain ⟨x, w', hrun⟩ := exists_sanitizeTexts ss "import" w₁
      rw [sanitizeImports, Json.items, Run.run_bind_ok Run.run_ofExcept, Run.run_bind_ok hrun]
      exact ⟨_, w', rfl⟩
  refine ⟨w₂, run_redactRecord (r := r₂) ?_ ?_ h.file⟩
  · rw [Run.run_bind_ok hcode, Run.run_bind_ok himports]
  · rw [get?_of_redactAt himports (by decide), get?_of_redactAt hcode (by decide)]

/-- **A finding is redacted exactly if no path is in it.** -/
theorem ProperFinding.run_sanitizeFinding (h : ProperFinding fs) (w : World) :
    ∃ w', (NamesNoPath fs → ∃ x, (sanitizeFinding (.obj fs)).run.run w = (.ok x, w')) ∧
      (¬ NamesNoPath fs → (sanitizeFinding (.obj fs)).run.run w = (.error unreadable, w')) := by
  obtain ⟨r₁, w₁, hcode⟩ : ∃ r₁ w₁, (redactAt "code" Json.truthy
      (sanitizeText · "sast_code") ⟨fs, []⟩).run.run w = (.ok r₁, w₁) := by
    refine exists_redactAt fun v hv hcounts => ?_
    obtain rfl | ⟨s, rfl⟩ := h.code v hv
    · cases hcounts
    · exact exists_sanitizeText s _ w
  have hcontext : Fields.get? r₁.fields "context" = Fields.get? fs "context" :=
    get?_of_redactAt hcode (by decide)
  by_cases hpath : ∃ c, Fields.get? fs "context" = some (.obj c) ∧ Fields.get? c "file" ≠ none
  · -- the context already fails
    obtain ⟨c, hc, hfile⟩ := hpath
    obtain hnull | ⟨c', hc', hproper⟩ := h.context _ hc
    · cases hnull
    obtain rfl := Json.obj.inj hc'
    obtain ⟨w₂, -, hfails⟩ := hproper.run_sanitizeContext w₁
    have hcounts : (Json.obj c).truthy = true := by
      cases c with
      | nil => exact absurd rfl hfile
      | cons => rfl
    refine ⟨w₂, fun hno => absurd (hno.2 c hc) hfile, fun _ => ?_⟩
    have hstop : (redactAt "context" Json.truthy sanitizeContext r₁).run.run w₁ =
        (.error unreadable, w₂) := redactAt_eq_error (hcontext.trans hc) hcounts (hfails hfile)
    refine Run.run_bind_error ?_
    rw [Run.run_bind_ok hcode, Run.run_bind_error hstop]
  · have hnone : ∀ c, Fields.get? fs "context" = some (.obj c) → Fields.get? c "file" = none := by
      intro c hc
      by_contra hfile
      exact hpath ⟨c, hc, hfile⟩
    obtain ⟨r₂, w₂, hrest⟩ : ∃ r₂ w₂,
        (redactAt "context" Json.truthy sanitizeContext r₁).run.run w₁ = (.ok r₂, w₂) := by
      refine exists_redactAt fun v hv hcounts => ?_
      rw [hcontext] at hv
      obtain rfl | ⟨c, rfl, hproper⟩ := h.context v hv
      · cases hcounts
      · obtain ⟨w', hreturns, -⟩ := hproper.run_sanitizeContext w₁
        obtain ⟨x, hrun⟩ := hreturns (hnone c hv)
        exact ⟨x, w', hrun⟩
    have hsame : Fields.get? r₂.fields "file" = Fields.get? fs "file" := by
      rw [get?_of_redactAt hrest (by decide), get?_of_redactAt hcode (by decide)]
    have hend : (Fields.get? fs "file" = none →
          ∃ x, (sanitizeFinding (.obj fs)).run.run w = (.ok x, w₂)) ∧
        (Fields.get? fs "file" ≠ none →
          (sanitizeFinding (.obj fs)).run.run w = (.error unreadable, w₂)) := by
      refine run_redactRecord ?_ hsame h.file
      rw [Run.run_bind_ok hcode, Run.run_bind_ok hrest]
    exact ⟨w₂, fun hno => hend.1 hno.1, fun hsome => hend.2 fun hfile => hsome ⟨hfile, hnone⟩⟩

/-- **Redacting paths.** No path can be redacted, so a finding can be exactly
if neither it nor its context has one. What stops it is the last of three
replacements. The two before it always come through, and after them each name
right below `/Users/` or `/home/` is hidden, but for one that follows
a hidden name at once. -/
theorem sanitizeFinding_returns_iff_no_path (path : String) (h : ProperFinding fs) (w : World) :
    sanitizePath (.str path) = .error unreadable ∧
    (∃ r w', (sanitizeFinding (.obj fs)).run.run w = (r, w') ∧
      ((∃ x, r = .ok x) ↔ NamesNoPath fs) ∧ (¬ NamesNoPath fs → r = .error unreadable)) ∧
    ∃ t, (UserDirectory.known.take 2).foldlM (fun t d => d.redact t) path.toList = .ok t ∧
      Text.splitAtEach ['/'] t = redactNames "home".toList
        (redactNames "Users".toList (Text.splitAtEach ['/'] path.toList)) ∧
      NamesHidden "Users".toList (Text.splitAtEach ['/'] t) ∧
      NamesHidden "home".toList (Text.splitAtEach ['/'] t) := by
  refine ⟨sanitizePath_str path, ?_, redact_users_home path.toList⟩
  obtain ⟨w', hreturns, hfails⟩ := h.run_sanitizeFinding w
  by_cases hno : NamesNoPath fs
  · obtain ⟨x, hrun⟩ := hreturns hno
    exact ⟨.ok x, w', hrun, ⟨fun _ => hno, fun _ => ⟨x, rfl⟩⟩, fun hsome => absurd hno hsome⟩
  · refine ⟨.error unreadable, w', hfails hno, ⟨?_, fun h => absurd h hno⟩, fun _ => rfl⟩
    rintro ⟨x, hx⟩
    cases hx

/-- A finding with its code and its context, but without a path. -/
def pathless : Fields :=
  [("code", .str "x = 1"),
    ("context", .obj [("context_code", .str "x = 1"), ("imports", .arr [.str "import os"])])]

theorem sanitizeFinding_returns_pathless :
    NamesNoPath pathless ∧
      ∃ x w', (sanitizeFinding (.obj pathless)).run.run {} = (.ok x, w') := by
  have hproper : ProperFinding pathless := by
    refine ⟨?_, ?_, ?_⟩
    · rintro v ⟨⟩
      exact Or.inr ⟨_, rfl⟩
    · rintro v ⟨⟩
      refine Or.inr ⟨_, rfl, ⟨?_, ?_, ?_⟩⟩
      · rintro v ⟨⟩
        exact ⟨_, rfl⟩
      · rintro v ⟨⟩
        exact Or.inr ⟨["import os"], rfl⟩
      · rintro v ⟨⟩
    · rintro v ⟨⟩
  have hno : NamesNoPath pathless := by
    refine ⟨rfl, ?_⟩
    rintro c ⟨⟩
    rfl
  obtain ⟨-, ⟨r, w', hrun, hiff, -⟩, -⟩ :=
    sanitizeFinding_returns_iff_no_path "/home/bob/app.py" hproper {}
  obtain ⟨x, rfl⟩ := hiff.2 hno
  exact ⟨hno, x, w', hrun⟩

/-- **A finding with a path cannot be redacted.** Nor would every name in the
path be hidden: the slash before the second `home` is taken with the name
before it. -/
theorem sanitizeFinding_fails_at_path :
    (sanitizeFinding (.obj [("file", .str "/home/bob/app.py")])).run.run {} =
        (.error unreadable, {}) ∧
      ((UserDirectory.known.take 2).foldlM (fun t (d : UserDirectory) => d.redact t)
        "/home/ann/home/bob/app.py".toList).toOption =
          some "/home/<USERNAME>/home/bob/app.py".toList := by
  refine ⟨rfl, ?_⟩
  decide +kernel

end Privacy

end SecureReview
